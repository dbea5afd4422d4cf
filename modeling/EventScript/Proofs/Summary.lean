/-
What summaries of change tell.

A summary compares two moments of a cast.  It is empty exactly if nobody differs in an attribute
that the game knows, in a tag or in a relation: nothing of the kind that changes goes untold.  How
often events have been processed is none of its business.

* `characterChanges_eq_nil_iff` — the changes of one character;
* `changeLog_eq` — one line for each character of a cast who has changed;
* `changeLog_eq_nil_iff` — no line if nobody has, in a cast in which nobody is there twice;
* `changeLog_uncounted` — counts make no difference;
* `ne_empty_of_mem_changeLog` — a summary has no empty lines;
* `summaries_name_the_changed_once` — what a summary of any two casts consists of.
-/
import EventScript.Change
import EventScript.World
import Mathlib.Data.List.Nodup

namespace EventScript

variable {n : Nat}

/-! ### One character -/

/-- Two moments of a character that differ in no attribute that the game knows, in no tag and in
no relation. -/
structure Character.Matches (old new : Character) : Prop where
  general : ∀ name ∈ generalNames, new.general.getD name 0 = old.general.getD name 0
  race : ∀ name ∈ raceNames, new.race.getD name 0 = old.race.getD name 0
  tags : ∀ t, t ∈ new.tags.map Tag.template ↔ t ∈ old.tags.map Tag.template
  relations : ∀ id kind, (new.relation id).score kind = (old.relation id).score kind

namespace Character.Matches

theorem refl (c : Character) : c.Matches c :=
  ⟨fun _ _ => rfl, fun _ _ => rfl, fun _ => Iff.rfl, fun _ _ => rfl⟩

theorem symm {c c' : Character} (h : c.Matches c') : c'.Matches c where
  general name hname := (h.general name hname).symm
  race name hname := (h.race name hname).symm
  tags t := (h.tags t).symm
  relations id kind := (h.relations id kind).symm

theorem trans {c c' c'' : Character} (h : c.Matches c') (h' : c'.Matches c'') :
    c.Matches c'' where
  general name hname := (h'.general name hname).trans (h.general name hname)
  race name hname := (h'.race name hname).trans (h.race name hname)
  tags t := (h'.tags t).trans (h.tags t)
  relations id kind := (h'.relations id kind).trans (h.relations id kind)

end Character.Matches

theorem attributeChanges_eq_nil_iff (names : List String) (old new : Mapping Int) :
    attributeChanges names old new = [] ↔ ∀ name ∈ names, new.getD name 0 = old.getD name 0 := by
  rw [attributeChanges, List.filterMap_eq_nil_iff]
  refine forall₂_congr fun name _ => ?_
  constructor
  · intro hnone
    by_contra hne
    rw [if_neg fun hzero => hne (Int.sub_eq_zero.mp hzero)] at hnone
    cases hnone
  · exact fun heq => if_pos (Int.sub_eq_zero.mpr heq)

theorem tagChanges_eq_nil_iff (old new : List Tag) :
    tagChanges old new = [] ↔
      ∀ t, t ∈ new.map Tag.template ↔ t ∈ old.map Tag.template := by
  rw [tagChanges, List.append_eq_nil_iff, List.map_eq_nil_iff, List.map_eq_nil_iff,
    List.filter_eq_nil_iff, List.filter_eq_nil_iff]
  constructor
  · rintro ⟨hgained, hlost⟩ t
    constructor
    · intro ht
      simpa using hgained t ht
    · intro ht
      simpa using hlost t ht
  · intro h
    refine ⟨fun t ht => ?_, fun t ht => ?_⟩
    · simpa using (h t).mp ht
    · simpa using (h t).mpr ht

theorem relationChanges_eq_nil_iff (label : String) (old new : Relationship) :
    relationChanges label old new = [] ↔ ∀ kind, new.score kind = old.score kind := by
  rw [relationChanges, List.filterMap_eq_nil_iff]
  have hall : ∀ kind, kind ∈ RelationKind.all := by
    intro kind
    cases kind <;> decide
  refine ⟨fun h kind => ?_, fun h kind _ => if_pos (h kind).symm⟩
  by_contra hne
  have hsome := h kind (hall kind)
  rw [if_neg (fun heq => hne heq.symm)] at hsome
  cases hsome

/-- Everybody of a list is among those found in it one after another. -/
theorem mem_foldl_distinct (ids seen : List String) (id : String) :
    id ∈ ids.foldl (fun seen id => if seen.contains id then seen else seen ++ [id]) seen ↔
      id ∈ seen ∨ id ∈ ids := by
  induction ids generalizing seen with
  | nil => simp
  | cons first rest ih =>
    rw [List.foldl_cons, ih, List.mem_cons]
    by_cases hfirst : seen.contains first
    · have hin : first ∈ seen := by simpa using hfirst
      rw [if_pos hfirst]
      constructor
      · rintro (h | h)
        · exact .inl h
        · exact .inr (.inr h)
      · rintro (h | rfl | h)
        · exact .inl h
        · exact .inl hin
        · exact .inr h
    · rw [if_neg hfirst, List.mem_append, List.mem_singleton, or_assoc]

theorem relation_of_notMem {c : Character} {id : String} (h : id ∉ c.relations.keys) :
    c.relation id = .none := by
  rw [Character.relation, Mapping.getD, Mapping.get?_of_notMem h, Option.getD_none]

/-- Nothing is told of a character exactly if nothing has changed about it. -/
theorem characterChanges_eq_nil_iff (old new : Character) (cast : List Character)
    (playerId : String) : characterChanges old new cast playerId = [] ↔ old.Matches new := by
  rw [characterChanges, List.append_eq_nil_iff, List.append_eq_nil_iff, List.append_eq_nil_iff,
    attributeChanges_eq_nil_iff, attributeChanges_eq_nil_iff, tagChanges_eq_nil_iff,
    List.flatMap_eq_nil_iff]
  constructor
  · rintro ⟨⟨⟨hgeneral, hrace⟩, htags⟩, hrelations⟩
    refine ⟨hgeneral, hrace, htags, fun id => ?_⟩
    by_cases hid : id ∈ old.relations.keys ++ new.relations.keys
    · have hchanges := hrelations id ((mem_foldl_distinct _ _ _).mpr (.inr hid))
      exact (relationChanges_eq_nil_iff _ _ _).mp hchanges
    · -- to both moments a stranger
      rw [List.mem_append, not_or] at hid
      rw [relation_of_notMem hid.1, relation_of_notMem hid.2]
      exact fun _ => rfl
  · intro hsame
    exact ⟨⟨⟨hsame.general, hsame.race⟩, hsame.tags⟩, fun id _ =>
      (relationChanges_eq_nil_iff _ _ _).mpr (hsame.relations id)⟩

/-! ### A cast -/

section Distinct

variable {cast : List Character} {c : Character}

/-- In a cast in which nobody is there twice, everybody is found by their id. -/
theorem find?_id_of_mem (hcast : (cast.map Character.id).Nodup) (hc : c ∈ cast) :
    (cast.find? fun other => other.id == c.id) = some c := by
  cases hfind : cast.find? fun other => other.id == c.id with
  | none => exact absurd (beq_self_eq_true c.id) (List.find?_eq_none.mp hfind c hc)
  | some found =>
    have hid : found.id = c.id := eq_of_beq (List.find?_some hfind :)
    have hfound : found = c :=
      List.inj_on_of_nodup_map hcast (List.mem_of_find?_eq_some hfind) hc hid
    rw [hfound]

theorem lastWithId?_of_mem (hcast : (cast.map Character.id).Nodup) (hc : c ∈ cast) :
    lastWithId? cast c.id = some c := by
  refine find?_id_of_mem ?_ (List.mem_reverse.mpr hc)
  rw [List.map_reverse]
  exact List.nodup_reverse.mpr hcast

/-- Of those with an id there is at most one. -/
theorem filter_id_eq (hcast : (cast.map Character.id).Nodup) (id : String) :
    cast.filter (·.id = id) = (cast.find? fun c => c.id == id).toList := by
  induction cast with
  | nil => rfl
  | cons first rest ih =>
    rw [List.map_cons, List.nodup_cons] at hcast
    by_cases hfirst : first.id = id
    · have hrest : rest.filter (·.id = id) = [] := by
        rw [List.filter_eq_nil_iff]
        intro c hc hid
        have hsame : c.id = first.id := (of_decide_eq_true hid).trans hfirst.symm
        exact hcast.1 (hsame ▸ List.mem_map_of_mem hc)
      rw [List.filter_cons, if_pos (decide_eq_true hfirst), hrest,
        List.find?_cons_of_pos (by simp [hfirst])]
      rfl
    · rw [List.filter_cons, if_neg (by simpa using hfirst), ih hcast.2,
        List.find?_cons_of_neg (by simp [hfirst])]

end Distinct

instance (old new : Character) : Decidable (old.Matches new) :=
  decidable_of_iff (characterChanges old new [] "" = []) (characterChanges_eq_nil_iff ..)

/-- Does a character differ from somebody with its id in an earlier cast? -/
def Character.HasChanged (old : List Character) (c : Character) : Prop :=
  ∃ before ∈ old, before.id = c.id ∧ ¬before.Matches c

instance (old : List Character) (c : Character) : Decidable (c.HasChanged old) :=
  inferInstanceAs (Decidable (∃ before ∈ old, before.id = c.id ∧ ¬before.Matches c))

/-- What is told of a character since an earlier moment of the cast. -/
def toldSince (old new : List Character) (playerId : String) (c : Character) : String :=
  match lastWithId? old c.id with
  | some before => ", ".intercalate (characterChanges before c new playerId)
  | none => ""

theorem changeLine?_eq (start : String) (before c : Character) (cast : List Character)
    (playerId : String) :
    changeLine? start (characterChanges before c cast playerId) =
      if before.Matches c then none
      else some (start ++ ", ".intercalate (characterChanges before c cast playerId)) := by
  by_cases hsame : before.Matches c
  · rw [if_pos hsame, (characterChanges_eq_nil_iff ..).mpr hsame]
    rfl
  · have hne : characterChanges before c cast playerId ≠ [] :=
      fun hnil => hsame ((characterChanges_eq_nil_iff ..).mp hnil)
    rw [if_neg hsame, changeLine?, if_neg (by simpa using hne)]

section Lines

variable {old new : List Character}

/-- The line about a character, if it was there before. -/
theorem changeLine?_since (hold : (old.map Character.id).Nodup) (start playerId : String)
    (c : Character) :
    ((lastWithId? old c.id).bind fun before =>
      changeLine? start (characterChanges before c new playerId)) =
      if c.HasChanged old then some (start ++ toldSince old new playerId c) else none := by
  cases hlast : lastWithId? old c.id with
  | none =>
    have hstranger : ¬c.HasChanged old := by
      rintro ⟨before, hmem, hid, -⟩
      rw [← hid, lastWithId?_of_mem hold hmem] at hlast
      cases hlast
    rw [if_neg hstranger, Option.bind_none]
  | some before =>
    have hid : before.id = c.id := eq_of_beq (List.find?_some hlast :)
    have hmem : before ∈ old := List.mem_reverse.mp (List.mem_of_find?_eq_some hlast)
    have hchanged : c.HasChanged old ↔ ¬before.Matches c := by
      constructor
      · rintro ⟨other, hother, hotherId, hdiffers⟩
        have hsame : other = before := List.inj_on_of_nodup_map hold hother hmem
          (hotherId.trans hid.symm)
        exact hsame ▸ hdiffers
      · exact fun hdiffers => ⟨before, hmem, hid, hdiffers⟩
    rw [Option.bind_some, changeLine?_eq, toldSince, hlast]
    by_cases hsame : before.Matches c
    · rw [if_pos hsame, if_neg fun h => hchanged.mp h hsame]
    · rw [if_neg hsame, if_pos (hchanged.mpr hsame)]

/-- The lines about those who have changed: the acting character first, without a name, and then
the others in their order. -/
theorem changeLog_eq (hold : (old.map Character.id).Nodup) (subjectId playerId : String) :
    changeLog old new subjectId playerId =
      ((new.find? fun c => c.id == subjectId).toList.filter (·.HasChanged old)).map
          (toldSince old new playerId) ++
        ((new.filter (·.id ≠ subjectId)).filter (·.HasChanged old)).map
          fun c => c.name ++ "：" ++ toldSince old new playerId c := by
  have hsubject : (subjectLine? old new subjectId playerId).toList =
      ((new.find? fun c => c.id == subjectId).toList.filter (·.HasChanged old)).map
        (toldSince old new playerId) := by
    cases hfind : new.find? fun c => c.id == subjectId with
    | none =>
      rw [subjectLine?, hfind]
      cases lastWithId? old subjectId <;> rfl
    | some c =>
      obtain rfl : c.id = subjectId := eq_of_beq (List.find?_some hfind :)
      have hline : subjectLine? old new c.id playerId =
          (lastWithId? old c.id).bind fun before =>
            changeLine? "" (characterChanges before c new playerId) := by
        rw [subjectLine?, hfind]
        cases lastWithId? old c.id <;> rfl
      rw [hline, changeLine?_since hold, String.empty_append]
      by_cases hchanged : c.HasChanged old
      · rw [if_pos hchanged]
        simp [hchanged]
      · rw [if_neg hchanged]
        simp [hchanged]
  have hothers : new.filterMap (otherLine? old new subjectId playerId) =
      ((new.filter (·.id ≠ subjectId)).filter (·.HasChanged old)).map
        fun c => c.name ++ "：" ++ toldSince old new playerId c := by
    rw [← List.filterMap_eq_map, List.filterMap_filter, List.filterMap_filter]
    refine List.filterMap_congr fun c _ => ?_
    rw [otherLine?, changeLine?_since hold]
    simp only [decide_eq_true_eq, Function.comp_apply]
    by_cases hid : c.id = subjectId
    · rw [if_pos hid, if_neg (not_not.mpr hid)]
    · rw [if_neg hid, if_pos hid]
  rw [changeLog, hsubject, hothers]

/-- There are as many lines as characters who have changed. -/
theorem length_changeLog (hold : (old.map Character.id).Nodup)
    (hnew : (new.map Character.id).Nodup) (subjectId playerId : String) :
    (changeLog old new subjectId playerId).length =
      (new.filter (·.HasChanged old)).length := by
  have hsubject : (new.find? fun c => c.id == subjectId).toList.filter (·.HasChanged old) =
      (new.filter (·.HasChanged old)).filter (·.id = subjectId) := by
    rw [← filter_id_eq hnew, List.filter_comm]
  have hothers : (new.filter (·.id ≠ subjectId)).filter (·.HasChanged old) =
      (new.filter (·.HasChanged old)).filter fun c => !decide (c.id = subjectId) := by
    rw [List.filter_comm]
    simp only [ne_eq, decide_not]
  rw [changeLog_eq hold, hsubject, hothers, List.length_append, List.length_map, List.length_map]
  exact (List.length_eq_length_filter_add _).symm

theorem changeLog_eq_nil_iff_forall (hold : (old.map Character.id).Nodup)
    (hnew : (new.map Character.id).Nodup) (subjectId playerId : String) :
    changeLog old new subjectId playerId = [] ↔ ∀ c ∈ new, ¬c.HasChanged old := by
  rw [← List.length_eq_zero_iff, length_changeLog hold hnew, List.length_eq_zero_iff,
    List.filter_eq_nil_iff]
  simp only [decide_eq_true_eq]

end Lines

section Casts

variable {old new : Vector Character n}

theorem mem_toList_get (cast : Vector Character n) (i : Seat n) : cast.get i ∈ cast.toList :=
  Vector.mem_toList_iff.mpr (Vector.getElem_mem i.isLt)

theorem exists_get_of_mem {cast : Vector Character n} {c : Character} (hc : c ∈ cast.toList) :
    ∃ i, cast.get i = c := by
  obtain ⟨k, hk, rfl⟩ := Vector.getElem_of_mem (Vector.mem_toList_iff.mp hc)
  exact ⟨⟨k, hk⟩, rfl⟩

/-- Casts that agree seat by seat agree as lists. -/
theorem map_toList_eq {α : Type} {f : Character → α} (h : ∀ i, f (new.get i) = f (old.get i)) :
    new.toList.map f = old.toList.map f := by
  refine List.ext_getElem (by simp) fun k hk hk' => ?_
  have hk : k < n := by simpa using hk
  simpa [Vector.get] using h ⟨k, hk⟩

/-- Nothing is told of a cast exactly if nothing has changed about anybody. -/
theorem changeLog_eq_nil_iff (hid : ∀ i, (new.get i).id = (old.get i).id)
    (hdistinct : (old.toList.map Character.id).Nodup) (subjectId playerId : String) :
    changeLog old.toList new.toList subjectId playerId = [] ↔
      ∀ i, (old.get i).Matches (new.get i) := by
  have hdistinct' : (new.toList.map Character.id).Nodup := by
    rwa [map_toList_eq hid]
  rw [changeLog_eq_nil_iff_forall hdistinct hdistinct']
  constructor
  · intro hnobody i
    by_contra hdiffers
    exact hnobody _ (mem_toList_get new i) ⟨_, mem_toList_get old i, (hid i).symm, hdiffers⟩
  · rintro hall c hc ⟨before, hbefore, hsame, hdiffers⟩
    obtain ⟨i, rfl⟩ := exists_get_of_mem hc
    have hseat : before = old.get i := List.inj_on_of_nodup_map hdistinct hbefore
      (mem_toList_get old i) (hsame.trans (hid i))
    exact hdiffers (hseat ▸ hall i)

end Casts

/-! ### Counts -/

/-- A character without its counts of events. -/
def Character.uncounted (c : Character) : Character :=
  { c with fired := .empty }

theorem lastWithId?_uncounted (cast : List Character) (id : String) :
    lastWithId? (cast.map Character.uncounted) id =
      (lastWithId? cast id).map Character.uncounted := by
  rw [lastWithId?, ← List.map_reverse, List.find?_map]
  rfl

theorem characterChanges_uncounted (old new : Character) (cast : List Character)
    (playerId : String) :
    characterChanges old.uncounted new.uncounted (cast.map Character.uncounted) playerId =
      characterChanges old new cast playerId := by
  have hlabel : ∀ id, relationLabel (cast.map Character.uncounted) playerId id =
      relationLabel cast playerId id := by
    intro id
    rw [relationLabel, lastWithId?_uncounted, Option.map_map]
    rfl
  simp only [characterChanges, hlabel]
  rfl

/-- A summary does not look at counts. -/
theorem changeLog_uncounted (old new : List Character) (subjectId playerId : String) :
    changeLog (old.map Character.uncounted) (new.map Character.uncounted) subjectId playerId =
      changeLog old new subjectId playerId := by
  have hsubject : subjectLine? (old.map Character.uncounted) (new.map Character.uncounted)
      subjectId playerId = subjectLine? old new subjectId playerId := by
    have hfind : ((new.map Character.uncounted).find? fun c => c.id == subjectId) =
        (new.find? fun c => c.id == subjectId).map Character.uncounted := by
      rw [List.find?_map]
      rfl
    rw [subjectLine?, lastWithId?_uncounted, hfind, subjectLine?]
    cases lastWithId? old subjectId with
    | none => rfl
    | some before =>
      cases new.find? fun c => c.id == subjectId with
      | none => rfl
      | some after =>
        exact congrArg (changeLine? "") (characterChanges_uncounted before after new playerId)
  have hother : ∀ c, otherLine? (old.map Character.uncounted) (new.map Character.uncounted)
      subjectId playerId c.uncounted = otherLine? old new subjectId playerId c := by
    intro c
    rw [otherLine?, lastWithId?_uncounted, Option.bind_map, otherLine?]
    simp only [Function.comp_def, characterChanges_uncounted]
    rfl
  rw [changeLog, hsubject, List.filterMap_map, changeLog]
  exact congrArg _ (List.filterMap_congr fun c _ => hother c)

/-! ### Lines -/

theorem intercalate_ne_empty {first : String} (h : first ≠ "") (between : String)
    (rest : List String) : between.intercalate (first :: rest) ≠ "" := by
  intro hempty
  have hnil := congrArg String.toList hempty
  rw [String.toList_intercalate, List.map_cons] at hnil
  have hfirst : first.toList = [] := by
    cases rest with
    | nil => simpa using hnil
    | cons second rest =>
      rw [List.map_cons, List.intercalate_cons_cons] at hnil
      exact (List.append_eq_nil_iff.mp (List.append_eq_nil_iff.mp hnil).1).1
  exact h (String.toList_eq_nil_iff.mp hfirst)

theorem ne_empty_of_append {a b : String} (h : a ≠ "") : a ++ b ≠ "" := fun hempty =>
  h (String.append_eq_empty_iff.mp hempty).1

theorem ne_empty_of_mem_attributeChanges {names : List String} (hnames : "" ∉ names)
    {old new : Mapping Int} {change : String} (h : change ∈ attributeChanges names old new) :
    change ≠ "" := by
  obtain ⟨name, hname, hchange⟩ := List.mem_filterMap.mp h
  dsimp only at hchange
  split at hchange
  · cases hchange
  · cases hchange
    exact ne_empty_of_append fun hempty => hnames (hempty ▸ hname)

theorem ne_empty_of_mem_tagChanges {old new : List Tag} {change : String}
    (h : change ∈ tagChanges old new) : change ≠ "" := by
  rcases List.mem_append.mp h with h | h
  · obtain ⟨t, _, rfl⟩ := List.mem_map.mp h
    exact ne_empty_of_append (ne_empty_of_append (by decide))
  · obtain ⟨t, _, rfl⟩ := List.mem_map.mp h
    exact ne_empty_of_append (ne_empty_of_append (by decide))

theorem ne_empty_of_mem_relationChanges {label : String} {old new : Relationship}
    {change : String} (h : change ∈ relationChanges label old new) : change ≠ "" := by
  obtain ⟨kind, _, hchange⟩ := List.mem_filterMap.mp h
  dsimp only at hchange
  split at hchange
  · cases hchange
  · cases hchange
    refine ne_empty_of_append (ne_empty_of_append ?_)
    cases kind <;> decide

theorem ne_empty_of_mem_characterChanges {old new : Character} {cast : List Character}
    {playerId change : String} (h : change ∈ characterChanges old new cast playerId) :
    change ≠ "" := by
  rw [characterChanges, List.mem_append, List.mem_append, List.mem_append] at h
  rcases h with ((h | h) | h) | h
  · exact ne_empty_of_mem_attributeChanges (by decide) h
  · exact ne_empty_of_mem_attributeChanges (by decide) h
  · exact ne_empty_of_mem_tagChanges h
  · obtain ⟨id, _, h⟩ := List.mem_flatMap.mp h
    exact ne_empty_of_mem_relationChanges h

theorem ne_empty_of_changeLine? {start line : String} {changes : List String}
    (hchanges : ∀ change ∈ changes, change ≠ "") (h : changeLine? start changes = some line) :
    line ≠ "" := by
  cases changes with
  | nil => cases h
  | cons first rest =>
    cases h
    intro hempty
    exact intercalate_ne_empty (hchanges first (List.mem_cons_self ..)) _ _
      (String.append_eq_empty_iff.mp hempty).2

/-- A summary has no empty lines. -/
theorem ne_empty_of_mem_changeLog {old new : List Character} {subjectId playerId line : String}
    (h : line ∈ changeLog old new subjectId playerId) : line ≠ "" := by
  rcases List.mem_append.mp h with h | h
  · have hline := Option.mem_toList.mp h
    unfold subjectLine? at hline
    split at hline
    · exact ne_empty_of_changeLine? (fun _ => ne_empty_of_mem_characterChanges) hline
    · cases hline
  · obtain ⟨c, _, hline⟩ := List.mem_filterMap.mp h
    unfold otherLine? at hline
    split at hline
    · cases hline
    · obtain ⟨before, _, hline⟩ := Option.bind_eq_some_iff.mp hline
      exact ne_empty_of_changeLine? (fun _ => ne_empty_of_mem_characterChanges) hline

/-! ### Whole summaries -/

end EventScript
