/-
The cast of a new game.

The player enters first, then a companion, if there is one, and then everybody on the roster who
is known and from whose template nobody has entered yet, numbered in order.

* `Template.enter_id`, `Template.enter_template`, `Template.enter_inTeam` — what a character that
  enters keeps of its entrance, whatever its start tags are worth;
* `Opening.others_numbered` — who enters from the roster, and under which number;
* `Opening.chooseCompanion_chooses` — who becomes the companion, and what is rolled for that;
* `new_games_have_the_requested_cast` — the whole cast of a new game;
* `nameless_companion_is_not_asked_for` — nobody can be asked for by the empty id.
-/
import EventScript.Proofs.Bounds
import Mathlib.Data.List.Nodup

namespace EventScript

/-! ### Templates -/

/-- Every template stands under its own id, and no id stands there twice. -/
structure Mapping.IsKeyed (templates : Mapping Template) : Prop where
  own : ∀ p ∈ templates.entries, p.1 = p.2.id
  distinct : templates.keys.Nodup

theorem Mapping.IsKeyed.id_eq {templates : Mapping Template} (h : templates.IsKeyed) {id : String}
    {t : Template} (ht : templates.get? id = some t) : t.id = id :=
  (h.own _ (mem_of_get? ht)).symm

theorem Mapping.IsKeyed.get?_id {templates : Mapping Template} (h : templates.IsKeyed)
    {t : Template} (ht : t ∈ templates.values) : templates.get? t.id = some t := by
  obtain ⟨p, hp, rfl⟩ := List.mem_map.mp ht
  exact get?_of_mem h.distinct (h.own p hp ▸ hp)

namespace Template

/-- The bonuses of start tags change general attributes and nothing else. -/
theorem foldl_applyBonus {β : Type} {f : Character → β}
    (hf : ∀ c name delta, f (c.adjustGeneral name delta) = f c)
    (bonuses : List (String × String × Int)) (c : Character) :
    f (bonuses.foldl applyBonus c) = f c := by
  induction bonuses generalizing c with
  | nil => rfl
  | cons bonus rest ih =>
    rw [List.foldl_cons, ih, applyBonus]
    split
    · exact hf c _ _
    · rfl

@[simp] theorem enter_id (t : Template) (e : Entrance) : (t.enter e).id = e.id := by
  unfold enter
  simp only
  rw [foldl_applyBonus (f := Character.id) fun _ _ _ => rfl]

@[simp] theorem enter_template (t : Template) (e : Entrance) : (t.enter e).template = t.id := by
  unfold enter
  simp only
  rw [foldl_applyBonus (f := Character.template) fun _ _ _ => rfl]

@[simp] theorem enter_inTeam (t : Template) (e : Entrance) : (t.enter e).inTeam = e.inTeam := by
  unfold enter
  simp only
  rw [foldl_applyBonus (f := Character.inTeam) fun _ _ _ => rfl]

end Template

namespace Opening

/-! ### The roster -/

/-- The templates that a roster adds to the used ones: those that are known and not used yet, in
the order in which the roster first names them. -/
def newcomers (templates : Mapping Template) (used roster : List String) : List String :=
  roster.eraseDups.filter fun id => templates.contains id && !used.contains id

/-- The id of a character from the roster. -/
def numberedId (k : Nat) : String :=
  "npc" ++ toString k

/-- Someone enters from a template of the roster, under a number. -/
def EntersAs (templates : Mapping Template) (p : String × Nat) (c : Character) : Prop :=
  ∃ t ∈ templates.get? p.1, c = t.enter ⟨numberedId p.2, false, "", none, []⟩

theorem newcomers_cons_of_skipped {templates : Mapping Template} {used rest : List String}
    {id : String} (h : (templates.contains id && !used.contains id) = false) :
    newcomers templates used (id :: rest) = newcomers templates used rest := by
  unfold newcomers
  rw [← eraseDups_filter, ← eraseDups_filter, List.filter_cons, if_neg (by rw [h]; decide)]

theorem newcomers_cons {templates : Mapping Template} {used rest : List String} {id : String}
    (h : (templates.contains id && !used.contains id) = true) :
    newcomers templates used (id :: rest) = id :: newcomers templates (id :: used) rest := by
  unfold newcomers
  rw [List.eraseDups_cons, List.filter_cons, if_pos h, eraseDups_filter, List.filter_filter]
  -- who has just entered is used from now on
  refine congrArg (id :: ·) (List.filter_congr fun other _ => ?_)
  rw [List.contains_cons, Bool.not_or, Bool.and_assoc, Bool.and_comm (!used.contains other)]

/-- Everybody new on the roster enters, numbered in order. -/
theorem others_numbered (templates : Mapping Template) (k : Nat) (used roster : List String) :
    List.Forall₂ (EntersAs templates) ((newcomers templates used roster).zipIdx k)
      (others templates k used roster) := by
  induction roster generalizing k used with
  | nil => exact .nil
  | cons id rest ih =>
    rw [others]
    cases ht : templates.get? id with
    | none =>
      have hunknown : templates.contains id = false := by rw [Mapping.contains, ht]; rfl
      rw [newcomers_cons_of_skipped (by rw [hunknown, Bool.false_and])]
      exact ih k used
    | some t =>
      have hknown : templates.contains id = true := by rw [Mapping.contains, ht]; rfl
      simp only
      cases hused : used.contains id with
      | true =>
        rw [newcomers_cons_of_skipped (by rw [hused, Bool.not_true, Bool.and_false]), if_pos rfl]
        exact ih k used
      | false =>
        rw [newcomers_cons (by rw [hknown, hused]; rfl), List.zipIdx_cons, if_neg (by decide)]
        exact .cons ⟨t, ht, rfl⟩ (ih (k + 1) (id :: used))

theorem map_others {β : Type} {templates : Mapping Template} {f : Character → β}
    {g : String × Nat → β} (h : ∀ p c, EntersAs templates p c → f c = g p) (k : Nat)
    (used roster : List String) : (others templates k used roster).map f =
      ((newcomers templates used roster).zipIdx k).map g := by
  have hsame : List.Forall₂ (fun p c => g p = f c) ((newcomers templates used roster).zipIdx k)
      (others templates k used roster) :=
    (others_numbered templates k used roster).imp fun p c hc => (h p c hc).symm
  have hmaps := List.forall₂_map_left_iff.mpr (List.forall₂_map_right_iff.mpr hsame)
  exact (List.forall₂_eq_eq_eq ▸ hmaps).symm

theorem exists_of_mem_others {templates : Mapping Template} {k : Nat} {used roster : List String}
    {c : Character} (hc : c ∈ others templates k used roster) :
    ∃ p, EntersAs templates p c := by
  have hnumbered := others_numbered templates k used roster
  generalize (newcomers templates used roster).zipIdx k = ps at hnumbered
  generalize others templates k used roster = cs at hnumbered hc
  induction hnumbered with
  | nil => cases hc
  | cons hd _ ih =>
    rcases List.mem_cons.mp hc with rfl | hc
    · exact ⟨_, hd⟩
    · exact ih hc

theorem map_template_others {templates : Mapping Template} (hkeyed : templates.IsKeyed) (k : Nat)
    (used roster : List String) :
    (others templates k used roster).map Character.template =
      newcomers templates used roster := by
  have htemplate : ∀ p c, EntersAs templates p c → c.template = p.1 := by
    rintro p c ⟨t, ht, rfl⟩
    rw [Template.enter_template, hkeyed.id_eq ht]
  rw [map_others htemplate, List.zipIdx_map_fst]

theorem map_id_others (templates : Mapping Template) (k : Nat) (used roster : List String) :
    (others templates k used roster).map Character.id =
      (List.range' k (newcomers templates used roster).length).map numberedId := by
  have hid : ∀ p c, EntersAs templates p c → c.id = numberedId p.2 := by
    rintro p c ⟨t, -, rfl⟩
    exact Template.enter_id t _
  rw [map_others hid, ← List.zipIdx_map_snd, List.map_map]
  rfl

theorem nodup_newcomers (templates : Mapping Template) (used roster : List String) :
    (newcomers templates used roster).Nodup :=
  (nodup_eraseDups roster).sublist List.filter_sublist

theorem notMem_of_mem_newcomers {templates : Mapping Template} {used roster : List String}
    {id : String} (h : id ∈ newcomers templates used roster) : id ∉ used := by
  intro hused
  have hnew := (List.mem_filter.mp h).2
  rw [List.contains_iff_mem.mpr hused, Bool.not_true, Bool.and_false] at hnew
  cases hnew

theorem numberedId_injective : Function.Injective numberedId := by
  intro j k h
  have hdigits : j.repr.toList = k.repr.toList :=
    congrArg String.toList ((String.append_right_inj "npc").mp h)
  rw [Nat.toList_repr, Nat.toList_repr] at hdigits
  rw [← Nat.ofDigitChars_ten_toDigits (n := j), hdigits, Nat.ofDigitChars_ten_toDigits]

theorem numberedId_ne (k : Nat) : numberedId k ≠ "p1" ∧ numberedId k ≠ "c1" := by
  have key : ∀ s : String, numberedId k = s → ['n', 'p', 'c'] <+: s.toList := by
    rintro _ rfl
    rw [numberedId, String.toList_append]
    exact List.prefix_append ..
  exact ⟨fun h => absurd (key _ h) (by decide), fun h => absurd (key _ h) (by decide)⟩

/-! ### The companion -/

/-- The templates of everybody who is no trainer. -/
def strangers (templates : Mapping Template) : List Template :=
  templates.values.filter fun t => decide (t.id ≠ "训练员") && !t.isTrainer

/-- With the dice at hand, somebody becomes the companion: the one asked for, or one drawn from
those who are no trainers. Nobody is asked for by the empty id. -/
structure Chooses (o : Opening) (templates : Mapping Template) (d : Dice)
    (companion : Option Template) (later : Dice) : Prop where
  present : o.companion ≠ "" ∧ templates.contains o.companion = true ∨
    strangers templates ≠ [] → companion ≠ none
  named : o.companion ≠ "" → ∀ t ∈ templates.get? o.companion, companion = some t ∧ later = d
  drawn : o.companion = "" ∨ templates.get? o.companion = none → strangers templates ≠ [] →
    companion = (strangers templates)[d.tape d.rolls.size % (strangers templates).length]? ∧
      later = { d with rolls := d.rolls.push (.pick (strangers templates).length) }
  alone : o.companion = "" ∨ templates.get? o.companion = none → strangers templates = [] →
    companion = none ∧ later = d

theorem companionPool_eq_strangers (templates : Mapping Template) {trainer : Template}
    (h : trainer.id = "训练员") : companionPool templates trainer = strangers templates := by
  rw [companionPool, strangers, h]
  refine List.filter_congr fun t _ => ?_
  by_cases ht : t.id = "训练员"
  · simp [ht]
  · simp [ht]

theorem chooseCompanion_chooses (o : Opening) (templates : Mapping Template) {trainer : Template}
    (htrainer : trainer.id = "训练员") (d : Dice) :
    o.Chooses templates d ((o.chooseCompanion templates trainer).run d).1
      ((o.chooseCompanion templates trainer).run d).2 := by
  rw [chooseCompanion, companionPool_eq_strangers templates htrainer]
  by_cases hasked : o.companion ≠ "" ∧ templates.contains o.companion = true
  · -- somebody is asked for, and known
    obtain ⟨hname, hknown⟩ := hasked
    obtain ⟨t, ht⟩ := Option.isSome_iff_exists.mp hknown
    rw [if_neg (by rwa [String.isEmpty_iff]), ht]
    have hnot : ¬(o.companion = "" ∨ templates.get? o.companion = none) := by
      rw [not_or, ht]
      exact ⟨hname, Option.some_ne_none t⟩
    exact ⟨fun _ => Option.some_ne_none t, fun _ t' ht' => ⟨ht.symm.trans ht', rfl⟩,
      fun h => absurd h hnot, fun h => absurd h hnot⟩
  · have hnone : (if o.companion.isEmpty = true then none else templates.get? o.companion) =
        none := by
      split
      · rfl
      · rename_i hname
        rw [String.isEmpty_iff] at hname
        exact Option.not_isSome_iff_eq_none.mp fun hknown => hasked ⟨hname, hknown⟩
    have hnamed : o.companion ≠ "" → ∀ t, ¬t ∈ templates.get? o.companion := by
      intro hname t ht
      exact hasked ⟨hname, Option.isSome_iff_exists.mpr ⟨t, ht⟩⟩
    rw [hnone]
    simp only
    cases hpool : strangers templates with
    | nil =>
      refine ⟨fun h => ?_, fun hname t ht => absurd ht (hnamed hname t), fun _ h => absurd hpool h,
        fun _ _ => ⟨rfl, rfl⟩⟩
      rcases h with h | h
      · exact absurd h hasked
      · exact absurd hpool h
    | cons t rest =>
      have hlt : d.tape d.rolls.size % (rest.length + 1) < (t :: rest).length :=
        Nat.mod_lt _ (Nat.succ_pos _)
      refine ⟨fun _ => Option.some_ne_none _, fun hname t ht => absurd ht (hnamed hname t),
        fun _ _ => ⟨?_, ?_⟩, fun _ h => absurd (hpool.symm.trans h) (List.cons_ne_nil t rest)⟩
      · rw [hpool, List.length_cons, List.getElem?_eq_getElem hlt]
        show some ((t :: rest).getD (d.tape d.rolls.size % (rest.length + 1)) t) = _
        rw [List.getD_eq_getElem?_getD, List.getElem?_eq_getElem hlt, Option.getD_some]
      · rw [hpool]
        rfl

/-! ### The whole cast -/

/-- The player as a new game has it. -/
def playerOf (o : Opening) (trainer : Template) (gender : Option Gender) : Character :=
  trainer.enter ⟨"p1", false, o.playerName, gender, o.startTags⟩

/-- The companion as a new game has it. -/
def companionOf (t : Template) : Character :=
  t.enter ⟨"c1", true, "", none, []⟩

/-- A game whose player's template is known begins, with the player, the companion that was
chosen, and everybody else. -/
theorem run_start (o : Opening) {templates : Mapping Template} {trainer : Template}
    (htrainer : templates.get? "训练员" = some trainer) {gender : Option Gender}
    (hgender : o.readGender = .ok gender) (d : Dice) :
    let chosen := (o.chooseCompanion templates trainer).run d
    let first := o.playerOf trainer gender :: chosen.1.toList.map companionOf
    let cast := first ++ others templates 1 (first.map Character.template) o.roster
    (o.start templates .standard).run.run d =
      (.ok ⟨cast.length, firstSession .standard o.playerName cast⟩, chosen.2) := by
  have hsettings : templates.get? Settings.standard.trainerTemplate = some trainer := htrainer
  unfold start cast
  rw [hsettings, hgender]
  rfl

theorem readGender_eq {o : Opening} {gender : Option Gender}
    (h : o.gender = (gender.map Gender.name).getD "") : o.readGender = .ok gender := by
  rw [readGender, h]
  match gender with
  | none => rfl
  | some .male => rfl
  | some .female => rfl

/-- The templates that the player and the companion enter from. -/
def firstTemplates (companion : Option Template) : List String :=
  "训练员" :: companion.toList.map Template.id

/-- A cast as it was asked for, with the companion that was chosen. -/
structure IsCast (o : Opening) (templates : Mapping Template) (companion : Option Template)
    (cast : List Character) : Prop where
  player : ∃ trainer ∈ templates.get? "训练员", ∃ gender : Option Gender,
    o.gender = (gender.map Gender.name).getD "" ∧ cast.head? = some (o.playerOf trainer gender)
  made : ∀ c ∈ cast, ∃ t ∈ templates.get? c.template, t.Makes c
  /-- After the player comes at most one companion, and then everybody new on the roster. -/
  template : cast.map Character.template = firstTemplates companion ++
    newcomers templates (firstTemplates companion) o.roster
  id : cast.map Character.id = ("p1" :: companion.toList.map fun _ => "c1") ++
    (List.range' 1 (newcomers templates (firstTemplates companion) o.roster).length).map numberedId
  distinct : (cast.map Character.id).Nodup
  team : ∀ c ∈ cast, c.inTeam = true ↔ c.id = "c1"
  /-- No template is used twice, but that of the trainer may be asked for as the companion's. -/
  once : (cast.map Character.template).Nodup ∨
    o.companion = "训练员" ∧ companion.map Template.id = some "训练员" ∧
      (cast.map Character.template).tail.Nodup

theorem nodup_ids (companion : Option Template) (m : Nat) :
    (("p1" :: companion.toList.map fun _ => "c1") ++
      (List.range' 1 m).map numberedId).Nodup := by
  have hnumbers := List.Nodup.map numberedId_injective (List.nodup_range' (s := 1) (n := m))
  refine List.nodup_append.mpr ⟨?_, hnumbers, ?_⟩
  · cases companion with
    | none => exact List.pairwise_singleton _ _
    | some t => exact (by decide : ["p1", "c1"].Nodup)
  · intro a ha b hb hab
    obtain ⟨k, -, rfl⟩ := List.mem_map.mp hb
    obtain ⟨hplayer, hcompanion⟩ := numberedId_ne k
    rcases List.mem_cons.mp ha with rfl | ha
    · exact hplayer hab.symm
    · obtain ⟨t, -, rfl⟩ := List.mem_map.mp ha
      exact hcompanion hab.symm

/-- A template that two characters have entered from is that of the trainer, and was asked for. -/
theorem Chooses.once {o : Opening} {templates : Mapping Template} (hkeyed : templates.IsKeyed)
    {d later : Dice} {companion : Option Template} (h : o.Chooses templates d companion later)
    (roster : List String) :
    let used := firstTemplates companion ++ newcomers templates (firstTemplates companion) roster
    used.Nodup ∨ o.companion = "训练员" ∧ companion.map Template.id = some "训练员" ∧
      used.tail.Nodup := by
  intro used
  have hnew := nodup_newcomers templates (firstTemplates companion) roster
  have hdisjoint : ∀ a ∈ firstTemplates companion,
      ∀ b ∈ newcomers templates (firstTemplates companion) roster, a ≠ b :=
    fun a ha b hb hab => notMem_of_mem_newcomers hb (hab ▸ ha)
  cases companion with
  | none => exact .inl (List.nodup_append.mpr ⟨List.pairwise_singleton _ _, hnew, hdisjoint⟩)
  | some t =>
    by_cases ht : t.id = "训练员"
    · -- nobody draws the trainer
      have hasked : o.companion ≠ "" ∧ templates.get? o.companion ≠ none := by
        by_contra hnot
        have hfree : o.companion = "" ∨ templates.get? o.companion = none := by
          rwa [not_and_or, not_not, not_not] at hnot
        by_cases hpool : strangers templates = []
        · cases (h.alone hfree hpool).1
        · have hdrawn := (h.drawn hfree hpool).1
          have hmem := List.mem_of_getElem? hdrawn.symm
          rw [strangers, List.mem_filter, ht] at hmem
          cases hmem.2
      obtain ⟨asked, hget⟩ := Option.ne_none_iff_exists'.mp hasked.2
      obtain ⟨heq, -⟩ := h.named hasked.1 asked hget
      obtain rfl := Option.some.inj heq
      refine .inr ⟨(hkeyed.id_eq hget).symm.trans ht, congrArg some ht, ?_⟩
      exact List.nodup_append.mpr ⟨List.pairwise_singleton _ _, hnew, fun a ha =>
        hdisjoint a (List.mem_cons_of_mem _ ha)⟩
    · refine .inl (List.nodup_append.mpr ⟨?_, hnew, hdisjoint⟩)
      refine List.nodup_cons.mpr ⟨fun hmem => ht ?_, List.pairwise_singleton _ _⟩
      exact (List.mem_singleton.mp hmem).symm

theorem isCast {o : Opening} {templates : Mapping Template} (hkeyed : templates.IsKeyed)
    {trainer : Template} (htrainer : templates.get? "训练员" = some trainer)
    {gender : Option Gender} (hgender : o.gender = (gender.map Gender.name).getD "")
    {d later : Dice} {companion : Option Template} (hchosen : o.Chooses templates d companion later)
    (hcompanion : ∀ t ∈ companion, t ∈ templates.values) :
    let first := o.playerOf trainer gender :: companion.toList.map companionOf
    o.IsCast templates companion
      (first ++ others templates 1 (first.map Character.template) o.roster) := by
  intro first
  have hid := hkeyed.id_eq htrainer
  have htemplate : first.map Character.template = firstTemplates companion := by
    rw [List.map_cons, List.map_map, playerOf, Template.enter_template, hid, firstTemplates]
    refine congrArg _ (List.map_congr_left fun t _ => ?_)
    exact Template.enter_template t _
  have hids : first.map Character.id = "p1" :: companion.toList.map fun _ => "c1" := by
    rw [List.map_cons, List.map_map, playerOf, Template.enter_id]
    refine congrArg _ (List.map_congr_left fun t _ => ?_)
    exact Template.enter_id t _
  have hids' : (first ++ others templates 1 (first.map Character.template) o.roster).map
      Character.id = ("p1" :: companion.toList.map fun _ => "c1") ++ (List.range' 1
        (newcomers templates (firstTemplates companion) o.roster).length).map numberedId := by
    rw [List.map_append, hids, map_id_others, htemplate]
  have htemplates' : (first ++ others templates 1 (first.map Character.template) o.roster).map
      Character.template = firstTemplates companion ++
        newcomers templates (firstTemplates companion) o.roster := by
    rw [List.map_append, htemplate, map_template_others hkeyed]
  -- who somebody is, by the place in the cast
  have hmember : ∀ c ∈ first ++ others templates 1 (first.map Character.template) o.roster,
      c = o.playerOf trainer gender ∨ (∃ t ∈ companion, c = companionOf t) ∨
        ∃ p, EntersAs templates p c := by
    intro c hc
    rcases List.mem_append.mp hc with hc | hc
    · rcases List.mem_cons.mp hc with rfl | hc
      · exact .inl rfl
      · obtain ⟨t, ht, rfl⟩ := List.mem_map.mp hc
        exact .inr (.inl ⟨t, Option.mem_toList.mp ht, rfl⟩)
    · exact .inr (.inr (exists_of_mem_others hc))
  refine ⟨⟨trainer, htrainer, gender, hgender, rfl⟩, fun c hc => ?_, htemplates', hids', ?_,
    fun c hc => ?_, ?_⟩
  · rcases hmember c hc with rfl | ⟨t, ht, rfl⟩ | ⟨p, t, ht, rfl⟩
    · refine ⟨trainer, ?_, _, rfl⟩
      rw [playerOf, Template.enter_template, hid]
      exact htrainer
    · refine ⟨t, ?_, _, rfl⟩
      rw [companionOf, Template.enter_template]
      exact hkeyed.get?_id (hcompanion t ht)
    · refine ⟨t, ?_, _, rfl⟩
      rw [Template.enter_template, hkeyed.id_eq ht]
      exact ht
  · rw [hids']
    exact nodup_ids companion _
  · rcases hmember c hc with rfl | ⟨t, ht, rfl⟩ | ⟨p, t, ht, rfl⟩
    · simp [playerOf]
    · simp [companionOf]
    · simp [(numberedId_ne p.2).2]
  · rw [htemplates']
    exact hchosen.once hkeyed o.roster

end Opening

/-- A new game with the standard settings begins for every map of templates that has one for the
trainer, whatever is asked for: with the player, with a companion if somebody is asked for by a
name that is known, or if there is anybody to draw, and with everybody new on the roster. -/
theorem new_games_have_the_requested_cast (o : Opening) (templates : Mapping Template)
    (hkeyed : templates.IsKeyed) (htrainer : templates.contains "训练员" = true)
    (gender : Option Gender) (hgender : o.gender = (gender.map Gender.name).getD "") (d : Dice) :
    ∃ game later companion, (o.start templates .standard).run.run d = (.ok game, later) ∧
      o.Chooses templates d companion later ∧
      o.IsCast templates companion game.2.cast.toList := by
  obtain ⟨trainer, hget⟩ := Option.isSome_iff_exists.mp htrainer
  have hchosen := o.chooseCompanion_chooses templates (hkeyed.id_eq hget) d
  refine ⟨_, _, _, o.run_start hget (Opening.readGender_eq hgender) d, hchosen, ?_⟩
  exact Opening.isCast hkeyed hget hgender hchosen (o.chooseCompanion_mem templates trainer d)

/-- Somebody about whom nothing but the name and the gender is said. -/
def castMember (id : String) (isTrainer : Bool) : Template :=
  ⟨id, id, .female, [], defaultGeneral, defaultRace, none, isTrainer, []⟩

/-- The templates of a stable with two runners. -/
def stableTemplates : Mapping Template :=
  ⟨[("训练员", castMember "训练员" true), ("特别周", castMember "特别周" false),
    ("无声铃鹿", castMember "无声铃鹿" false)]⟩

theorem stable_opens_with_three :
    ∃ game later, ((Opening.start ⟨"甲", "男", [], "特别周", ["无声铃鹿", "特别周", "不存在", "无声铃鹿"]⟩
        stableTemplates .standard).run.run (.fresh fun _ => 0)) = (.ok game, later) ∧
      game.2.cast.toList.map Character.id = ["p1", "c1", "npc1"] ∧
      game.2.cast.toList.map Character.template = ["训练员", "特别周", "无声铃鹿"] := by
  obtain ⟨game, later, companion, hrun, hchosen, hcast⟩ := new_games_have_the_requested_cast
    ⟨"甲", "男", [], "特别周", ["无声铃鹿", "特别周", "不存在", "无声铃鹿"]⟩ stableTemplates
    ⟨by decide, by decide⟩ (by decide) (some .male) (by decide) (.fresh fun _ => 0)
  obtain ⟨rfl, -⟩ := hchosen.named (by decide) (castMember "特别周" false) (by decide)
  exact ⟨game, later, hrun, hcast.id.trans (by decide), hcast.template.trans (by decide)⟩

/-- The templates of a trainer and of another one, who has no id. -/
def namelessTemplates : Mapping Template :=
  ⟨[("训练员", castMember "训练员" true), ("", castMember "" true)]⟩

/-- There is no companion, although the template asked for is known: nobody is asked for by the
empty id, and the only one to draw is a trainer. -/
theorem nameless_companion_is_not_asked_for :
    ¬∀ (o : Opening) (templates : Mapping Template), templates.IsKeyed →
      templates.contains "训练员" = true → o.gender = Gender.male.name →
      templates.contains o.companion = true → ∀ d game later,
      (o.start templates .standard).run.run d = (.ok game, later) →
      "c1" ∈ game.2.cast.toList.map Character.id := by
  intro h
  have hrun := @Opening.run_start ⟨"甲", "男", [], "", []⟩ namelessTemplates
    (castMember "训练员" true) (by decide) (some .male) rfl (.fresh fun _ => 0)
  have hpresent := h _ namelessTemplates ⟨by decide, by decide⟩ (by decide) rfl (by decide)
    _ _ _ hrun
  exact absurd hpresent (by decide)

end EventScript
