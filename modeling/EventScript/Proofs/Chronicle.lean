/-
What the log tells about chains of events.

Every event that does not wait for the player is reported: what is told of it, the cast that it
met and the cast that it left.  The next report of a chain begins with the very cast with which
the one before ends, so between the summaries of a chain nothing can change unseen.

* `Rulebook.settle_reports` — an event that is settled is reported;
* `Course.IsReported.after` and `Rulebook.followCourse_reported` — so is a chain, one event
  after another;
* `Session.Reported.matches_of_silent` — if no entry has effects, nothing has changed;
* `log_accounts_for_changes` — all of this for processing an event.
-/
import EventScript.Proofs.Course
import EventScript.Proofs.Summary

namespace EventScript

open Relation

variable {n : Nat} {rules : Rulebook} {i : Seat n}

/-! ### What no move touches -/

/-- Two moments of a character that differ in no attribute that the game does not know. -/
structure Character.Retains (old new : Character) : Prop where
  general : ∀ name ∉ generalNames, new.general.getD name 0 = old.general.getD name 0
  race : ∀ name ∉ raceNames, new.race.getD name 0 = old.race.getD name 0

theorem Mapping.getD_put_of_ne {α : Type} (m : Mapping α) {k k' : String} (h : k ≠ k') (v d : α) :
    (m.put k v).getD k' d = m.getD k' d := by
  rw [getD, get?_put_of_ne m h, getD]

namespace Character

theorem Retains.refl (c : Character) : c.Retains c :=
  ⟨fun _ _ => rfl, fun _ _ => rfl⟩

theorem Retains.trans {c c' c'' : Character} (h : c.Retains c') (h' : c'.Retains c'') :
    c.Retains c'' where
  general name hname := (h'.general name hname).trans (h.general name hname)
  race name hname := (h'.race name hname).trans (h.race name hname)

theorem Retains.of_eq {c c' : Character} (hgeneral : c'.general = c.general)
    (hrace : c'.race = c.race) : c.Retains c' :=
  ⟨fun _ _ => by rw [hgeneral], fun _ _ => by rw [hrace]⟩

theorem retains_adjustGeneral (c : Character) {name : String} (h : name ∈ generalNames)
    (delta : Int) : c.Retains (c.adjustGeneral name delta) := by
  refine ⟨fun other hother => Mapping.getD_put_of_ne _ ?_ _ _, fun _ _ => rfl⟩
  rintro rfl
  exact hother h

theorem retains_adjustRace (c : Character) {name : String} (h : name ∈ raceNames)
    (delta : Int) : c.Retains (c.adjustRace name delta) := by
  refine ⟨fun _ _ => rfl, fun other hother => Mapping.getD_put_of_ne _ ?_ _ _⟩
  rintro rfl
  exact hother h

/-- Moves leave attributes alone that the game does not know. -/
theorem Change.retains {turn : Int} {c c' : Character} (h : Change turn c c') :
    c.Retains c' := by
  cases h with
  | edit h =>
    cases h with
    | general delta hname => exact c.retains_adjustGeneral hname delta
    | race delta hname => exact c.retains_adjustRace hname delta
    | relation other kind delta => exact .of_eq rfl rfl
    | tag template layers =>
      unfold setTag
      split
      · exact .of_eq rfl rfl
      · split <;> exact .of_eq rfl rfl
    | untag template => exact .of_eq rfl rfl
    | join => exact .of_eq rfl rfl
  | overwork =>
    unfold Character.overwork
    simp only
    split
    · refine ⟨fun name hname => ?_, fun _ _ => rfl⟩
      have hne : ∀ known ∈ generalNames, known ≠ name := fun known hknown h => hname (h ▸ hknown)
      simp only
      rw [Mapping.getD_put_of_ne _ (hne _ (by decide)),
        Mapping.getD_put_of_ne _ (hne _ (by decide)),
        Mapping.getD_put_of_ne _ (hne _ (by decide))]
    · exact .refl c
  | count => exact .of_eq rfl rfl

theorem retains_of_changes {turn : Int} {c c' : Character}
    (h : ReflTransGen (Change turn) c c') : c.Retains c' := by
  induction h with
  | refl => exact .refl c
  | tail _ hstep ih => exact ih.trans hstep.retains

end Character

/-! ### Entries -/

/-- The entry that a note makes: its lines are those of text and effects that are not empty. -/
def Entry.of? (turn : Int) (speaker text : String) (kind : EntryKind) (important : Bool)
    (effects : List String) : Option Entry :=
  let lines := (text :: effects).filter (! ·.isEmpty)
  if lines = [] then none
  else some ⟨turn, speaker, String.intercalate "\n" lines, kind, important, effects⟩

theorem Entry.turn_eq_of_mem {turn : Int} {speaker text : String} {kind : EntryKind}
    {important : Bool} {effects : List String} {entry : Entry}
    (h : entry ∈ Entry.of? turn speaker text kind important effects) : entry.turn = turn := by
  unfold Entry.of? at h
  simp only at h
  split at h
  · cases h
  · cases h
    rfl

theorem ne_empty_of_filter_eq_cons {lines rest : List String} {first : String}
    (h : lines.filter (! ·.isEmpty) = first :: rest) : first ≠ "" := by
  have hmem : first ∈ lines.filter (! ·.isEmpty) := h ▸ List.mem_cons_self ..
  simpa using (List.mem_filter.mp hmem).2

theorem Entry.text_ne_empty_of_mem {turn : Int} {speaker text : String} {kind : EntryKind}
    {important : Bool} {effects : List String} {entry : Entry}
    (h : entry ∈ Entry.of? turn speaker text kind important effects) : entry.text ≠ "" := by
  unfold Entry.of? at h
  simp only at h
  split at h
  · cases h
  · rename_i hlines
    obtain ⟨first, rest, hcons⟩ := List.exists_cons_of_ne_nil hlines
    cases h
    rw [hcons]
    exact intercalate_ne_empty (ne_empty_of_filter_eq_cons hcons) "\n" rest

namespace Session

/-- A note adds its entry to the log and does nothing else. -/
theorem note_eq (s : Session n) (speaker text : String) (kind : EntryKind) (important : Bool)
    (effects : List String) :
    s.note speaker text kind important effects =
      { s with log := s.log ++ (Entry.of? s.turn speaker text kind important effects).toList } := by
  cases hlines : (text :: effects).filter (! ·.isEmpty) with
  | nil =>
    unfold Session.note Entry.of?
    simp [hlines]
  | cons first rest =>
    have hfull := intercalate_ne_empty (ne_empty_of_filter_eq_cons hlines) "\n" rest
    unfold Session.note Entry.of?
    simp [hlines, hfull]

end Session

/-! ### Reports -/

/-- The processing of an event that does not wait for the player: what is told of it, and the
cast that it leaves. -/
structure Report (n : Nat) extends Visit n where
  told : String
  left : Vector Character n

namespace Report

/-- What has changed about the cast, as the character with an id sees it. -/
def effects (rules : Rulebook) (id : String) (r : Report n) : List String :=
  changeLog r.found.cast.toList r.left.toList id rules.settings.playerId

/-- The entry about an event that a character has processed, unless there is nothing to say. -/
def entry? (rules : Rulebook) (turn : Int) (who : Character) (r : Report n) : Option Entry :=
  Entry.of? turn who.name r.told .event false (r.effects rules who.id)

/-- Each report begins with the cast with which the one before ends. -/
def Telescopes : Vector Character n → List (Report n) → Vector Character n → Prop
  | first, [], last => last = first
  | first, r :: rest, last => r.found.cast = first ∧ Telescopes r.left rest last

/-- What is told of an event is its text, rendered once its actions are done and before it is
counted; a split personality may have forgotten. -/
def IsTold (rules : Rulebook) (i : Seat n) (r : Report n) : Prop :=
  (∃ (s : Session n) (scope : Scope), s.turn = r.found.turn ∧
    (Rulebook.count s i r.event).cast = r.left ∧
    (rules.render s i scope r.event.body).MayGive r.told) ∨
  (r.found.character i).hasTag rules.settings.splitTag = true ∧
    rules.memoryLost (r.found.character i) = .ok r.told

/-- If an event has no entry, or one without effects, then it has no effects. -/
theorem effects_eq_nil_of_entry? {turn : Int} {who : Character} {r : Report n}
    (h : ∀ entry ∈ r.entry? rules turn who, entry.effects = []) : r.effects rules who.id = [] := by
  unfold entry? Entry.of? at h
  simp only at h
  split at h
  · rename_i hlines
    -- a summary has no empty lines, so none was filtered out
    refine List.eq_nil_iff_forall_not_mem.mpr fun line hline => ?_
    have hne : line ≠ "" := ne_empty_of_mem_changeLog hline
    refine List.filter_eq_nil_iff.mp hlines line (List.mem_cons_of_mem _ hline) ?_
    simpa using hne
  · exact h _ rfl

end Report

namespace Session

/-- The reports account for what has become of a session: they follow each other without a gap,
they change characters only as moves do, and the log has their entries and nothing else. -/
structure Reported (rules : Rulebook) (i : Seat n) (s : Session n) (reports : List (Report n))
    (t : Session n) : Prop where
  casts : Report.Telescopes s.cast reports t.cast
  told : ∀ r ∈ reports, r.IsTold rules i
  changes : ∀ r ∈ reports, ∀ j,
    ReflTransGen (Character.Change r.found.turn) (r.found.character j) (r.left.get j)
  log : t.log = s.log ++ reports.filterMap (Report.entry? rules s.turn (s.character i))

namespace Reported

variable {s t u : Session n} {reports : List (Report n)}

/-- Where nothing is done, there is nothing to account for. -/
theorem nil (hcast : t.cast = s.cast) (hlog : t.log = s.log) : Reported rules i s [] t where
  casts := hcast
  told := by simp
  changes := by simp
  log := by simp [hlog]

/-- What is reported of an event and of what comes after it makes one account. -/
theorem cons {r : Report n} (h : Reported rules i s [r] t) (hbecomes : s.Becomes t)
    (hrest : Reported rules i t reports u) : Reported rules i s (r :: reports) u where
  casts := ⟨h.casts.1, h.casts.2 ▸ hrest.casts⟩
  told := List.forall_mem_cons.mpr ⟨h.told r (List.mem_singleton_self r), hrest.told⟩
  changes := List.forall_mem_cons.mpr ⟨h.changes r (List.mem_singleton_self r), hrest.changes⟩
  log := by
    -- turn, id and name are the same for all entries
    have hentry : Report.entry? (n := n) rules t.turn (t.character i) =
        Report.entry? rules s.turn (s.character i) := by
      funext r
      unfold Report.entry?
      rw [hbecomes.turn_eq, hbecomes.id_eq, hbecomes.name_eq]
    rw [hrest.log, h.log, hentry, List.append_assoc, ← List.filterMap_append, List.singleton_append]

end Reported

end Session

namespace Report

/-- A chain of reports without effects leaves everybody as they were. -/
theorem Telescopes.matches {first last : Vector Character n} {reports : List (Report n)}
    {id : String} (h : Telescopes first reports last)
    (hdistinct : (first.toList.map Character.id).Nodup)
    (hchanges : ∀ r ∈ reports, ∀ j,
      ReflTransGen (Character.Change r.found.turn) (r.found.character j) (r.left.get j))
    (hsilent : ∀ r ∈ reports, r.effects rules id = []) (j : Seat n) :
    (first.get j).Matches (last.get j) := by
  induction reports generalizing first with
  | nil =>
    obtain rfl : last = first := h
    exact .refl _
  | cons r rest ih =>
    obtain ⟨rfl, hrest⟩ := h
    obtain ⟨hr, hchanges⟩ := List.forall_mem_cons.mp hchanges
    obtain ⟨hnone, hsilent⟩ := List.forall_mem_cons.mp hsilent
    have hid : ∀ j, (r.left.get j).id = (r.found.cast.get j).id := fun j =>
      congrArg Prod.fst (Character.identity_eq_of_changes (hr j))
    have hsame := (changeLog_eq_nil_iff hid hdistinct _ _).mp hnone
    have hleft : (r.left.toList.map Character.id).Nodup := by
      rwa [map_toList_eq hid]
    exact (hsame j).trans (ih hrest hleft hchanges hsilent)

theorem Telescopes.retains {first last : Vector Character n} {reports : List (Report n)}
    (h : Telescopes first reports last)
    (hchanges : ∀ r ∈ reports, ∀ j,
      ReflTransGen (Character.Change r.found.turn) (r.found.character j) (r.left.get j))
    (j : Seat n) : (first.get j).Retains (last.get j) := by
  induction reports generalizing first with
  | nil =>
    obtain rfl : last = first := h
    exact .refl _
  | cons r rest ih =>
    obtain ⟨rfl, hrest⟩ := h
    obtain ⟨hr, hchanges⟩ := List.forall_mem_cons.mp hchanges
    exact (Character.retains_of_changes (hr j)).trans (ih hrest hchanges)

end Report

/-- If no entry has effects, then no attribute, tag or relation of anybody has changed. -/
theorem Session.Reported.matches_of_silent {s t : Session n} {reports : List (Report n)}
    (h : Session.Reported rules i s reports t) (hdistinct : s.ids.Nodup)
    (hsilent : ∀ entry ∈ reports.filterMap (Report.entry? rules s.turn (s.character i)),
      entry.effects = []) (j : Seat n) :
    (s.character j).Matches (t.character j) ∧ (s.character j).Retains (t.character j) := by
  have hnone : ∀ r ∈ reports, r.effects rules (s.character i).id = [] := fun r hr =>
    r.effects_eq_nil_of_entry? fun entry hentry =>
      hsilent entry (List.mem_filterMap.mpr ⟨r, hr, hentry⟩)
  exact ⟨h.casts.matches hdistinct h.changes hnone j, h.casts.retains h.changes j⟩

/-! ### Events -/

namespace Rulebook

theorem cast_checkEnding (rules : Rulebook) (e : Event) (s : Session n) :
    (rules.checkEnding e s).cast = s.cast := by
  unfold checkEnding
  split <;> rfl

theorem log_checkEnding (rules : Rulebook) (e : Event) (s : Session n) :
    (rules.checkEnding e s).log = s.log := by
  unfold checkEnding
  split <;> rfl

theorem log_absorb (rules : Rulebook) (s : Session n) (i : Seat n) (e : Event) (w : World n) :
    (rules.absorb s i e w).log = s.log := by
  unfold absorb
  simp only
  split <;> rfl

theorem befalls_ensures (split : Bool) (chance : Float) :
    Chance.Ensures (befalls split chance) fun b => b = true → split = true := by
  cases split with
  | true => exact .of_forall fun _ _ => rfl
  | false => exact .pure id

/-- Counting an event does not show in a summary. -/
theorem changeLog_count (before : List Character) (s : Session n) (i : Seat n) (e : Event)
    (subjectId playerId : String) :
    changeLog before (count s i e).cast.toList subjectId playerId =
      changeLog before s.cast.toList subjectId playerId := by
  have huncounted : (count s i e).cast.toList.map Character.uncounted =
      s.cast.toList.map Character.uncounted := by
    refine map_toList_eq fun j => ?_
    show ((s.cast.set i.val _ i.isLt).get j).uncounted = _
    rw [cast_get_set]
    by_cases hj : j = i
    · rw [if_pos hj, hj]
      rfl
    · rw [if_neg hj]
  rw [← changeLog_uncounted, huncounted, changeLog_uncounted]

/-- What an event leaves once its actions are done is reported in its entry. -/
theorem reported_of_later {s later : Session n} {e : Event} {told : String}
    (hlater : s.Becomes later) (hlog : later.log = s.log)
    (htold : Report.IsTold rules i ⟨⟨e, s⟩, told, (count later i e).cast⟩) :
    s.Reported rules i [⟨⟨e, s⟩, told, (count later i e).cast⟩]
      (rules.checkEnding e (count
        (later.note (later.character i).name told .event false (rules.effectsSince s later i))
        i e)) where
  casts := by
    rw [cast_checkEnding, Session.note_eq]
    exact ⟨rfl, rfl⟩
  told := List.forall_mem_singleton.mpr htold
  changes := List.forall_mem_singleton.mpr fun j =>
    (hlater.trans (becomes_count later i e)).changes j
  log := by
    have heffects : Report.effects rules (s.character i).id
        ⟨⟨e, s⟩, told, (count later i e).cast⟩ = rules.effectsSince s later i := by
      unfold Report.effects effectsSince
      rw [changeLog_count, hlater.id_eq]
    have hentry : Report.entry? rules s.turn (s.character i)
        ⟨⟨e, s⟩, told, (count later i e).cast⟩ = Entry.of? later.turn (later.character i).name told
          .event false (rules.effectsSince s later i) := by
      unfold Report.entry?
      rw [heffects, hlater.turn_eq, hlater.name_eq]
    rw [log_checkEnding, Session.note_eq, List.filterMap_cons, hentry]
    show later.log ++ _ = _
    rw [hlog]
    cases Entry.of? later.turn (later.character i).name told .event false
      (rules.effectsSince s later i) <;> rfl

/-- An event that is settled is reported, and nothing else is. -/
theorem settle_reports (rules : Rulebook) (s : Session n) (i : Seat n) (e : Event)
    (scope : Scope) :
    Play.Ensures
      (rules.settle s i e scope ((s.character i).hasTag rules.settings.splitTag))
      (fun a => s.Becomes a.session ∧ ∃ r : Report n, r.toVisit = ⟨e, s⟩ ∧
        s.Reported rules i [r] a.session)
      fun _ => True := by
  refine .bind (.chance (execute_becomes _ i scope _).2) fun pre hpre => ?_
  refine .bind (.chance (runActions_becomes pre.world i pre.scope e _ _).2) fun p hp => ?_
  have hlater := rules.becomes_absorb i e (hpre.trans hp)
  have hlog := rules.log_absorb s i e p.world
  generalize rules.absorb s i e p.world = later at hlater hlog
  refine .bind (.chance (.mayGive _)) fun text htext => ?_
  refine .bind (.chance (befalls_ensures _ _)) fun forgotten hforgotten => ?_
  -- a text that is forgotten makes way for the words for that
  have hretell : Play.Outcome
      (fun told => (rules.render later i p.scope e.body).MayGive told ∨
        (s.character i).hasTag rules.settings.splitTag = true ∧
          rules.memoryLost (s.character i) = .ok told)
      (fun _ => True) (rules.retell (later.character i) forgotten text) := by
    unfold retell
    split
    · rename_i h
      have hlost : rules.memoryLost (later.character i) = rules.memoryLost (s.character i) := by
        unfold memoryLost
        rw [hlater.name_eq]
      rw [hlost]
      cases hfill : rules.memoryLost (s.character i) with
      | ok told => exact .inr ⟨hforgotten h, rfl⟩
      | error f => trivial
    · exact .inl htext
  refine .bind (.ofExcept hretell) fun told htold => ?_
  refine .pure ⟨?_, ⟨⟨e, s⟩, told, (count later i e).cast⟩, rfl, ?_⟩
  · exact ((hlater.trans (.note ..)).trans (becomes_count _ i e)).trans
      (rules.becomes_checkEnding e _)
  · refine reported_of_later hlater hlog ?_
    rcases htold with hrender | hlost
    · exact .inl ⟨later, p.scope, hlater.turn_eq, rfl, hrender⟩
    · exact .inr hlost

end Rulebook

/-! ### Chains -/

/-- If a course succeeds and none of its events waits for the player, then its events are
reported, and the reports account for its result. -/
def Course.IsReported (rules : Rulebook) (i : Seat n) (s : Session n) (c : Course n) : Prop :=
  ∀ t, c.result = .ok t → (∀ v ∈ c.visits, v.event.isInteractive = false) →
    ∃ reports : List (Report n), reports.map Report.toVisit = c.visits ∧
      s.Reported rules i reports t

theorem Course.IsReported.after {s t : Session n} {r : Report n} {c : Course n}
    (hc : IsReported rules i t c) (hbecomes : s.Becomes t) (hr : s.Reported rules i [r] t) :
    IsReported rules i s (c.after r.toVisit) := by
  intro u hu hevents
  obtain ⟨reports, hvisits, hreported⟩ := hc u hu (List.forall_mem_cons.mp hevents).2
  refine ⟨r :: reports, ?_, hr.cons hbecomes hreported⟩
  rw [List.map_cons, hvisits, Course.after]

namespace Rulebook

theorem visit_reported {s : Session n} {e : Event} {scope : Scope}
    {rest : Aftermath n → Chance (Course n)}
    (hrest : ∀ a, Chance.Ensures (rest a) (Course.IsReported rules i a.session)) :
    Chance.Ensures (rules.visit s i e scope rest) (Course.IsReported rules i s) := by
  cases he : e.isInteractive with
  | true =>
    -- an event that waits for the player is not what this is about
    have hwaits : ∀ c : Course n, Course.IsReported rules i s (c.after ⟨e, s⟩) := by
      intro c t _ hevents
      have hnot := (List.forall_mem_cons.mp hevents).1
      rw [he] at hnot
      cases hnot
    exact visit_ensures (fun a _ => .of_forall hwaits) fun f _ => hwaits _
  | false =>
    have hsettle : rules.perform s i e scope =
        rules.settle s i e scope ((s.character i).hasTag rules.settings.splitTag) := by
      unfold perform
      simp only [he, Bool.false_eq_true, if_false]
    refine visit_ensures_of (hsettle ▸ rules.settle_reports s i e scope) ?_
      fun f _ t ht => nomatch ht
    rintro a ⟨hbecomes, r, hvisit, hr⟩
    rw [← hvisit]
    exact .mono (hrest a) fun c hc => hc.after hbecomes hr

theorem followCourse_reported (rules : Rulebook) (i : Seat n) (depth : Nat) (a : Aftermath n) :
    Chance.Ensures (rules.followCourse i depth a) (Course.IsReported rules i a.session) := by
  have hstop : ∀ (a : Aftermath n) (t : Session n) (cut : Option Event),
      t.cast = a.session.cast → t.log = a.session.log →
        Course.IsReported rules i a.session ⟨[], cut, .ok t⟩ := by
    rintro a t cut hcast hlog _ ⟨⟩ _
    exact ⟨[], rfl, .nil hcast hlog⟩
  refine followCourse_ensures (P := fun _ a => Course.IsReported rules i a.session) ?_ ?_ ?_ ?_ ?_
    depth a
  · exact fun _ a => hstop a _ _ rfl rfl
  · exact fun _ _ a e t ht => nomatch ht
  · exact fun _ _ a e => hstop a _ _ rfl rfl
  · exact fun _ a e item _ _ => hstop a _ _ rfl rfl
  · exact fun _ a e _ ih => visit_reported ih

end Rulebook

/-- Of a move that processes an event, and in which no event waits for the player, the log
accounts for everything.  Each event that was processed is reported, with the cast that it met
and the cast that it left, which is the cast that the next one meets; the log gains an entry
for each report that has something to say, with the summary of what has changed from one cast
to the other; and if no entry has effects, then nothing about anybody has changed. -/
theorem log_accounts_for_changes (rules : Rulebook) (s : Session n) (e : Event) (id : String)
    (scope : Scope) :
    (rules.make s (.process e id scope)).run =
      Course.answer <$> rules.course s (.process e id scope) ∧
    (s.seat? id = none →
      rules.course s (.process e id scope) = pure (some (.stop (.ok s)))) ∧
    ∀ i, s.seat? id = some i →
      Chance.Ensures (rules.course s (.process e id scope)) fun c? => ∃ c, c? = some c ∧
        ∀ t, c.result = .ok t → (∀ v ∈ c.visits, v.event.isInteractive = false) →
          ∃ reports : List (Report n), reports.map Report.toVisit = c.visits ∧
            s.Reported rules i reports t ∧
            (s.ids.Nodup →
              (∀ entry ∈ reports.filterMap (Report.entry? rules s.turn (s.character i)),
                entry.effects = []) →
              ∀ j, (s.character j).Matches (t.character j) ∧
                (s.character j).Retains (t.character j)) := by
  refine ⟨rules.run_make s _, fun hnone => ?_, fun i hi => ?_⟩
  · show some <$> rules.processForCourse s e id scope = _
    rw [Rulebook.processForCourse, hnone]
    rfl
  · show Chance.Ensures (some <$> rules.processForCourse s e id scope) _
    rw [Rulebook.processForCourse, hi]
    refine .map (.mono (Rulebook.visit_reported (rules.followCourse_reported i 0)) fun c hc => ?_)
    refine ⟨c, rfl, fun t ht hevents => ?_⟩
    obtain ⟨reports, hvisits, hreported⟩ := hc t ht hevents
    exact ⟨reports, hvisits, hreported, fun hdistinct hsilent =>
      hreported.matches_of_silent hdistinct hsilent⟩

/-- The event in which a day ends. The next one begins at once. -/
def dusk : Event :=
  { Event.plain "黄昏" with body := "天黑了。", action := "跳转 黎明" }

/-- Rules by which every night ends. -/
def nightRules : Rulebook :=
  ⟨⟨[{ Event.plain "黎明" with body := "天亮了。" }]⟩, .standard⟩

/-- A trainer and a companion before nightfall. -/
def evening : Session 2 :=
  { phase := .playing, turn := 1, maxTurns := 72,
    cast := #v[.plain "p1" "训练员" "甲", .plain "c1" "马娘" "乙"], log := [], pending := [] }

/-- One night: both events have their entries, and nothing has changed about anybody. -/
theorem night_is_told :
    ∃ c t, ((nightRules.course evening (.process dusk "c1" .empty)).run (.fresh fun _ => 0)).1 =
        some c ∧ c.result = .ok t ∧ t.log.map Entry.text = ["天黑了。", "天亮了。"] ∧
      ∃ reports : List (Report 2), reports.map Report.toVisit = c.visits ∧
        evening.Reported nightRules 1 reports t ∧
        ∀ j, (evening.character j).Matches (t.character j) ∧
          (evening.character j).Retains (t.character j) := by
  have hrun : (((nightRules.course evening (.process dusk "c1" .empty)).run
      (.fresh fun _ => 0)).1.bind fun c => c.result.toOption.map fun t =>
        (c.visits.map (·.event.isInteractive), t.log.map Entry.text, t.log.map Entry.effects)) =
      some ([false, false], ["天黑了。", "天亮了。"], [[], []]) := by
    decide +kernel
  obtain ⟨c, hc, hrun⟩ := Option.bind_eq_some_iff.mp hrun
  obtain ⟨t, ht, hrun⟩ := Option.map_eq_some_iff.mp hrun
  obtain ⟨hevents, htext, heffects⟩ : c.visits.map (·.event.isInteractive) = [false, false] ∧
      t.log.map Entry.text = ["天黑了。", "天亮了。"] ∧ t.log.map Entry.effects = [[], []] := by
    simpa using hrun
  have hresult : c.result = .ok t := Play.eq_ok_of_toOption ht
  have hsettled : ∀ v ∈ c.visits, v.event.isInteractive = false := by
    intro v hv
    have hmem := List.mem_map_of_mem (f := (·.event.isInteractive)) hv
    rw [hevents] at hmem
    simpa using hmem
  obtain ⟨c', hc', htold⟩ :=
    (log_accounts_for_changes nightRules evening dusk "c1" .empty).2.2 1 (by decide)
      (.fresh fun _ => 0)
  cases hc.symm.trans hc'
  obtain ⟨reports, hvisits, hreported, hmatches⟩ := htold t hresult hsettled
  refine ⟨c, t, hc, hresult, htext, reports, hvisits, hreported, hmatches (by decide) ?_⟩
  intro entry hentry
  have hlog : entry ∈ t.log := by
    rw [hreported.log]
    exact List.mem_append_right _ hentry
  have hmem := List.mem_map_of_mem (f := Entry.effects) hlog
  rw [heffects] at hmem
  simpa using hmem

end EventScript
