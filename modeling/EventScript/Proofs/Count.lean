/-
Every processed event is counted once.

Scripts never touch the counts of events; the only thing that does is the processing of an
event, and it counts for the character in the acting seat.  Between two sessions
`Session.Counts` says for whom which events were counted:

* `Rulebook.perform_counts` — processing an event counts it once, also if it only enters the
  queue, and also if the other self chooses its option;
* `Rulebook.settleOption_counts` — settling an option counts nothing;
* `Rulebook.followCourse_counts` — a chain counts the events that it processes;
* `processed_events_are_counted_once` — hence a move counts the events that it processes, and
  which event it begins with.
-/
import EventScript.Proofs.Course

namespace EventScript

open Relation

variable {n : Nat}

/-! ### Counts that do not change -/

namespace Character

theorem fired_setTag (c : Character) (template : String) (layers turn : Int) :
    (c.setTag template layers turn).fired = c.fired := by
  rw [setTag]
  by_cases hl : layers < 1
  · rw [if_pos hl]
    rfl
  · rw [if_neg hl]
    by_cases ht : c.hasTag template
    · rw [if_pos ht]
    · rw [if_neg ht]

/-- Scripts do not count events. -/
theorem Edit.fired_eq {turn : Int} {c c' : Character} (h : Edit turn c c') :
    c'.fired = c.fired := by
  cases h with
  | tag template layers => exact c.fired_setTag template layers turn
  | _ => rfl

theorem fired_overwork (c : Character) : c.overwork.fired = c.fired := by
  rw [overwork]
  by_cases h : 5 ≤ c.general.getD "体力" 0 ∧ 5 ≤ c.general.getD "心情" 0
  · rw [if_pos h]
  · rw [if_neg h]

theorem timesFired_countEvent (c : Character) (event id : String) :
    (c.countEvent event).timesFired id = c.timesFired id + if event = id then 1 else 0 := by
  rw [countEvent, timesFired, Mapping.getD]
  by_cases h : event = id
  · subst h
    rw [Mapping.get?_put_self, if_pos rfl, Option.getD_some]
  · rw [Mapping.get?_put_of_ne _ h, if_neg h, Int.add_zero]
    rfl

end Character

theorem World.Becomes.fired_eq {w w' : World n} (h : w.Becomes w') (i : Seat n) :
    (w'.character i).fired = (w.character i).fired := by
  have key : ∀ c, ReflTransGen (Character.Edit w.turn) (w.character i) c →
      c.fired = (w.character i).fired := by
    intro c hc
    induction hc with
    | refl => rfl
    | tail _ hedit ih => exact hedit.fired_eq.trans ih
  exact key _ (h.edits i)

/-! ### Sessions and counts -/

namespace Session

/-- Between two sessions the events of a list were counted for the character in a seat, each
as often as it stands there; nothing was counted for anybody else. -/
structure Counts (s t : Session n) (actor : Option (Seat n)) (events : List Event) : Prop where
  own : ∀ i ∈ actor, ∀ id, (t.character i).timesFired id =
    (s.character i).timesFired id + (events.countP fun e => e.id = id)
  others : ∀ j, j ∉ actor → (t.character j).fired = (s.character j).fired

namespace Counts

variable {s t u : Session n} {actor : Option (Seat n)} {events more : List Event}

theorem of_fired_eq (h : ∀ j, (t.character j).fired = (s.character j).fired) :
    Counts s t actor [] := by
  constructor
  · intro i _ id
    rw [Character.timesFired, Character.timesFired, h i, List.countP_nil, Int.natCast_zero,
      Int.add_zero]
  · intro j _
    exact h j

theorem refl (s : Session n) (actor : Option (Seat n)) : Counts s s actor [] :=
  of_fired_eq fun _ => rfl

theorem trans (h : Counts s t actor events) (h' : Counts t u actor more) :
    Counts s u actor (events ++ more) := by
  constructor
  · intro i hi id
    rw [h'.own i hi, h.own i hi, List.countP_append, Int.natCast_add, Int.add_assoc]
  · intro j hj
    rw [h'.others j hj, h.others j hj]

/-- What leaves the counts alone may come before. -/
theorem after (h : ∀ j, (t.character j).fired = (s.character j).fired)
    (h' : Counts t u actor events) : Counts s u actor events :=
  (of_fired_eq h).trans h'

/-- What leaves the counts alone may come afterwards. -/
theorem before (h : Counts s t actor events)
    (h' : ∀ j, (u.character j).fired = (t.character j).fired) : Counts s u actor events := by
  have hu := h.trans (of_fired_eq h')
  rwa [List.append_nil] at hu

/-- Counts never fall. -/
theorem timesFired_le (h : Counts s t actor events) (i : Seat n) (id : String) :
    (s.character i).timesFired id ≤ (t.character i).timesFired id := by
  by_cases hi : i ∈ actor
  · rw [h.own i hi]
    omega
  · have hsame : (t.character i).timesFired id = (s.character i).timesFired id := by
      rw [Character.timesFired, Character.timesFired, h.others i hi]
    exact Int.le_of_eq hsame.symm

end Counts

@[simp] theorem character_note (s : Session n) (speaker text : String) (kind : EntryKind)
    (important : Bool) (effects : List String) (i : Seat n) :
    (s.note speaker text kind important effects).character i = s.character i := by
  rw [note]
  by_cases h : (String.intercalate "\n" ((text :: effects).filter (! ·.isEmpty))).isEmpty
  · rw [if_pos h]
  · rw [if_neg h]
    rfl

end Session

namespace Rulebook

@[simp] theorem character_checkEnding (rules : Rulebook) (e : Event) (s : Session n)
    (i : Seat n) : (rules.checkEnding e s).character i = s.character i := by
  rw [checkEnding]
  by_cases h : e.tags.contains rules.settings.endingTag
  · rw [if_pos h]
    rfl
  · rw [if_neg h]

theorem counts_checkEnding (rules : Rulebook) (e : Event) {s t : Session n}
    {actor : Option (Seat n)} {events : List Event} (h : s.Counts t actor events) :
    s.Counts (rules.checkEnding e t) actor events := by
  refine h.before fun j => ?_
  rw [character_checkEnding]

/-- The effect of work is not counted. -/
theorem fired_absorb (rules : Rulebook) (s : Session n) (i : Seat n) (e : Event) (w : World n)
    (j : Seat n) : ((rules.absorb s i e w).character j).fired = (w.character j).fired := by
  unfold absorb
  by_cases h : (e.tags.contains rules.settings.workTag &&
      (({ s with cast := w.cast } : Session n).character i).hasTag rules.settings.overworkTag)
  · rw [if_pos h, Session.character_update]
    by_cases hj : j = i
    · rw [if_pos hj, hj, Character.fired_overwork]
      rfl
    · rw [if_neg hj]
      rfl
  · rw [if_neg h]
    rfl

theorem count_counts (s : Session n) (i : Seat n) (e : Event) :
    s.Counts (count s i e) (some i) [e] := by
  constructor
  · intro j hj id
    obtain rfl := Option.mem_some_iff.mp hj
    rw [count, Session.character_update, if_pos rfl, Character.timesFired_countEvent,
      List.countP_singleton]
    by_cases h : e.id = id <;> simp [h]
  · intro j hj
    have hji : j ≠ i := fun h => hj (h ▸ rfl)
    rw [count, Session.character_update, if_neg hji]

/-! ### Single events -/

/-- Settling an option counts nothing. -/
theorem settleOption_counts (rules : Rulebook) (s : Session n) (i : Seat n) (e : Event)
    (index : Nat) (scope : Scope) (alone : Bool) (fault : Failure → Prop) :
    Play.Ensures (rules.settleOption s i e index scope alone)
      (fun a => s.Counts a.session (some i) []) fault := by
  unfold settleOption
  split
  · exact .pure (.refl s _)
  · refine .bind (.chance (runActions_becomes _ i scope e _ _).2) fun p hp => ?_
    refine .bind (.chance (.of_forall fun _ => trivial)) fun shown _ => .pure ?_
    refine .of_fired_eq fun j => ?_
    rw [character_checkEnding, Session.character_note, fired_absorb, hp.fired_eq]
    rfl

/-- An event whose option the other self chooses is counted before the option is settled. -/
theorem settleAlone_counts (rules : Rulebook) (s : Session n) (i : Seat n) (e : Event)
    (scope : Scope) :
    Play.Ensures (rules.settleAlone s i e scope)
      (fun a => s.Counts a.session (some i) [e]) fun _ => True := by
  refine .bind (.chance (execute_becomes _ i scope _).2) fun pre hpre => ?_
  refine .bind (.trivial _) fun lost _ => ?_
  refine .bind (.chance (.of_forall fun _ => trivial)) fun visible _ => ?_
  refine .bind (.chance (.of_forall fun _ => trivial)) fun index _ => ?_
  refine .mono (rules.settleOption_counts _ i e index pre.scope true _) fun a ha => ?_
  -- the change of the first script, the log entry and the count come before the option
  refine .trans (.after (fun j => ?_) (count_counts _ i e)) ha
  rw [Session.character_note]
  exact hpre.fired_eq j

theorem queue_counts (rules : Rulebook) (s : Session n) (i : Seat n) (e : Event)
    (scope : Scope) :
    Play.Ensures (rules.queue s i e scope)
      (fun a => s.Counts a.session (some i) [e]) fun _ => True := by
  refine .bind (.chance (execute_becomes _ i scope _).2) fun pre hpre => ?_
  refine .bind (.chance (.of_forall fun _ => trivial)) fun item _ => .pure ?_
  refine .after (fun j => ?_) (count_counts _ i e)
  exact hpre.fired_eq j

theorem settle_counts (rules : Rulebook) (s : Session n) (i : Seat n) (e : Event)
    (scope : Scope) (split : Bool) :
    Play.Ensures (rules.settle s i e scope split)
      (fun a => s.Counts a.session (some i) [e]) fun _ => True := by
  refine .bind (.chance (execute_becomes _ i scope _).2) fun pre hpre => ?_
  refine .bind (.chance (runActions_becomes pre.world i pre.scope e _ _).2) fun p hp => ?_
  refine .bind (.chance (.of_forall fun _ => trivial)) fun text _ => ?_
  refine .bind (.chance (.of_forall fun _ => trivial)) fun forgotten _ => ?_
  refine .bind (.trivial _) fun text _ => .pure ?_
  refine rules.counts_checkEnding e (.after (fun j => ?_) (count_counts _ i e))
  rw [Session.character_note, fired_absorb, (hpre.trans hp).fired_eq]
  rfl

/-- Processing an event counts it once, whatever becomes of it. -/
theorem perform_counts (rules : Rulebook) (s : Session n) (i : Seat n) (e : Event)
    (scope : Scope) :
    Play.Ensures (rules.perform s i e scope)
      (fun a => s.Counts a.session (some i) [e]) fun _ => True := by
  unfold perform
  by_cases he : e.isInteractive
  · rw [if_pos he]
    refine .bind (.chance (.of_forall fun _ => trivial)) fun alone _ => ?_
    cases alone with
    | true => exact rules.settleAlone_counts s i e scope
    | false => exact rules.queue_counts s i e scope
  · rw [if_neg he]
    exact rules.settle_counts s i e scope _

/-! ### Chains -/

/-- A chain counts the events that it processes. -/
theorem followCourse_counts (rules : Rulebook) (i : Seat n) (depth : Nat) (a : Aftermath n) :
    Chance.Ensures (rules.followCourse i depth a) fun c => ∀ t, c.result = .ok t →
      a.session.Counts t (some i) (c.visits.map Visit.event) := by
  refine followCourse_ensures (P := fun _ a c => ∀ t, c.result = .ok t →
    a.session.Counts t (some i) (c.visits.map Visit.event)) ?_ ?_ ?_ ?_ ?_ depth a
  · rintro _ a t ⟨⟩
    exact .refl a.session _
  · rintro _ _ a e t ⟨⟩
  · rintro _ _ a e t ⟨⟩
    exact .refl a.session _
  · -- an event that is put off until after a pause is not counted yet
    rintro _ a e item _ _ t ⟨⟩
    exact .of_fired_eq fun _ => rfl
  · intro _ a e _ ih
    refine visit_ensures_of (rules.perform_counts a.session i e a.scope) (fun b hb => ?_) ?_
    · exact .mono (ih b) fun c hc t ht => hb.trans (hc t ht)
    · rintro f _ t ⟨⟩

end Rulebook

/-- If nobody acts, a course that ends well has processed and counted nothing.  Otherwise it
has first counted the events of a list for the character that acts, and has then gone on with
the chain that follows. -/
def Course.Opens (rules : Rulebook) (s : Session n) (actor : Option (Seat n))
    (events : List Event) (c : Course n) : Prop :=
  ∀ t, c.result = .ok t →
    match actor with
    | none => c.visits = [] ∧ s.Counts t none []
    | some i => ∃ a later, s.Counts a.session (some i) events ∧
        (rules.followCourse i 0 a).MayGive later ∧ later.result = .ok t ∧
        c.visits.map Visit.event = events ++ later.visits.map Visit.event

namespace Course.Opens

variable {rules : Rulebook} {s t : Session n} {actor : Option (Seat n)} {events : List Event}
  {c : Course n}

/-- What a course counts first and what the chain counts are the events that it processes. -/
theorem counts (h : c.Opens rules s actor events) (ht : c.result = .ok t) :
    s.Counts t actor (c.visits.map Visit.event) := by
  have hopens := h t ht
  cases actor with
  | none =>
    obtain ⟨hvisits, hcounts⟩ := hopens
    rw [hvisits]
    exact hcounts
  | some i =>
    obtain ⟨a, later, hfirst, hlater, hresult, hvisits⟩ := hopens
    rw [hvisits]
    exact hfirst.trans ((rules.followCourse_counts i 0 a).of_mayGive hlater t hresult)

/-- A course may begin after changes that leave the counts alone. -/
theorem of_fired_eq {s' : Session n} (h : c.Opens rules s' actor events)
    (hs : ∀ j, (s'.character j).fired = (s.character j).fired) :
    c.Opens rules s actor events := by
  intro t ht
  have hopens := h t ht
  cases actor with
  | none => exact ⟨hopens.1, .after hs hopens.2⟩
  | some i =>
    obtain ⟨a, later, hfirst, hrest⟩ := hopens
    exact ⟨a, later, .after hs hfirst, hrest⟩

end Course.Opens

namespace Rulebook

/-- What only counts nothing leaves the rest to the chain. -/
theorem followCourse_opens (rules : Rulebook) {s : Session n} {i : Seat n} {a : Aftermath n}
    (h : s.Counts a.session (some i) []) :
    Chance.Ensures (rules.followCourse i 0 a) (Course.Opens rules s (some i) []) := by
  refine .mono (.mayGive _) fun later hlater t ht => ?_
  exact ⟨a, later, h, hlater, ht, rfl⟩

theorem processCourse_opens (rules : Rulebook) (s : Session n) (i : Seat n) (e : Event)
    (scope : Scope) :
    Chance.Ensures (rules.processCourse s i e scope) (Course.Opens rules s (some i) [e]) := by
  refine visit_ensures_of (rules.perform_counts s i e scope) (fun a ha => ?_) ?_
  · refine .mono (.mayGive _) fun later hlater t ht => ?_
    exact ⟨a, later, ha, hlater, ht, rfl⟩
  · rintro f _ t ⟨⟩

theorem processForCourse_opens (rules : Rulebook) (s : Session n) (e : Event) (id : String)
    (scope : Scope) :
    Chance.Ensures (rules.processForCourse s e id scope)
      (Course.Opens rules s (s.seat? id) [e]) := by
  unfold processForCourse
  cases s.seat? id with
  | some i => exact rules.processCourse_opens s i e scope
  | none =>
    refine .pure ?_
    rintro t ⟨⟩
    exact ⟨rfl, .refl s none⟩

end Rulebook

/-- The events that are processed when an item of the queue is answered, before any chain: a
continuation was put off until then, any other event was processed when it was queued. -/
def Pending.postponed (item : Pending) : List Event :=
  if item.continuation then [item.event] else []

namespace Rulebook

theorem answerCourse_opens (rules : Rulebook) (s : Session n) (i : Seat n) (item : Pending)
    (index : Int) :
    Chance.Ensures (rules.answerCourse s i item index)
      (Course.Opens rules s (some i) item.postponed) := by
  unfold answerCourse Pending.postponed
  by_cases hitem : item.continuation
  · rw [if_pos hitem, if_pos hitem]
    exact rules.processCourse_opens s i _ _
  · rw [if_neg hitem, if_neg hitem]
    refine .bind (rules.settleOption_counts _ i _ _ _ _ fun _ => False) fun r hr => ?_
    cases r with
    | error f => exact hr.elim
    | ok a =>
      refine rules.followCourse_opens (.after (fun j => ?_) hr)
      rw [Session.character_note]

theorem resolveCourse_opens (rules : Rulebook) (s : Session n) (index : Int) :
    Chance.Ensures (rules.resolveCourse s index) fun c? => ∀ c ∈ c?, ∃ item ∈ s.front?,
      c.Opens rules s (s.seat? item.character) item.postponed := by
  unfold resolveCourse Session.front?
  cases s.pending with
  | nil => exact .pure (by simp)
  | cons item rest =>
    simp only
    by_cases hitem : accepts item index
    · rw [hitem]
      -- who is in which seat does not depend on the queue
      have hseat : Session.seat? { s with pending := rest } item.character =
          s.seat? item.character := rfl
      rw [hseat]
      cases hi : s.seat? item.character with
      | some i =>
        refine .map (.mono (rules.answerCourse_opens _ i item index) fun c hc => ?_)
        rintro _ ⟨⟩
        refine ⟨item, rfl, ?_⟩
        rw [hi]
        exact hc.of_fired_eq fun _ => rfl
      | none =>
        refine .pure ?_
        rintro _ ⟨⟩
        refine ⟨item, rfl, ?_⟩
        rw [hi]
        rintro t ⟨⟩
        exact ⟨rfl, .of_fired_eq fun _ => rfl⟩
    · rw [Bool.not_eq_true _ |>.mp hitem]
      exact .pure (by simp)

/-- The seat of the character for which a move processes events, if there is one.  From the
console it is the first seat with the id of the character that the command is for. -/
def actor? (rules : Rulebook) (s : Session n) : Move → Option (Seat n)
  | .advance => none
  | .trigger id _ => s.seat? id
  | .process _ id _ => s.seat? id
  | .resolve _ => s.front?.bind fun item => s.seat? item.character
  | .command _ id => (rules.commandSeat? s id).bind fun i => s.seat? (s.character i).id

theorem commandCourse_opens (rules : Rulebook) (s : Session n) (text id : String) :
    Chance.Ensures (rules.commandCourse s text id) fun c? => ∀ c ∈ c?,
      c.Opens rules s (rules.actor? s (.command text id)) [] := by
  unfold commandCourse
  cases hi : rules.commandSeat? s id with
  | none => exact .pure (by simp)
  | some i =>
    obtain ⟨j, hj⟩ := s.exists_seat? i
    have hactor : rules.actor? s (.command text id) = some j := by
      rw [actor?, hi, Option.bind_some, hj]
    rw [hactor]
    -- the chain goes on for the first character with that id
    refine .bind (execute_becomes _ i .empty _).2 fun p hp => .map ?_
    rw [hj, Option.getD_some]
    refine .mono (rules.followCourse_opens (s := s) (.of_fired_eq fun k => ?_)) fun c hc => ?_
    · rw [Session.character_note]
      exact hp.fired_eq k
    · rintro _ ⟨⟩
      exact hc

/-! ### Moves -/

/-- A move counts the events that it processes, for the character that acts. -/
theorem course_counts (rules : Rulebook) (s : Session n) (m : Move) :
    Chance.Ensures (rules.course s m) fun c? => ∀ c ∈ c?, ∀ t, c.result = .ok t →
      s.Counts t (rules.actor? s m) (c.visits.map Visit.event) := by
  cases m with
  | advance =>
    refine .pure fun c hc => ?_
    obtain ⟨t, ht, rfl⟩ := Option.map_eq_some_iff.mp hc
    rintro _ ⟨⟩
    refine .of_fired_eq fun j => ?_
    rw [Session.character, Session.character, cast_advance ht]
  | trigger id forced =>
    show Chance.Ensures (rules.triggerCourse s id forced) _
    have hactor : rules.actor? s (.trigger id forced) = s.seat? id := rfl
    unfold triggerCourse
    rw [hactor]
    cases s.seat? id with
    | none => exact .pure (by simp)
    | some i =>
      refine .bind_of_forall fun chosen => ?_
      cases chosen with
      | none => exact .pure (by simp)
      | some e =>
        refine .map (.mono (rules.processCourse_opens s i e .empty) fun c hc => ?_)
        rintro _ ⟨⟩ t ht
        exact hc.counts ht
  | process e id scope =>
    refine .map (.mono (rules.processForCourse_opens s e id scope) fun c hc => ?_)
    rintro _ ⟨⟩ t ht
    exact hc.counts ht
  | resolve index =>
    refine .mono (rules.resolveCourse_opens s index) fun c? hc? c hc t ht => ?_
    obtain ⟨item, hitem, hopens⟩ := hc? c hc
    have hactor : rules.actor? s (.resolve index) = s.seat? item.character := by
      rw [actor?, Option.mem_def.mp hitem, Option.bind_some]
    rw [hactor]
    exact hopens.counts ht
  | command text id =>
    refine .mono (rules.commandCourse_opens s text id) fun c? hc? c hc t ht => ?_
    exact (hc? c hc).counts ht

end Rulebook

/-- A move counts each event that it processes once, for the character that acts and nobody
else.  An event that is given to be processed is counted at once, whether it is settled, put
into the queue or its option chosen by the other self; answering the queue counts the front at
once if it is a continuation, and otherwise counts nothing; so does a command; and then the
chain that follows is counted.  In a chain, an event that is put off until after a pause is
queued as a continuation, and neither processed nor counted. -/
theorem processed_events_are_counted_once (rules : Rulebook) (s : Session n) :
    (∀ m, (rules.make s m).run = Course.answer <$> rules.course s m) ∧
    (∀ m, Chance.Ensures (rules.course s m) fun c? => ∀ c ∈ c?, ∀ t, c.result = .ok t →
      s.Counts t (rules.actor? s m) (c.visits.map Visit.event)) ∧
    (∀ e id scope, Chance.Ensures (rules.course s (.process e id scope)) fun c? =>
      ∃ c, c? = some c ∧ c.Opens rules s (s.seat? id) [e]) ∧
    (∀ index, Chance.Ensures (rules.course s (.resolve index)) fun c? => ∀ c ∈ c?,
      ∃ item ∈ s.front?, c.Opens rules s (s.seat? item.character) item.postponed) ∧
    (∀ text id, Chance.Ensures (rules.course s (.command text id)) fun c? => ∀ c ∈ c?,
      c.Opens rules s (rules.actor? s (.command text id)) []) ∧
    (∀ i depth (a : Aftermath n) e, rules.next? a = some e → ¬rules.isTooDeep depth →
      (a.pause && !e.isInteractive) = true →
        Chance.Ensures (rules.followCourse i depth a) fun c => c.visits = [] ∧
          ∃ item, Rulebook.Presents (a.session.character i).id e true item ∧
            c.result = .ok (a.session.push item)) := by
  refine ⟨rules.run_make s, rules.course_counts s, ?_, rules.resolveCourse_opens s,
    rules.commandCourse_opens s, ?_⟩
  · intro e id scope
    refine .map (.mono (rules.processForCourse_opens s e id scope) fun c hc => ?_)
    exact ⟨c, rfl, hc⟩
  · intro i depth a e hnext hdeep hpause
    rw [Rulebook.followCourse_of_pause hnext hdeep hpause]
    refine .bind (rules.pendingOf_presents a.session i e a.scope true) fun item hitem => ?_
    exact .pure ⟨rfl, item, hitem, rfl⟩

/-- The first event of a day. -/
def daybreak : Event :=
  { Event.plain "早" with action := "跳转 午" }

/-- Rules by which the day goes on until somebody asks for supper. -/
def dayRules : Rulebook :=
  ⟨⟨[{ Event.plain "午" with action := "跳转 晚" },
    { Event.plain "晚" with options := [⟨"开饭", "", ""⟩] }]⟩, .standard⟩

/-- A trainer and a companion early in the day. -/
def household : Session 2 :=
  { phase := .playing, turn := 1, maxTurns := 72,
    cast := #v[.plain "p1" "训练员" "丙", .plain "c1" "马娘" "丁"], log := [], pending := [] }

/-- The three events of a day are counted once each, for the companion alone; the last of them
waits by then, and is not counted again when it is answered. -/
theorem day_is_counted :
    ∃ c t c' u, ((dayRules.course household (.process daybreak "c1" .empty)).run
        (.fresh fun _ => 0)).1 = some c ∧ c.result = .ok t ∧
      c.visits.map (·.event.id) = ["早", "午", "晚"] ∧ t.pending.length = 1 ∧
      ["早", "午", "晚"].map (t.character 1).timesFired = [1, 1, 1] ∧
      (t.character 0).fired = (household.character 0).fired ∧
      ((dayRules.course t (.resolve 0)).run (.fresh fun _ => 0)).1 = some c' ∧
      c'.result = .ok u ∧ c'.visits = [] ∧ t.Counts u (some 1) [] := by
  have hrun : (((dayRules.course household (.process daybreak "c1" .empty)).run
      (.fresh fun _ => 0)).1.bind fun c => c.result.toOption.bind fun t =>
        ((dayRules.course t (.resolve 0)).run (.fresh fun _ => 0)).1.bind fun c' =>
          c'.result.toOption.map fun _ => (c.visits.map (·.event.id), t.pending.length,
            dayRules.actor? t (.resolve 0), c'.visits.length)) =
      some (["早", "午", "晚"], 1, some 1, 0) := by
    decide +kernel
  obtain ⟨c, hc, hrun⟩ := Option.bind_eq_some_iff.mp hrun
  obtain ⟨t, ht, hrun⟩ := Option.bind_eq_some_iff.mp hrun
  obtain ⟨c', hc', hrun⟩ := Option.bind_eq_some_iff.mp hrun
  obtain ⟨u, hu, hrun⟩ := Option.map_eq_some_iff.mp hrun
  simp only [Prod.mk.injEq, List.length_eq_zero_iff] at hrun
  obtain ⟨hevents, hpending, hactor, hvisits⟩ := hrun
  have hresult := Play.eq_ok_of_toOption ht
  have hresult' := Play.eq_ok_of_toOption hu
  obtain ⟨-, hcounts, -⟩ := processed_events_are_counted_once dayRules household
  have hday := hcounts _ _ c hc t hresult
  obtain ⟨-, hcounts, -⟩ := processed_events_are_counted_once dayRules t
  have hanswer := hcounts _ _ c' hc' u hresult'
  rw [hactor, hvisits, List.map_nil] at hanswer
  -- nothing had been counted before, so the counts are those of the ids
  have hown : ∀ id, (t.character 1).timesFired id = ["早", "午", "晚"].countP (· = id) := by
    intro id
    have hnone : (household.character 1).timesFired id = 0 := rfl
    rw [hday.own 1 (by decide), hnone, Int.zero_add, ← hevents, List.countP_map, List.countP_map]
    rfl
  refine ⟨c, t, c', u, hc, hresult, hevents, hpending, ?_, hday.others 0 (by decide), hc',
    hresult', hvisits, hanswer⟩
  rw [List.map_congr_left fun id _ => hown id]
  decide

end EventScript
