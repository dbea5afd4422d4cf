/-
The courses of moves: which events a move processes, and where it ends.

A `Course` records, beside the result of a move, the events that were processed, each with
the session that it met, and the event at which the chain was cut off, if it was.
`Rulebook.course` makes a move and records its course.

* `Rulebook.run_make` — the result of the course is the result of the move, with the same
  dice;
* `Rulebook.course_ensures` — what holds of every course, from what holds of the courses of
  events, of answers and of commands;
* `Rulebook.followCourse_evolves` — what the rest of a chain does to the session and to the
  queue;
* `Rulebook.make_changes` — what a move does to the characters.
-/
import EventScript.Proofs.Evolution
import EventScript.Proofs.Move

namespace EventScript

variable {n : Nat}

/-- An event that was processed, and the session that it met. -/
structure Visit (n : Nat) where
  event : Event
  found : Session n

/-- What happens in a move. -/
structure Course (n : Nat) where
  /-- The events that were processed, in order. -/
  visits : List (Visit n)
  /-- The event that would have been processed next in a chain that was too long. -/
  cut : Option Event
  result : Except Failure (Session n)

namespace Course

/-- The course that ends at once with a result. -/
def stop (r : Except Failure (Session n)) : Course n :=
  ⟨[], none, r⟩

/-- The course that ends at once because an event may not follow. -/
def cutOff (e : Event) (r : Except Failure (Session n)) : Course n :=
  ⟨[], some e, r⟩

/-- A course that a visit comes before. -/
def after (v : Visit n) (c : Course n) : Course n :=
  { c with visits := v :: c.visits }

/-- Carries on with what a part of a move leaves, or stops where it fails. -/
def resume {α : Type} (c : Play α) (rest : α → Chance (Course n)) : Chance (Course n) := do
  match ← c.run with
  | .ok a => rest a
  | .error f => pure (stop (.error f))

/-- The result of a move that may find nothing to do. -/
def answer : Option (Course n) → Except Failure (Option (Session n))
  | none => .ok none
  | some c => some <$> c.result

theorem answer_of_ok {c : Course n} {t : Session n} (h : c.result = .ok t) :
    answer (some c) = .ok (some t) := by
  show some <$> c.result = _
  rw [h]
  rfl

theorem answer_of_error {c : Course n} {f : Failure} (h : c.result = .error f) :
    answer (some c) = .error f := by
  show some <$> c.result = _
  rw [h]
  rfl

theorem result_of_answer_ok {c : Course n} {t : Session n}
    (h : answer (some c) = .ok (some t)) : c.result = .ok t := by
  cases hr : c.result with
  | ok u =>
    rw [answer_of_ok hr] at h
    cases h
    rfl
  | error f =>
    rw [answer_of_error hr] at h
    cases h

theorem result_of_answer_error {c : Course n} {f : Failure} (h : answer (some c) = .error f) :
    c.result = .error f := by
  cases hr : c.result with
  | ok t =>
    rw [answer_of_ok hr] at h
    cases h
  | error f' =>
    rw [answer_of_error hr] at h
    cases h
    rfl

end Course

namespace Rulebook

/-! ### Recording -/

/-- Records the processing of an event and of what comes after it. -/
def visit (rules : Rulebook) (s : Session n) (i : Seat n) (e : Event) (scope : Scope)
    (rest : Aftermath n → Chance (Course n)) : Chance (Course n) :=
  Course.after ⟨e, s⟩ <$> Course.resume (rules.perform s i e scope) rest

/-- Records how a chain is carried on. -/
def followCourse (rules : Rulebook) (i : Seat n) (depth : Nat) (a : Aftermath n) :
    Chance (Course n) :=
  match rules.next? a with
  | none => pure (.stop (.ok a.session))
  | some e =>
    if h : rules.isTooDeep depth then
      pure (.cutOff e
        (if rules.settings.strict then .error (.chainTooLong e.id (depth + 1))
          else .ok a.session))
    else if a.pause && !e.isInteractive then do
      let item ← rules.pendingOf a.session i e a.scope true
      pure (.stop (.ok (a.session.push item)))
    else rules.visit a.session i e a.scope fun b => followCourse rules i (depth + 1) b
  termination_by rules.settings.maxChainDepth.toNat - depth
  decreasing_by
    unfold isTooDeep at h
    omega

section Follow

variable {rules : Rulebook} {i : Seat n} {depth : Nat} {a : Aftermath n} {e : Event}

theorem followCourse_of_end (hnext : rules.next? a = none) :
    rules.followCourse i depth a = pure (.stop (.ok a.session)) := by
  rw [followCourse, hnext]

theorem followCourse_of_isTooDeep (hnext : rules.next? a = some e)
    (hdeep : rules.isTooDeep depth) :
    rules.followCourse i depth a = pure (.cutOff e
      (if rules.settings.strict then .error (.chainTooLong e.id (depth + 1))
        else .ok a.session)) := by
  rw [followCourse, hnext]
  simp only [hdeep, dif_pos]

theorem followCourse_of_pause (hnext : rules.next? a = some e) (hdeep : ¬rules.isTooDeep depth)
    (hpause : (a.pause && !e.isInteractive) = true) :
    rules.followCourse i depth a = (do
      let item ← rules.pendingOf a.session i e a.scope true
      pure (.stop (.ok (a.session.push item)))) := by
  rw [followCourse, hnext]
  simp only [hdeep, hpause, dif_neg, not_false_eq_true, if_true]

theorem followCourse_of_visit (hnext : rules.next? a = some e) (hdeep : ¬rules.isTooDeep depth)
    (hpause : ¬(a.pause && !e.isInteractive) = true) :
    rules.followCourse i depth a =
      rules.visit a.session i e a.scope (rules.followCourse i (depth + 1)) := by
  rw [followCourse, hnext]
  simp only [hdeep, hpause, dif_neg, not_false_eq_true]
  rfl

end Follow

/-- Records the processing of an event and the chain that follows it. -/
def processCourse (rules : Rulebook) (s : Session n) (i : Seat n) (e : Event) (scope : Scope) :
    Chance (Course n) :=
  rules.visit s i e scope (rules.followCourse i 0)

/-- Records an answer to an event that has left the queue. -/
def answerCourse (rules : Rulebook) (s : Session n) (i : Seat n) (item : Pending)
    (index : Int) : Chance (Course n) :=
  if item.continuation then rules.processCourse s i item.event item.scope
  else
    let s := s.note (s.character i).name item.text .event (!item.event.title.isEmpty) []
    Course.resume (rules.settleOption s i item.event index.toNat item.scope false)
      (rules.followCourse i 0)

/-- Records an answer to the front of the queue. -/
def resolveCourse (rules : Rulebook) (s : Session n) (index : Int) :
    Chance (Option (Course n)) :=
  match s.pending with
  | [] => pure none
  | item :: rest =>
    if !accepts item index then pure none
    else
      let s := { s with pending := rest }
      match s.seat? item.character with
      | some i => some <$> rules.answerCourse s i item index
      | none => pure (some (.stop (.ok s)))

/-- Records a command from the console. -/
def commandCourse (rules : Rulebook) (s : Session n) (text id : String) :
    Chance (Option (Course n)) :=
  match rules.commandSeat? s id with
  | none => pure none
  | some i => do
    let p ← execute (s.world rules.settings) i .empty text.toList
    let later := { s with cast := p.world.cast }
    let effects := rules.effectsSince s later i
    let later := later.note systemName ("执行指令：" ++ text) .system false effects
    let first := (s.seat? (s.character i).id).getD i
    some <$> rules.followCourse first 0 ⟨later, p.next, p.pause, p.scope⟩

/-- Records the action of a character. -/
def triggerCourse (rules : Rulebook) (s : Session n) (id : String) (forced : Option Event) :
    Chance (Option (Course n)) :=
  match s.seat? id with
  | none => pure none
  | some i => do
    match ← rules.eventFor s i forced with
    | some e => some <$> rules.processCourse s i e .empty
    | none => pure none

/-- Records the processing of an event for the character with an id. -/
def processForCourse (rules : Rulebook) (s : Session n) (e : Event) (id : String)
    (scope : Scope) : Chance (Course n) :=
  match s.seat? id with
  | some i => rules.processCourse s i e scope
  | none => pure (.stop (.ok s))

/-- Records a move. One that finds nothing to do has no course. -/
def course (rules : Rulebook) (s : Session n) : Move → Chance (Option (Course n))
  | .advance => pure ((advance rules.settings s).map fun t => .stop (.ok t))
  | .trigger id forced => rules.triggerCourse s id forced
  | .process e id scope => some <$> rules.processForCourse s e id scope
  | .resolve index => rules.resolveCourse s index
  | .command text id => rules.commandCourse s text id

/-! ### Courses and results -/

theorem result_resume {α : Type} {c : Play α} {f : α → Play (Session n)}
    {rest : α → Chance (Course n)} (h : ∀ a, (f a).run = Course.result <$> rest a) :
    (c >>= f).run = Course.result <$> Course.resume c rest := by
  unfold Course.resume
  rw [ExceptT.run_bind, map_bind]
  refine bind_congr fun r => ?_
  cases r with
  | ok a => exact h a
  | error e => rfl

theorem result_visit (rules : Rulebook) (s : Session n) (i : Seat n) (e : Event) (scope : Scope)
    {f : Aftermath n → Play (Session n)} {rest : Aftermath n → Chance (Course n)}
    (h : ∀ a, (f a).run = Course.result <$> rest a) :
    (rules.perform s i e scope >>= f).run = Course.result <$> rules.visit s i e scope rest := by
  rw [result_resume h]
  rfl

theorem run_follow (rules : Rulebook) (i : Seat n) (depth : Nat) (a : Aftermath n) :
    (rules.follow i depth a).run = Course.result <$> rules.followCourse i depth a := by
  induction depth, a using follow.induct rules with
  | case1 depth a hnext =>
    rw [followCourse_of_end hnext, follow_of_end hnext]
    rfl
  | case2 depth a e hnext hdeep hstrict =>
    rw [followCourse_of_isTooDeep hnext hdeep, follow_of_isTooDeep hnext hdeep, if_pos hstrict,
      if_pos hstrict]
    rfl
  | case3 depth a e hnext hdeep hstrict =>
    rw [followCourse_of_isTooDeep hnext hdeep, follow_of_isTooDeep hnext hdeep, if_neg hstrict,
      if_neg hstrict]
    rfl
  | case4 depth a e hnext hdeep hpause =>
    rw [followCourse_of_pause hnext hdeep hpause, follow_of_pause hnext hdeep hpause]
    rfl
  | case5 depth a e hnext hdeep hpause ih =>
    rw [followCourse_of_visit hnext hdeep hpause, follow_of_visit hnext hdeep hpause]
    exact rules.result_visit _ i e _ ih

theorem run_process (rules : Rulebook) (s : Session n) (i : Seat n) (e : Event)
    (scope : Scope) :
    (rules.process s i e scope).run = Course.result <$> rules.processCourse s i e scope :=
  rules.result_visit s i e scope fun a => rules.run_follow i 0 a

theorem run_answer (rules : Rulebook) (s : Session n) (i : Seat n) (item : Pending)
    (index : Int) :
    (rules.answer s i item index).run = Course.result <$> rules.answerCourse s i item index := by
  unfold answer answerCourse
  split
  · exact rules.run_process s i _ _
  · exact result_resume fun a => rules.run_follow i 0 a

/-- A course that some move has for certain. -/
theorem answer_some {c : Play (Session n)} {d : Chance (Course n)}
    (h : c.run = Course.result <$> d) :
    (some <$> c).run = Course.answer <$> some <$> d := by
  rw [ExceptT.run_map, h]
  rfl

/-- What follows a roll of the dice has to have a course. -/
theorem answer_bind {α : Type} {c : Chance α} {f : α → Play (Option (Session n))}
    {g : α → Chance (Option (Course n))} (h : ∀ a, (f a).run = Course.answer <$> g a) :
    (Play.chance c >>= f).run = Course.answer <$> (c >>= g) := by
  rw [map_bind]
  exact bind_congr h

theorem run_trigger (rules : Rulebook) (s : Session n) (id : String) (forced : Option Event) :
    (rules.trigger s id forced).run = Course.answer <$> rules.triggerCourse s id forced := by
  unfold trigger triggerCourse
  cases s.seat? id with
  | none => rfl
  | some i =>
    refine answer_bind fun chosen => ?_
    cases chosen with
    | some e => exact answer_some (rules.run_process s i e .empty)
    | none => rfl

theorem run_processFor (rules : Rulebook) (s : Session n) (e : Event) (id : String)
    (scope : Scope) :
    (rules.processFor s e id scope).run =
      Course.result <$> rules.processForCourse s e id scope := by
  unfold processFor processForCourse
  cases s.seat? id with
  | some i => exact rules.run_process s i e scope
  | none => rfl

theorem run_resolve (rules : Rulebook) (s : Session n) (index : Int) :
    (rules.resolve s index).run = Course.answer <$> rules.resolveCourse s index := by
  unfold resolve resolveCourse
  cases s.pending with
  | nil => rfl
  | cons item rest =>
    -- both sides ask the same question about the item
    show (if _ then _ else _ : Play (Option (Session n))).run = Course.answer <$> if _ then _ else _
    split
    · rfl
    · simp only
      cases Session.seat? { s with pending := rest } item.character with
      | some i => exact answer_some (rules.run_answer _ i item index)
      | none => rfl

theorem run_command (rules : Rulebook) (s : Session n) (text id : String) :
    (rules.command s text id).run = Course.answer <$> rules.commandCourse s text id := by
  unfold command commandCourse
  cases rules.commandSeat? s id with
  | none => rfl
  | some i => exact answer_bind fun p => answer_some (rules.run_follow _ 0 _)

/-- The result of a move is the result of its course, and the dice are the same. -/
theorem run_make (rules : Rulebook) (s : Session n) (m : Move) :
    (rules.make s m).run = Course.answer <$> rules.course s m := by
  cases m with
  | advance =>
    unfold make course
    cases advance rules.settings s <;> rfl
  | trigger id forced => exact rules.run_trigger s id forced
  | process e id scope => exact answer_some (rules.run_processFor s e id scope)
  | resolve index => exact rules.run_resolve s index
  | command text id => exact rules.run_command s text id

/-- What every course of a move comes to, its result comes to. -/
theorem make_ensures (rules : Rulebook) {s : Session n} {m : Move}
    {post : Option (Session n) → Prop} {fault : Failure → Prop}
    (h : Chance.Ensures (rules.course s m) fun c? =>
      Play.Outcome post fault (Course.answer c?)) :
    Play.Ensures (rules.make s m) post fault := by
  unfold Play.Ensures
  rw [run_make]
  exact .map h

/-! ### Laws of courses -/

/-- What is true of a course after the processing of its first event, from what is known of
that. -/
theorem visit_ensures_of {rules : Rulebook} {s : Session n} {i : Seat n} {e : Event}
    {scope : Scope} {rest : Aftermath n → Chance (Course n)} {P : Course n → Prop}
    {mid : Aftermath n → Prop} {fault : Failure → Prop}
    (hperform : Play.Ensures (rules.perform s i e scope) mid fault)
    (hok : ∀ a, mid a → Chance.Ensures (rest a) fun c => P (c.after ⟨e, s⟩))
    (herror : ∀ f, fault f → P (.after ⟨e, s⟩ (.stop (.error f)))) :
    Chance.Ensures (rules.visit s i e scope rest) P := by
  refine .map (.bind hperform fun r hr => ?_)
  cases r with
  | ok a => exact hok a hr
  | error f => exact .pure (herror f hr)

/-- What is true of a course after the processing of its first event, however that ends. -/
theorem visit_ensures {rules : Rulebook} {s : Session n} {i : Seat n} {e : Event}
    {scope : Scope} {rest : Aftermath n → Chance (Course n)} {P : Course n → Prop}
    (hok : ∀ a, Settles s i e a → Chance.Ensures (rest a) fun c => P (c.after ⟨e, s⟩))
    (herror : ∀ f, rules.CannotForget (s.character i).name f →
      P (.after ⟨e, s⟩ (.stop (.error f)))) :
    Chance.Ensures (rules.visit s i e scope rest) P :=
  visit_ensures_of (rules.perform_evolves s i e scope) hok herror

/-- What is true of a chain wherever it may end, and before each of its events, is true of
it. -/
theorem followCourse_ensures {rules : Rulebook} {i : Seat n}
    {P : Nat → Aftermath n → Course n → Prop}
    (hend : ∀ depth a, P depth a (.stop (.ok a.session)))
    (hraise : rules.settings.strict = true → ∀ depth a e,
      P depth a (.cutOff e (.error (.chainTooLong e.id (depth + 1)))))
    (htruncate : rules.settings.strict = false → ∀ depth a e,
      P depth a (.cutOff e (.ok a.session)))
    (hpause : ∀ depth a e item, e.isInteractive = false →
      Presents (a.session.character i).id e true item →
        P depth a (.stop (.ok (a.session.push item))))
    (hvisit : ∀ depth a e, ¬rules.isTooDeep depth →
      (∀ b, Chance.Ensures (rules.followCourse i (depth + 1) b) (P (depth + 1) b)) →
        Chance.Ensures (rules.visit a.session i e a.scope (rules.followCourse i (depth + 1)))
          (P depth a))
    (depth : Nat) (a : Aftermath n) :
    Chance.Ensures (rules.followCourse i depth a) (P depth a) := by
  induction depth, a using follow.induct rules with
  | case1 depth a hnext =>
    rw [followCourse_of_end hnext]
    exact .pure (hend depth a)
  | case2 depth a e hnext hdeep hstrict =>
    rw [followCourse_of_isTooDeep hnext hdeep, if_pos hstrict]
    exact .pure (hraise hstrict depth a e)
  | case3 depth a e hnext hdeep hstrict =>
    rw [followCourse_of_isTooDeep hnext hdeep, if_neg hstrict]
    exact .pure (htruncate (Bool.eq_false_iff.mpr hstrict) depth a e)
  | case4 depth a e hnext hdeep hp =>
    rw [followCourse_of_pause hnext hdeep hp]
    have he : e.isInteractive = false := by
      simpa using (Bool.and_eq_true_iff.mp hp).2
    -- the event that waits after a pause is not an interactive one
    refine .bind (rules.pendingOf_presents a.session i e a.scope true) fun item hitem => ?_
    exact .pure (hpause depth a e item he hitem)
  | case5 depth a e hnext hdeep hp ih =>
    rw [followCourse_of_visit hnext hdeep hp]
    exact hvisit depth a e hdeep ih

theorem answerCourse_ensures {rules : Rulebook} {s : Session n} {i : Seat n} {item : Pending}
    {index : Int} {P : Course n → Prop}
    (hprocess : item.continuation = true → ∀ e scope,
      Chance.Ensures (rules.processCourse s i e scope) P)
    (hfollow : item.continuation = false → ∀ a : Aftermath n, Spares s a →
      Chance.Ensures (rules.followCourse i 0 a) P) :
    Chance.Ensures (rules.answerCourse s i item index) P := by
  unfold answerCourse
  split
  · rename_i hitem
    exact hprocess hitem _ _
  · rename_i hitem
    -- an option never fails
    refine .bind (rules.settleOption_evolves _ i _ _ _ _ fun _ => False) fun r hr => ?_
    cases r with
    | error f => exact hr.elim
    | ok a =>
      have ha : Spares s a := .after (.note ..) (Session.pending_note ..) hr
      exact hfollow (Bool.eq_false_iff.mpr hitem) a ha

end Rulebook

/-! ### Characters and the queue -/

namespace Session

theorem id_of_seat? {s : Session n} {id : String} {i : Seat n} (h : s.seat? id = some i) :
    (s.character i).id = id :=
  eq_of_beq (List.find?_some h :)

/-- The first seat with the id of a character. -/
theorem exists_seat? (s : Session n) (i : Seat n) : ∃ j, s.seat? (s.character i).id = some j := by
  refine Option.isSome_iff_exists.mp (List.find?_isSome.mpr ⟨i, List.mem_finRange i, ?_⟩)
  exact beq_self_eq_true _

/-- The queue is as it was, or there is an event in front of it, which belongs to the
character with an id, and which is a continuation exactly if it has no options. -/
def Stacks (s t : Session n) (id : String) : Prop :=
  t.pending = s.pending ∨ ∃ item : Pending, item.character = id ∧
    item.continuation = !item.event.isInteractive ∧ t.pending = item :: s.pending

end Session

/-- What a course for the character in a seat comes to. No event is processed after one
was put in front of the queue. -/
structure Course.Evolves (rules : Rulebook) (s : Session n) (i : Seat n) (c : Course n) :
    Prop where
  visits : ∀ v ∈ c.visits, v.found.pending = s.pending
  result : Play.Outcome (fun t => s.Becomes t ∧ s.Stacks t (s.character i).id)
    (fun f => rules.CannotForget (s.character i).name f ∨
      rules.settings.strict = true ∧ ∃ event depth, f = .chainTooLong event depth) c.result

namespace Course.Evolves

variable {rules : Rulebook} {s t : Session n} {i : Seat n} {c : Course n}

theorem stop (h : s.Becomes t) (hs : s.Stacks t (s.character i).id) :
    Evolves rules s i (.stop (.ok t)) :=
  ⟨by simp [Course.stop], h, hs⟩

/-- A course may begin after changes that leave the queue alone. -/
theorem of_becomes (h : s.Becomes t) (hq : t.pending = s.pending) (hc : Evolves rules t i c) :
    Evolves rules s i c := by
  refine ⟨fun v hv => (hc.visits v hv).trans hq, ?_⟩
  have hresult := hc.result
  -- what is said about the result only reads the queue and who the character is
  unfold Session.Stacks at hresult ⊢
  rw [h.id_eq, h.name_eq, hq] at hresult
  cases hr : c.result with
  | ok u =>
    rw [hr] at hresult
    exact ⟨h.trans hresult.1, hresult.2⟩
  | error f =>
    rw [hr] at hresult
    exact hresult

end Course.Evolves

namespace Rulebook

theorem visit_evolves (rules : Rulebook) (s : Session n) (i : Seat n) (e : Event)
    (scope : Scope) {rest : Aftermath n → Chance (Course n)}
    (hstop : ∀ a, rules.next? a = none → rest a = pure (.stop (.ok a.session)))
    (hrest : ∀ a, Chance.Ensures (rest a) (Course.Evolves rules a.session i)) :
    Chance.Ensures (rules.visit s i e scope rest) (Course.Evolves rules s i) := by
  have hafter : ∀ c, Course.Evolves rules s i c → Course.Evolves rules s i (.after ⟨e, s⟩ c) :=
    fun c hc => ⟨List.forall_mem_cons.mpr ⟨rfl, hc.visits⟩, hc.result⟩
  refine visit_ensures (fun a ha => ?_) fun f hf => hafter _ ⟨by simp [Course.stop], .inl hf⟩
  rcases ha.queue with hq | ⟨he, hnext, item, hitem, hq⟩
  · exact .mono (hrest a) fun c hc => hafter c (.of_becomes ha.becomes hq hc)
  · -- the event is in front of the queue, and nothing follows it
    rw [hstop a (next?_eq_none hnext)]
    refine .pure (hafter _ (.stop ha.becomes (.inr ⟨item, hitem.character_eq, ?_, hq⟩)))
    rw [hitem.continuation_eq, hitem.event_eq, he]
    rfl

theorem followCourse_evolves (rules : Rulebook) (i : Seat n) (depth : Nat) (a : Aftermath n) :
    Chance.Ensures (rules.followCourse i depth a) (Course.Evolves rules a.session i) := by
  refine followCourse_ensures (P := fun _ a => Course.Evolves rules a.session i) ?_ ?_ ?_ ?_ ?_
    depth a
  · exact fun _ a => .stop (.refl _) (.inl rfl)
  · exact fun hstrict _ a e => ⟨by simp [Course.cutOff], .inr ⟨hstrict, _, _, rfl⟩⟩
  · exact fun _ _ a e => ⟨by simp [Course.cutOff], .refl _, .inl rfl⟩
  · intro _ a e item he hitem
    refine .stop (.push _ item) (.inr ⟨item, hitem.character_eq, ?_, rfl⟩)
    rw [hitem.continuation_eq, hitem.event_eq, he]
    rfl
  · exact fun _ a e _ ih => rules.visit_evolves _ i e _ (fun _ => followCourse_of_end) ih

theorem processCourse_evolves (rules : Rulebook) (s : Session n) (i : Seat n) (e : Event)
    (scope : Scope) :
    Chance.Ensures (rules.processCourse s i e scope) (Course.Evolves rules s i) :=
  rules.visit_evolves s i e scope (fun _ => followCourse_of_end) (rules.followCourse_evolves i 0)

theorem answerCourse_evolves (rules : Rulebook) (s : Session n) (i : Seat n) (item : Pending)
    (index : Int) :
    Chance.Ensures (rules.answerCourse s i item index) (Course.Evolves rules s i) :=
  answerCourse_ensures (fun _ e scope => rules.processCourse_evolves s i e scope)
    fun _ a ha => .mono (rules.followCourse_evolves i 0 a) fun _ hc =>
      .of_becomes ha.becomes ha.pending_eq hc

/-! ### Moves -/

theorem commandCourse_evolves (rules : Rulebook) (s : Session n) (text id : String) :
    Chance.Ensures (rules.commandCourse s text id) fun c? => ∀ c ∈ c?, ∃ i j,
      rules.commandSeat? s id = some i ∧ s.seat? (s.character i).id = some j ∧
        Course.Evolves rules s j c := by
  unfold commandCourse
  cases hseat : rules.commandSeat? s id with
  | none => exact .pure (by simp)
  | some i =>
    obtain ⟨j, hj⟩ := s.exists_seat? i
    refine .bind (execute_becomes _ i .empty _).2 fun p hp => .map ?_
    rw [hj, Option.getD_some]
    refine .mono (rules.followCourse_evolves j 0 _) fun c hc => ?_
    rintro _ ⟨⟩
    refine ⟨i, j, rfl, hj, .of_becomes ?_ ?_ hc⟩
    · exact Session.Becomes.trans (.cast hp) (.note ..)
    · exact Session.pending_note ..

end Rulebook

/-- Does a move begin with the processing of an event, rather than with an option or a
command? -/
def Session.begins (s : Session n) : Move → Bool
  | .advance => false
  | .trigger .. => true
  | .process .. => true
  | .resolve _ => s.front?.any Pending.continuation
  | .command .. => false

namespace Rulebook

/-- What is true of every course that can be part of a move is true of the course of the
move. -/
theorem course_ensures {rules : Rulebook} {s : Session n} {m : Move} {P : Course n → Prop}
    (hadvance : ∀ t, advance rules.settings s = some t → P (.stop (.ok t)))
    (hstop : ∀ t, s.Becomes t → P (.stop (.ok t)))
    (hprocess : s.begins m = true → ∀ t i e scope, s.Becomes t →
      Chance.Ensures (rules.processCourse t i e scope) P)
    (hfollow : s.begins m = false → ∀ i (a : Aftermath n), s.Becomes a.session →
      Chance.Ensures (rules.followCourse i 0 a) P) :
    Chance.Ensures (rules.course s m) fun c? => ∀ c ∈ c?, P c := by
  have certain : ∀ {c : Chance (Course n)}, Chance.Ensures c P →
      Chance.Ensures (some <$> c) fun c? => ∀ c ∈ c?, P c := by
    refine fun hc => .map (.mono hc fun c hP => ?_)
    rintro _ ⟨⟩
    exact hP
  cases m with
  | advance =>
    refine .pure fun c hc => ?_
    obtain ⟨t, ht, rfl⟩ := Option.map_eq_some_iff.mp hc
    exact hadvance t ht
  | trigger id forced =>
    show Chance.Ensures (rules.triggerCourse s id forced) _
    unfold triggerCourse
    cases s.seat? id with
    | none => exact .pure (by simp)
    | some i =>
      refine .bind_of_forall fun chosen => ?_
      cases chosen with
      | some e => exact certain (hprocess rfl s i e .empty (.refl s))
      | none => exact .pure (by simp)
  | process e id scope =>
    refine certain ?_
    unfold processForCourse
    cases s.seat? id with
    | some i => exact hprocess rfl s i e scope (.refl s)
    | none => exact .pure (hstop s (.refl s))
  | resolve index =>
    show Chance.Ensures (rules.resolveCourse s index) _
    unfold resolveCourse
    split
    · exact .pure (by simp)
    · rename_i item rest hpending
      have hbegins : s.begins (.resolve index) = item.continuation := by
        unfold Session.begins Session.front?
        rw [hpending]
        rfl
      -- the item leaves the queue before anything else happens
      have hs : s.Becomes { s with pending := rest } :=
        ⟨rfl, rfl, .inl rfl, List.prefix_rfl, fun _ => .refl⟩
      split
      · exact .pure (by simp)
      · simp only
        split
        · refine certain (answerCourse_ensures (fun h e scope => ?_) fun h a ha => ?_)
          · exact hprocess (hbegins.trans h) _ _ e scope hs
          · exact hfollow (hbegins.trans h) _ a (hs.trans ha.becomes)
        · refine .pure ?_
          rintro _ ⟨⟩
          exact hstop _ hs
  | command text id =>
    show Chance.Ensures (rules.commandCourse s text id) _
    unfold commandCourse
    cases rules.commandSeat? s id with
    | none => exact .pure (by simp)
    | some i =>
      refine .bind (execute_becomes _ i .empty _).2 fun p hp => certain ?_
      exact hfollow rfl _ _ (.trans (.cast hp) (.note ..))

theorem cast_advance {settings : Settings} {s t : Session n} (h : advance settings s = some t) :
    t.cast = s.cast := by
  unfold advance at h
  split at h
  · simp at h
  · simp only at h
    split at h
    · cases h
      rfl
    · cases h
      unfold Session.note
      simp only
      split <;> rfl

/-- Whatever a course ends with has come out of the session it began with. -/
theorem becomes_of_evolves {rules : Rulebook} {s t u : Session n} {i : Seat n} {c : Course n}
    (hc : Course.Evolves rules s i c) (ht : c.result = .ok t) (h : u.Becomes s) :
    u.Becomes t := by
  have hresult := hc.result
  rw [ht] at hresult
  exact h.trans hresult.1

/-- A move changes characters only as moves do. -/
theorem make_changes (rules : Rulebook) (s : Session n) (m : Move) :
    Play.Ensures (rules.make s m) (fun t? => ∀ t ∈ t?, ∀ i,
      Relation.ReflTransGen (Character.Change s.turn) (s.character i) (t.character i))
      fun _ => True := by
  have hcourse : Chance.Ensures (rules.course s m) fun c? => ∀ c ∈ c?, ∀ t, c.result = .ok t →
      ∀ i, Relation.ReflTransGen (Character.Change s.turn) (s.character i) (t.character i) := by
    refine course_ensures ?_ ?_ ?_ ?_
    · -- a new turn leaves the cast alone
      rintro t ht _ ⟨⟩ i
      have hsame : t.character i = s.character i := congrArg (·.get i) (cast_advance ht)
      rw [hsame]
    · rintro t ht _ ⟨⟩ i
      exact ht.changes i
    · exact fun _ t i e scope h => .mono (rules.processCourse_evolves t i e scope)
        fun c hc u hu => (becomes_of_evolves hc hu h).changes
    · exact fun _ i a h => .mono (rules.followCourse_evolves i 0 a)
        fun c hc u hu => (becomes_of_evolves hc hu h).changes
  refine rules.make_ensures (.mono hcourse fun c? hc? => ?_)
  cases c? with
  | none => exact fun t ht => nomatch ht
  | some c =>
    cases hr : c.result with
    | error f =>
      rw [Course.answer_of_error hr]
      trivial
    | ok t =>
      rw [Course.answer_of_ok hr]
      rintro _ ⟨⟩
      exact hc? c rfl t hr

end Rulebook

end EventScript
