/-
The queue of waiting events is a stack.

In an orderly session every waiting event belongs to somebody, and is a continuation exactly
if it has no options.  A move puts at most one event in front of the queue, and answering
the queue takes its front away first:

* `Session.IsOrderly.stacks` — orderly sessions stay orderly;
* `Rulebook.resolve_stacks` — an answer that is accepted and gives a session has taken the front
  away;
* `Rulebook.resolve_failsOn` — the first answer gives none where a split personality forgets, if
  the text about it cannot be filled;
* `queue_is_an_orderly_stack` — what processing, answering and commands do to the queue.
-/
import EventScript.Proofs.Course

namespace EventScript

variable {n : Nat}

/-! ### Orderly sessions -/

namespace Session

/-- Every waiting event belongs to a character of the cast, and is a continuation exactly if
it has no options. -/
structure IsOrderly (s : Session n) : Prop where
  kinds : ∀ item ∈ s.pending, item.continuation = !item.event.isInteractive
  owners : ∀ item ∈ s.pending, ∃ i, s.seat? item.character = some i

theorem IsOrderly.rest {s : Session n} {item : Pending} {rest : List Pending} (h : s.IsOrderly)
    (hs : s.pending = item :: rest) : IsOrderly { s with pending := rest } :=
  ⟨fun x hx => h.kinds x (hs ▸ List.mem_cons_of_mem _ hx),
    fun x hx => h.owners x (hs ▸ List.mem_cons_of_mem _ hx)⟩

/-- What moves do to the queue keeps a session orderly. -/
theorem IsOrderly.stacks {s t : Session n} {i : Seat n} (h : s.IsOrderly) (ht : s.Becomes t)
    (hq : s.Stacks t (s.character i).id) : t.IsOrderly := by
  have howner : ∀ id, (∃ j, s.seat? id = some j) → ∃ j, t.seat? id = some j := by
    intro id hid
    rw [ht.seat?_eq]
    exact hid
  rcases hq with hq | ⟨item, hid, hkind, hq⟩
  · refine ⟨fun x hx => h.kinds x (hq ▸ hx), fun x hx => howner _ (h.owners x (hq ▸ hx))⟩
  · constructor
    · rw [hq]
      exact List.forall_mem_cons.mpr ⟨hkind, h.kinds⟩
    · -- the new item belongs to the character in the seat that acts
      rw [hq]
      refine List.forall_mem_cons.mpr ⟨howner _ ?_, fun x hx => howner _ (h.owners x hx)⟩
      rw [hid]
      exact s.exists_seat? i

end Session

/-! ### Calls -/

/-- A failure that a call for the character with an id may end in. -/
def Rulebook.MayFail (rules : Rulebook) (s : Session n) (id : String) (f : Failure) : Prop :=
  (∃ i, s.seat? id = some i ∧ rules.CannotForget (s.character i).name f) ∨
    rules.settings.strict = true ∧ ∃ event depth, f = .chainTooLong event depth

/-- What the course of a call for the character with an id does to the queue. All events are
processed before anything is put in front of it. -/
structure Course.Serves (s : Session n) (id : String) (c : Course n) : Prop where
  visits : ∀ v ∈ c.visits, v.found.pending = s.pending
  result : ∀ t, c.result = .ok t → s.Stacks t id ∧ t.IsOrderly

theorem Course.Evolves.serves {rules : Rulebook} {s : Session n} {i : Seat n} {c : Course n}
    {id : String} (hs : s.IsOrderly) (hi : s.seat? id = some i) (hc : Evolves rules s i c) :
    Serves s id c := by
  refine ⟨hc.visits, fun t hr => ?_⟩
  have hresult := hc.result
  rw [hr] at hresult
  obtain ⟨ht, hq⟩ := hresult
  exact ⟨Session.id_of_seat? hi ▸ hq, hs.stacks ht hq⟩

namespace Rulebook

theorem processForCourse_serves (rules : Rulebook) {s : Session n} (hs : s.IsOrderly) (e : Event)
    (id : String) (scope : Scope) :
    Chance.Ensures (rules.processForCourse s e id scope) (Course.Serves s id) := by
  unfold processForCourse
  cases hi : s.seat? id with
  | some i => exact .mono (rules.processCourse_evolves s i e scope) fun c hc => hc.serves hs hi
  | none => exact .pure ⟨by simp [Course.stop], by rintro _ ⟨⟩; exact ⟨.inl rfl, hs⟩⟩

/-- What an answer to the queue comes to: nothing, if there is no front to answer or it does
not take the answer, and a call for its owner on what is left of the queue otherwise. -/
def Answers (s : Session n) (index : Int) (c? : Option (Course n)) : Prop :=
  match s.pending with
  | [] => c? = none
  | item :: rest =>
    if accepts item index then
      ∃ c, c? = some c ∧ Course.Serves { s with pending := rest } item.character c
    else c? = none

/-- The course of an answer that is accepted is one for the owner of the front. -/
theorem resolveCourse_evolves (rules : Rulebook) {s : Session n} (hs : s.IsOrderly)
    {item : Pending} {rest : List Pending} (hq : s.pending = item :: rest) {index : Int}
    (hindex : accepts item index = true) :
    Chance.Ensures (rules.resolveCourse s index) fun c? => ∃ i c,
      Session.seat? { s with pending := rest } item.character = some i ∧ c? = some c ∧
        Course.Evolves rules { s with pending := rest } i c := by
  obtain ⟨i, hi⟩ := hs.owners item (hq ▸ List.mem_cons_self ..)
  have hi' : Session.seat? { s with pending := rest } item.character = some i := hi
  unfold resolveCourse
  rw [hq]
  simp only [hindex, Bool.not_true, Bool.false_eq_true, if_false, hi']
  exact .map (.mono (rules.answerCourse_evolves _ i item index) fun c hc => ⟨i, c, rfl, rfl, hc⟩)

theorem resolveCourse_answers (rules : Rulebook) {s : Session n} (hs : s.IsOrderly)
    (index : Int) : Chance.Ensures (rules.resolveCourse s index) (Answers s index) := by
  unfold Answers
  cases hq : s.pending with
  | nil =>
    unfold resolveCourse
    rw [hq]
    exact .pure rfl
  | cons item rest =>
    cases hitem : accepts item index with
    | false =>
      unfold resolveCourse
      rw [hq]
      simp only [hitem, Bool.not_false, if_true]
      exact .pure rfl
    | true =>
      refine .mono (rules.resolveCourse_evolves hs hq hitem) fun c? hc? => ?_
      obtain ⟨i, c, hi, rfl, hc⟩ := hc?
      simp only [hitem, if_true]
      exact ⟨c, rfl, hc.serves (hs.rest hq) hi⟩

/-- The front of the queue of an orderly session takes the first answer. -/
theorem accepts_zero {item : Pending} (h : item.continuation = !item.event.isInteractive) :
    accepts item 0 = true := by
  unfold accepts
  cases hitem : item.continuation with
  | true => rfl
  | false =>
    have hoptions : item.event.options ≠ [] := by
      rw [hitem] at h
      simpa [Event.isInteractive] using h
    have hlength := List.length_pos_iff.mpr hoptions
    simpa using hlength

/-- An answer that is accepted takes the front away, or fails for a reason that is known. -/
theorem resolve_stacks (rules : Rulebook) {s : Session n} (hs : s.IsOrderly) {item : Pending}
    {rest : List Pending} (hq : s.pending = item :: rest) {index : Int}
    (hindex : accepts item index = true) :
    Play.Ensures (rules.make s (.resolve index))
      (fun t? => ∃ t, t? = some t ∧ Session.Stacks { s with pending := rest } t item.character)
      (rules.MayFail { s with pending := rest } item.character) := by
  refine rules.make_ensures (.mono (rules.resolveCourse_evolves hs hq hindex) fun c? hc? => ?_)
  obtain ⟨i, c, hi, rfl, hc⟩ := hc?
  have hresult := hc.result
  cases hr : c.result with
  | ok t =>
    rw [hr] at hresult
    rw [Course.answer_of_ok hr]
    exact ⟨t, rfl, Session.id_of_seat? hi ▸ hresult.2⟩
  | error f =>
    rw [hr] at hresult
    rw [Course.answer_of_error hr]
    exact hresult.imp_left fun hf => ⟨i, hi, hf⟩

/-! ### Lost memories -/

theorem befalls_yieldsOn {chance x : Float} (hx : x < chance) :
    Chance.YieldsOn x (befalls true chance) (· = true) := by
  refine ⟨.bind .rollUnit fun _ => .pure _, fun d hd => ?_⟩
  show decide (d.units d.rolls.size < chance) = true
  rw [hd]
  exact decide_eq_true hx

variable {rules : Rulebook} {x : Float} {f : Failure}

theorem settle_failsOn {s : Session n} {i : Seat n} (e : Event) (scope : Scope)
    (hx : x < rules.settings.splitForgetChance)
    (hf : rules.CannotForget (s.character i).name f) :
    Play.FailsOn x (rules.settle s i e scope true) f := by
  refine .chance_bind ((execute_becomes _ i scope _).on _) fun pre hpre => ?_
  refine .chance_bind ((runActions_becomes pre.world i pre.scope e _ _).on _) fun p hp => ?_
  have hname := (rules.becomes_absorb i e (hpre.trans hp)).name_eq i
  refine .chance_bind ⟨.map _ (advances_renderPassage _), fun _ _ => trivial⟩
    fun text (_ : True) => ?_
  refine .chance_bind (befalls_yieldsOn hx) fun forgotten hforgotten => ?_
  -- the event is forgotten, and what is said instead cannot be filled
  refine .bind (.ofExcept ?_) _
  rw [hforgotten]
  show rules.memoryLost _ = _
  unfold memoryLost
  rw [hname]
  exact hf

/-- The front of the queue is a continuation for a split personality in a seat. -/
def SplitWaits (rules : Rulebook) (s : Session n) (i : Seat n) : Prop :=
  ∃ item ∈ s.front?, item.continuation = true ∧ s.seat? item.character = some i ∧
    (s.character i).hasTag rules.settings.splitTag = true

theorem resolve_failsOn {s : Session n} (hs : s.IsOrderly) {i : Seat n}
    (hwaits : rules.SplitWaits s i) (hx : x < rules.settings.splitForgetChance)
    (hf : rules.CannotForget (s.character i).name f) :
    Play.FailsOn x (rules.make s (.resolve 0)) f := by
  obtain ⟨item, hfront, hcontinuation, hi, hsplit⟩ := hwaits
  obtain ⟨rest, hq⟩ := List.head?_eq_some_iff.mp hfront
  -- a continuation has no options, so the event is settled at once
  have hkind := hs.kinds item (hq ▸ List.mem_cons_self ..)
  have hevent : item.event.isInteractive = false := by
    rw [hcontinuation] at hkind
    simpa using hkind
  have hi' : Session.seat? { s with pending := rest } item.character = some i := hi
  show Play.FailsOn x (rules.resolve s 0) f
  unfold resolve
  rw [hq]
  simp only [accepts_zero hkind, Bool.not_true, Bool.false_eq_true, if_false, hi']
  refine .map ?_ _
  unfold answer process perform
  rw [if_pos hcontinuation]
  refine .bind ?_ _
  simp only [hevent, Bool.false_eq_true, if_false]
  have hsplit' : ({ s with pending := rest }.character i).hasTag rules.settings.splitTag = true :=
    hsplit
  rw [hsplit']
  exact settle_failsOn item.event item.scope hx hf

end Rulebook

/-- In an orderly session, processing an event and a command put at most one event in front
of the queue, after all events were processed, and an answer that is accepted takes the front
away first: whenever it gives a session, that was done, also in strict settings.  The first answer
is always accepted, but does not always give a session: it fails where the owner, a split
personality, forgets the event in front, if the text about that cannot be filled with the name of
the owner. -/
theorem queue_is_an_orderly_stack (rules : Rulebook) (s : Session n) (hs : s.IsOrderly) :
    (∀ m, (rules.make s m).run = Course.answer <$> rules.course s m) ∧
    (∀ e id scope, Chance.Ensures (rules.course s (.process e id scope)) fun c? =>
      ∃ c, c? = some c ∧ Course.Serves s id c) ∧
    (∀ text id, Chance.Ensures (rules.course s (.command text id)) fun c? =>
      ∀ c ∈ c?, ∃ i, rules.commandSeat? s id = some i ∧
        Course.Serves s (s.character i).id c) ∧
    (∀ index, Chance.Ensures (rules.course s (.resolve index)) (Rulebook.Answers s index)) ∧
    (∀ item rest, s.pending = item :: rest → Rulebook.accepts item 0 = true ∧
      ∀ index, Rulebook.accepts item index = true → ∀ d t?,
        ((rules.make s (.resolve index)).run.run d).1 = .ok t? →
        ∃ t, t? = some t ∧ Session.Stacks { s with pending := rest } t item.character) ∧
    (∀ i (x : Float) f, rules.SplitWaits s i → x < rules.settings.splitForgetChance →
      rules.CannotForget (s.character i).name f →
        Play.FailsOn x (rules.make s (.resolve 0)) f) := by
  refine ⟨rules.run_make s, ?_, ?_, rules.resolveCourse_answers hs, ?_, ?_⟩
  · intro e id scope
    exact .map (.mono (rules.processForCourse_serves hs e id scope) fun c hc => ⟨c, rfl, hc⟩)
  · intro text id
    refine .mono (rules.commandCourse_evolves s text id) fun c? hc? c hc => ?_
    obtain ⟨i, j, hi, hj, hevolves⟩ := hc? c hc
    exact ⟨i, hi, hevolves.serves hs hj⟩
  · intro item rest hq
    refine ⟨Rulebook.accepts_zero (hs.kinds item (hq ▸ List.mem_cons_self ..)), ?_⟩
    intro index hindex d t? hrun
    -- a result leaves no room for the failures that are known
    have hstacks := rules.resolve_stacks hs hq hindex d
    rw [hrun] at hstacks
    exact hstacks
  · exact fun i x f hwaits hx hf => Rulebook.resolve_failsOn hs hwaits hx hf

/-- A session in which an event waits for a confirmation. -/
def waitingSession : Session 1 :=
  { phase := .playing, turn := 1, maxTurns := 72, cast := .singleton (.plain "p1" "训练员" "甲"),
    log := [], pending := [⟨"p1", .plain "回忆", .empty, "", "", true⟩] }

theorem waiting_event_is_answered :
    waitingSession.IsOrderly ∧
    ∃ t, ((Rulebook.make ⟨⟨[]⟩, .standard⟩ waitingSession (.resolve 0)).run.run
        (.fresh fun _ => 0)).1 = .ok (some t) ∧
      Session.Stacks { waitingSession with pending := [] } t "p1" ∧ t.pending.length = 0 := by
  have hs : waitingSession.IsOrderly := ⟨by decide, by decide⟩
  have hrun : ((Rulebook.make ⟨⟨[]⟩, .standard⟩ waitingSession (.resolve 0)).run.run
      (.fresh fun _ => 0)).1.toOption.join.map (fun t => t.pending.length) = some 0 := by
    decide +kernel
  obtain ⟨t, ht, hlength⟩ := Option.map_eq_some_iff.mp hrun
  have hmake := Play.eq_ok_of_join ht
  obtain ⟨hzero, hanswers⟩ := (queue_is_an_orderly_stack ⟨⟨[]⟩, .standard⟩ waitingSession
    hs).2.2.2.2.1 _ _ rfl
  obtain ⟨u, hu, hstacks⟩ := hanswers 0 hzero _ _ hmake
  obtain rfl := Option.some.inj hu
  exact ⟨hs, t, hmake, hstacks, hlength⟩

end EventScript
