/-
Which events can follow which.

What a command can let follow is said in its text: by its statements at the top level, since a
jump inside a loop is not followed.  With its branches that makes the jumps of an event
(`Rulebook.jumps`), whatever the cast, the variables and the dice are.  An event leads to another
(`Rulebook.LeadsTo`) if some chain of jumps ends with the other one in front of the queue: because
it is interactive, or because there was a pause.

* `execute_allows`, `Rulebook.runActions_allows` — a command, and the actions of an event, are
  followed by the goal of one of their jumps or by nothing;
* `Rulebook.perform_allows` — so is an event;
* `Rulebook.follow_gains` — a chain puts at most one event in front of the queue, one that the
  event at its start leads to;
* `Rulebook.resolve_gains` — an answer takes the front away and puts at most one event there, one
  that comes after it.
-/
import EventScript.Proofs.Queue
import EventScript.Proofs.Sequence

namespace EventScript

open Chance Relation

variable {n : Nat} {js : List Jump}

/-! ### Jumps in texts -/

/-- What is to follow, if anything, is the goal of one of the given jumps. -/
def Jump.Allow (jumps : List Jump) (next : Option Text) (pause : Bool) : Prop :=
  ∀ event ∈ next, ⟨event, pause⟩ ∈ jumps

/-- The jumps of a command, from its statements at the top level. -/
def commandJumps (command : Text) : List Jump :=
  (splitStatements command).flatMap fun raw => (Statement.read raw).operation.jumps

/-- The jumps of a branch: those of its action, and one to the event that it names. -/
def Branch.jumps (b : Branch) : List Jump :=
  commandJumps b.action.toList ++ b.next.toList.map fun id => ⟨id.toList, false⟩

namespace Rulebook

/-- The commands that may be carried out for an event: those of its options, each for the
player and for the other self, or else its action. What comes before them is never followed. -/
def commands (rules : Rulebook) (e : Event) : List String :=
  if e.isInteractive then
    e.options.flatMap fun option =>
      [rules.optionCommand option false, rules.optionCommand option true]
  else [e.action]

/-- The jumps of an event. -/
def jumps (rules : Rulebook) (e : Event) : List Jump :=
  ((rules.commands e).flatMap fun command => commandJumps command.toList) ++
    e.branches.flatMap Branch.jumps

/-- An event can follow another one in a chain. -/
def JumpsTo (rules : Rulebook) (e f : Event) : Prop :=
  ∃ j ∈ rules.jumps e, rules.catalogue.find? (String.ofList j.event) = some f

/-- An event can be put in front of the queue when it follows another one. -/
def Queues (rules : Rulebook) (e f : Event) : Prop :=
  ∃ j ∈ rules.jumps e, rules.catalogue.find? (String.ofList j.event) = some f ∧
    (j.pause = true ∨ f.isInteractive = true)

/-- A chain that begins with what follows an event can put another one in front of the
queue. -/
def LeadsTo (rules : Rulebook) (e f : Event) : Prop :=
  ∃ last, ReflTransGen rules.JumpsTo e last ∧ rules.Queues last f

variable {rules : Rulebook}

theorem Queues.jumpsTo {e f : Event} (h : rules.Queues e f) : rules.JumpsTo e f := by
  obtain ⟨j, hj, hf, -⟩ := h
  exact ⟨j, hj, hf⟩

theorem Queues.leadsTo {e f : Event} (h : rules.Queues e f) : rules.LeadsTo e f :=
  ⟨e, .refl, h⟩

theorem JumpsTo.leadsTo {e f g : Event} (h : rules.JumpsTo e f) (hg : rules.LeadsTo f g) :
    rules.LeadsTo e g := by
  obtain ⟨last, hlast, hqueues⟩ := hg
  exact ⟨last, .head h hlast, hqueues⟩

theorem LeadsTo.trans {e f g : Event} (h : rules.LeadsTo e f) (hg : rules.LeadsTo f g) :
    rules.LeadsTo e g := by
  obtain ⟨last, hlast, hf⟩ := h
  obtain ⟨last', hlast', hqueues⟩ := hg
  exact ⟨last', (hlast.tail hf.jumpsTo).trans hlast', hqueues⟩

/-- What an event leads to is in the catalogue. -/
theorem LeadsTo.mem {e f : Event} (h : rules.LeadsTo e f) : f ∈ rules.catalogue.events := by
  obtain ⟨last, -, j, -, hf, -⟩ := h
  unfold Catalogue.find? at hf
  split at hf
  · cases hf
  · exact List.mem_of_find?_eq_some hf

/-- An event without jumps leads nowhere. -/
theorem not_leadsTo_of_jumps_eq_nil {e f : Event} (h : rules.jumps e = []) :
    ¬rules.LeadsTo e f := by
  have hjumps : ∀ j, j ∉ rules.jumps e := by simp [h]
  rintro ⟨last, hlast, j, hj, -⟩
  rcases hlast.cases_head with rfl | ⟨next, ⟨j', hj', -⟩, -⟩
  · exact hjumps j hj
  · exact hjumps j' hj'

end Rulebook

/-! ### Commands -/

theorem Jump.Allow.mono {fewer : List Jump} {next : Option Text} {pause : Bool}
    (h : Jump.Allow fewer next pause) (hjs : fewer ⊆ js) : Jump.Allow js next pause :=
  fun event hevent => hjs (h event hevent)

/-- Deeds leave alone what is to follow. -/
theorem Progress.Deed.allows {p q : Progress n} (h : ReflTransGen Progress.Deed p q)
    (hp : Jump.Allow js p.next p.pause) : Jump.Allow js q.next q.pause := by
  induction h with
  | refl => exact hp
  | tail _ hdeed ih =>
    cases hdeed with
    | edit i f h hrelations => exact ih
    | feel holder object kind amount => exact ih
    | set key h => exact ih

theorem Attempt.Deeds.allows {fewer : List Jump} {p : Progress n} {a : Attempt n}
    (h : Attempt.Deeds fewer p a) (hjs : fewer ⊆ js) (hp : Jump.Allow js p.next p.pause) :
    Jump.Allow js a.progress.next a.progress.pause := by
  cases h with
  | skip reason => exact hp
  | done h => exact Progress.Deed.allows h hp
  | jump h =>
    rintro event ⟨⟩
    exact hjs h

/-- The jumps of a step. What its body does is not followed. -/
def Step.jumps : Step → List Jump
  | .mk _ statement _ => statement.operation.jumps

theorem Step.attempt_allows (s : Step) (subject : Seat n) {p : Progress n}
    (hs : s.jumps ⊆ js) (hp : Jump.Allow js p.next p.pause) :
    Ensures (Step.attempt s subject p) fun a =>
      Jump.Allow js a.progress.next a.progress.pause := by
  cases s with
  | mk raw statement body =>
    rw [Step.attempt]
    have hbody : ∀ (i : Seat n) q, Yields (Script.run body i q) fun _ => True := fun i q =>
      .mono (Script.run_acts body i q) fun _ _ => trivial
    have hattempt := statement.attempt_obeys (R := fun _ _ => True) (fun _ => trivial)
      (fun _ _ => trivial) subject hbody p
    refine .mono hattempt.2 fun a ha => ?_
    cases ha with
    | skip reason => exact hp
    | deeds _ h => exact h.allows hs hp
    | loop _ _ => exact hp

theorem Script.run_allows (script : List Step) (subject : Seat n) {p : Progress n}
    (hscript : script.flatMap Step.jumps ⊆ js) (hp : Jump.Allow js p.next p.pause) :
    Ensures (Script.run script subject p) fun q => Jump.Allow js q.next q.pause := by
  induction script generalizing p with
  | nil =>
    rw [Script.run]
    exact .pure hp
  | cons s rest ih =>
    rw [List.flatMap_cons] at hscript
    obtain ⟨hs, hrest⟩ := List.append_subset.mp hscript
    rw [Script.run]
    -- keeping record of the step changes nothing about the jump
    exact .bind (s.attempt_allows subject hs hp) fun a ha => ih hrest ha

theorem Step.jumps_read (raw : Text) :
    (Step.read raw).jumps = (Statement.read raw).operation.jumps := by
  unfold Step.read
  split
  · rfl
  · rfl

theorem flatMap_jumps_read (command : Text) :
    (Script.read command).flatMap Step.jumps = commandJumps command := by
  rw [Script.read_eq, List.flatMap_map]
  simp only [Step.jumps_read]
  rfl

/-- A command is followed by the goal of one of its jumps or by nothing. -/
theorem execute_allows (w : World n) (subject : Seat n) (scope : Scope) (command : Text) :
    Ensures (execute w subject scope command) fun q =>
      Jump.Allow (commandJumps command) q.next q.pause := by
  have hstart : Jump.Allow (commandJumps command) (Progress.start w scope).next
      (Progress.start w scope).pause := fun event hevent => nomatch hevent
  exact Script.run_allows _ subject (fun j hj => flatMap_jumps_read command ▸ hj) hstart

/-! ### Events -/

namespace Rulebook

theorem runBranches_allows (i : Seat n) (choice : Option Int) (branches : List Branch)
    {p : Progress n} (hbranches : branches.flatMap Branch.jumps ⊆ js)
    (hp : Jump.Allow js p.next p.pause) :
    Ensures (runBranches i choice branches p) fun q => Jump.Allow js q.next q.pause := by
  induction branches with
  | nil => exact .pure hp
  | cons b rest ih =>
    rw [List.flatMap_cons] at hbranches
    obtain ⟨hb, hrest⟩ := List.append_subset.mp hbranches
    obtain ⟨haction, hnext⟩ := List.append_subset.mp hb
    refine .bind_of_forall fun holds => ?_
    split
    · refine .bind (execute_allows p.world i p.scope b.action.toList) fun q hq => ?_
      have hkept : Jump.Allow js (if q.next.isNone then p.withoutJump q else q).next
          (if q.next.isNone then p.withoutJump q else q).pause := by
        split
        · exact hp
        · exact hq.mono haction
      simp only
      split
      · rename_i id hid
        refine .pure ?_
        split
        · exact hkept
        · -- the event that the branch names replaces what was to follow
          rintro event ⟨⟩
          rw [hid] at hnext
          exact hnext (List.mem_singleton_self _)
      · exact .pure hkept
    · exact ih hrest

theorem runActions_allows (w : World n) (i : Seat n) (scope : Scope) (e : Event)
    {command : String} (choice : Option Int) {rules : Rulebook}
    (hcommand : command ∈ rules.commands e) :
    Ensures (runActions w i scope e command choice) fun p =>
      Jump.Allow (rules.jumps e) p.next p.pause := by
  refine .bind (execute_allows w i scope command.toList) fun p hp => ?_
  refine runBranches_allows i choice e.branches (List.subset_append_right _ _) (hp.mono ?_)
  intro j hj
  exact List.mem_append_left _ (List.mem_flatMap.mpr ⟨command, hcommand, hj⟩)

variable (rules : Rulebook)

/-- What follows an event is the goal of one of its jumps. -/
def Allows (e : Event) (a : Aftermath n) : Prop :=
  Jump.Allow (rules.jumps e) a.next a.pause

theorem settleOption_allows (s : Session n) (i : Seat n) (e : Event) (index : Nat)
    (scope : Scope) (alone : Bool) (fault : Failure → Prop) :
    Play.Ensures (rules.settleOption s i e index scope alone) (rules.Allows e) fault := by
  unfold settleOption
  split
  · exact .pure fun event hevent => nomatch hevent
  · rename_i option hoption
    have hmem : option ∈ e.options := List.mem_of_getElem? hoption
    have hcommand : rules.optionCommand option alone ∈ rules.commands e := by
      have he : e.isInteractive = true := by
        simpa [Event.isInteractive] using List.ne_nil_of_mem hmem
      rw [commands, if_pos he]
      refine List.mem_flatMap.mpr ⟨option, hmem, ?_⟩
      cases alone with
      | false => exact List.mem_cons_self ..
      | true => exact List.mem_cons_of_mem _ (List.mem_singleton_self _)
    refine .bind (.chance (runActions_allows _ i scope e _ hcommand)) fun p hp => ?_
    exact .bind (.chance (.of_forall fun _ => trivial)) fun shown _ => .pure hp

theorem settleAlone_allows (s : Session n) (i : Seat n) (e : Event) (scope : Scope) :
    Play.Ensures (rules.settleAlone s i e scope) (rules.Allows e) fun _ => True := by
  refine .bind (.trivial _) fun pre _ => ?_
  refine .bind (.trivial _) fun lost _ => ?_
  refine .bind (.trivial _) fun visible _ => ?_
  exact .bind (.trivial _) fun index _ => rules.settleOption_allows _ i e index _ true _

theorem queue_allows (s : Session n) (i : Seat n) (e : Event) (scope : Scope) :
    Play.Ensures (rules.queue s i e scope) (rules.Allows e) fun _ => True := by
  refine .bind (.trivial _) fun pre _ => ?_
  exact .bind (.trivial _) fun item _ => .pure fun event hevent => nomatch hevent

theorem settle_allows (s : Session n) (i : Seat n) {e : Event} (scope : Scope) (split : Bool)
    (he : e.isInteractive = false) :
    Play.Ensures (rules.settle s i e scope split) (rules.Allows e) fun _ => True := by
  have hcommand : e.action ∈ rules.commands e := by
    rw [commands, he]
    exact List.mem_singleton_self _
  refine .bind (.trivial _) fun pre _ => ?_
  refine .bind (.chance (runActions_allows _ i _ e _ hcommand)) fun p hp => ?_
  refine .bind (.trivial _) fun text _ => ?_
  refine .bind (.trivial _) fun forgotten _ => ?_
  exact .bind (.trivial _) fun told _ => .pure hp

/-- An event is followed by the goal of one of its jumps or by nothing. -/
theorem perform_allows (s : Session n) (i : Seat n) (e : Event) (scope : Scope) :
    Play.Ensures (rules.perform s i e scope) (rules.Allows e) fun _ => True := by
  unfold perform
  simp only
  split
  · refine .bind (.trivial _) fun alone _ => ?_
    split
    · exact rules.settleAlone_allows s i e scope
    · exact rules.queue_allows s i e scope
  · rename_i he
    exact rules.settle_allows s i scope _ (Bool.eq_false_iff.mpr he)

end Rulebook

/-! ### The queue -/

/-- The queue is as it was, or there is one more event in front of it, of which something is
known, and which is a continuation exactly if it has no options. -/
def Session.Gains (s : Session n) (P : Event → Prop) (t : Session n) : Prop :=
  t.pending = s.pending ∨ ∃ item : Pending,
    item.continuation = !item.event.isInteractive ∧ P item.event ∧ t.pending = item :: s.pending

theorem Session.Gains.imp {s s' t : Session n} {P Q : Event → Prop} (h : s.Gains P t)
    (hpending : s.pending = s'.pending) (hPQ : ∀ e, P e → Q e) : s'.Gains Q t := by
  unfold Session.Gains at *
  rw [← hpending]
  exact h.imp_right fun ⟨item, hkind, hP, hq⟩ => ⟨item, hkind, hPQ _ hP, hq⟩

/-- The entry that processing makes of an event is in front of the queue. -/
theorem Session.Gains.of_presents {s t : Session n} {P : Event → Prop} {id : String} {e : Event}
    {continuation : Bool} {item : Pending} (h : Rulebook.Presents id e continuation item)
    (hkind : continuation = !e.isInteractive) (hP : P e)
    (hpending : t.pending = item :: s.pending) : s.Gains P t := by
  refine .inr ⟨item, ?_, ?_, hpending⟩
  · rw [h.continuation_eq, h.event_eq, hkind]
  · rw [h.event_eq]
    exact hP

namespace Rulebook

variable (rules : Rulebook)

theorem jumpsTo_of_next? {e f : Event} {a : Aftermath n} (ha : rules.Allows e a)
    (hnext : rules.next? a = some f) :
    ∃ j ∈ rules.jumps e, rules.catalogue.find? (String.ofList j.event) = some f ∧
      j.pause = a.pause := by
  obtain ⟨event, hevent, hfind⟩ := Option.bind_eq_some_iff.mp hnext
  exact ⟨⟨event, a.pause⟩, ha event hevent, hfind, rfl⟩

/-- Processing an event leaves the queue alone, and something may follow, or the event itself
is in front of the queue, and nothing follows. -/
theorem perform_settles (s : Session n) (i : Seat n) (e : Event) (scope : Scope) :
    Play.Ensures (rules.perform s i e scope) (fun a => Settles s i e a ∧ rules.Allows e a)
      fun _ => True :=
  .and (rules.perform_evolves s i e scope) (rules.perform_allows s i e scope)

/-- A chain puts at most one event in front of the queue, one that the event at its start leads
to. -/
theorem follow_gains (i : Seat n) (depth : Nat) (a : Aftermath n) (first : Event)
    (ha : rules.Allows first a) :
    Play.Ensures (rules.follow i depth a) (a.session.Gains (rules.LeadsTo first))
      fun _ => True := by
  induction depth, a using follow.induct rules generalizing first with
  | case1 depth a hnext =>
    rw [follow_of_end hnext]
    exact .pure (.inl rfl)
  | case2 depth a e hnext hdeep hstrict =>
    rw [follow_of_isTooDeep hnext hdeep, if_pos hstrict]
    exact .throw trivial
  | case3 depth a e hnext hdeep hstrict =>
    rw [follow_of_isTooDeep hnext hdeep, if_neg hstrict]
    exact .pure (.inl rfl)
  | case4 depth a e hnext hdeep hpause =>
    rw [follow_of_pause hnext hdeep hpause]
    obtain ⟨j, hj, hfind, hjump⟩ := rules.jumpsTo_of_next? ha hnext
    obtain ⟨hp, he⟩ := Bool.and_eq_true_iff.mp hpause
    have hqueues : rules.Queues first e := ⟨j, hj, hfind, .inl (hjump.trans hp)⟩
    exact .bind (.chance (rules.pendingOf_presents a.session i e a.scope true)) fun item hitem =>
      .pure (.of_presents hitem he.symm hqueues.leadsTo rfl)
  | case5 depth a e hnext hdeep hpause ih =>
    rw [follow_of_visit hnext hdeep hpause]
    obtain ⟨j, hj, hfind, -⟩ := rules.jumpsTo_of_next? ha hnext
    refine .bind (rules.perform_settles a.session i e a.scope) fun b hb => ?_
    rcases hb.1.queue with hq | ⟨he, hend, item, hitem, hq⟩
    · refine .mono (ih b e hb.2) fun t ht => ht.imp hq fun f hf => ?_
      exact JumpsTo.leadsTo ⟨j, hj, hfind⟩ hf
    · -- the event is in front of the queue, and nothing follows it
      rw [follow_of_end (next?_eq_none hend)]
      have hqueues : rules.Queues first e := ⟨j, hj, hfind, .inr he⟩
      exact .pure (.of_presents hitem (by rw [he]; rfl) hqueues.leadsTo hq)

/-- What can be in front of the queue after an event in the queue was answered: an event that
it leads to; or, if it is an interactive event that waits for no choice, itself. -/
def After (item : Pending) (e : Event) : Prop :=
  rules.LeadsTo item.event e ∨
    item.continuation = true ∧ item.event.isInteractive = true ∧ e = item.event

theorem answer_gains (s : Session n) (i : Seat n) (item : Pending) (index : Int) :
    Play.Ensures (rules.answer s i item index) (s.Gains (rules.After item)) fun _ => True := by
  unfold answer
  split
  · rename_i hitem
    refine .bind (rules.perform_settles s i item.event item.scope) fun a ha => ?_
    rcases ha.1.queue with hq | ⟨he, hend, again, hagain, hq⟩
    · exact .mono (rules.follow_gains i 0 a _ ha.2) fun t ht => ht.imp hq fun f => .inl
    · rw [follow_of_end (next?_eq_none hend)]
      exact .pure (.of_presents hagain (by rw [he]; rfl) (.inr ⟨hitem, he, rfl⟩) hq)
  · have hsettle := Play.Ensures.and
      (rules.settleOption_evolves (s.note (s.character i).name item.text .event
        (!item.event.title.isEmpty) []) i item.event index.toNat item.scope false fun _ => True)
      (rules.settleOption_allows _ i item.event index.toNat item.scope false fun _ => True)
    refine .bind hsettle fun a ha => ?_
    have hq := ha.1.pending_eq.trans (Session.pending_note ..)
    exact .mono (rules.follow_gains i 0 a _ ha.2) fun t ht => ht.imp hq fun f => .inl

/-- An answer that is accepted takes the front away and puts at most one event there. -/
theorem resolve_gains {s : Session n} {item : Pending} {rest : List Pending}
    (hq : s.pending = item :: rest) {index : Int} (hindex : accepts item index = true) :
    Play.Ensures (rules.resolve s index) (fun t? => ∃ t, t? = some t ∧
      Session.Gains { s with pending := rest } (rules.After item) t) fun _ => True := by
  unfold resolve
  rw [hq]
  simp only [hindex, Bool.not_true, Bool.false_eq_true, if_false]
  split
  · exact .map (.mono (rules.answer_gains _ _ item index) fun t ht => ⟨t, rfl, ht⟩)
  · exact .pure ⟨_, rfl, .inl rfl⟩

end Rulebook

end EventScript
