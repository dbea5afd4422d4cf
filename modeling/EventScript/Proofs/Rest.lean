/-
Automatic play comes to rest, unless events go round in circles.

In automatic play the front of the queue is answered until the queue is empty.  An answer takes
the front away and may bring another event there (`Rulebook.Brings`).  The greatest length of a
chain is no limit to this, since every answer begins a new chain; but there is an end to it if no
event comes back (`Rulebook.ComesToRest`).

* `Dialogue.Concludes`, `Terminal.Concludes` — a dialogue comes to an end without asking
  anything;
* `Rulebook.comesToRest_of_leadsTo` — whether an event comes to rest can be read off the texts;
* `Rulebook.load_lt_of_brings` — what an answer brings weighs less than what it takes away, if
  that comes to rest;
* `automatic_play_comes_to_rest` — then automatic play empties the queue or fails, after at most
  as many answers as the queue weighs;
* `Program.drain_of_not_canAnswer` — an event that takes no answer stays in front for ever;
* `automatic_play_may_never_rest` — an event that goes on with itself after a pause waits for ever,
  and so does one that waits for a choice without options.
-/
import EventScript.Proofs.Jump
import EventScript.Terminal.Program
import Mathlib.Algebra.Order.BigOperators.Group.List
import Mathlib.Algebra.Order.Ring.Nat

namespace EventScript

open Relation

variable {n : Nat}

/-! ### Dialogues that ask nothing -/

namespace Dialogue

variable {α β : Type} {post : α → Prop} {fault : Ending → Prop}

/-- Without asking anything, a dialogue results in a value, of which one thing is true, or
stops, of which another thing is true. -/
def Concludes (post : α → Prop) (fault : Ending → Prop) : Dialogue α → Prop
  | result a => post a
  | stop _ ending => fault ending
  | present _ rest => Concludes post fault rest
  | ask .. => False

theorem Concludes.andThen {mid : β → Prop} {f : β → Dialogue α} {x : Dialogue β}
    (hx : Concludes mid fault x) (hf : ∀ b, mid b → Concludes post fault (f b)) :
    Concludes post fault (andThen f x) := by
  induction x with
  | result b => exact hf b hx
  | stop dice ending => exact hx
  | present d rest ih => exact ih hx
  | ask dice question judge next ih => exact hx.elim

/-- A dialogue comes to one end only. -/
theorem Concludes.exists_end {post' : α → Prop} {fault' : Ending → Prop} {x : Dialogue α}
    (hx : Concludes post fault x) (hx' : Concludes post' fault' x) :
    (∃ a, post a ∧ post' a) ∨ ∃ ending, fault ending ∧ fault' ending := by
  induction x with
  | result a => exact .inl ⟨a, hx, hx'⟩
  | stop dice ending => exact .inr ⟨ending, hx, hx'⟩
  | present d rest ih => exact ih hx hx'
  | ask dice question judge next ih => exact hx.elim

end Dialogue

namespace Terminal

variable {α β : Type} {post : α → Prop} {fault : Ending → Prop}

/-- Whatever the dice, a dialogue that rolls them comes to an end without asking anything. -/
def Concludes (c : Terminal α) (post : α → Prop) (fault : Ending → Prop) : Prop :=
  ∀ dice, Dialogue.Concludes (fun r => post r.1) fault (c.run dice)

theorem Concludes.pure {a : α} (h : post a) : Concludes (Pure.pure a) post fault :=
  fun _ => h

theorem Concludes.bind {c : Terminal β} {f : β → Terminal α} {mid : β → Prop}
    (hc : Concludes c mid fault) (hf : ∀ b, mid b → Concludes (f b) post fault) :
    Concludes (c >>= f) post fault :=
  fun dice => (hc dice).andThen fun r hr => hf r.1 hr r.2

theorem Concludes.display (d : Display) : Concludes (Terminal.display d) (fun _ => True) fault :=
  fun _ => trivial

theorem Concludes.stop {ending : Ending} (h : fault ending) :
    Concludes (Terminal.stop ending : Terminal α) post fault :=
  fun _ => h

theorem Concludes.chance {c : Chance α} (h : Chance.Ensures c post) :
    Concludes (Terminal.chance c) post fault :=
  h

/-- The program goes on after a move that succeeds, and ends with the failure of any other. -/
theorem Concludes.move {c : Play α} {failed : Failure → Prop} (h : Play.Ensures c post failed)
    (hfault : ∀ f, failed f → fault (.failure f)) : Concludes (Terminal.move c) post fault := by
  intro dice
  have hdice := h dice
  show Dialogue.Concludes _ _ (Terminal.move c dice)
  unfold Terminal.move
  generalize c.run.run dice = r at hdice ⊢
  obtain ⟨result, dice'⟩ := r
  cases result with
  | ok a => exact hdice
  | error f => exact hfault f hdice

end Terminal

/-! ### Answers in automatic play -/

namespace Program

theorem offered_ensures (rules : Rulebook) (s : Session n) (item : Pending) :
    Chance.Ensures (offered rules s item) fun ks => ∀ k ∈ ks, k < item.event.options.length := by
  unfold offered
  split
  · exact rules.visibleOptions_ensures s _ item.scope item.event
  · exact .pure fun k hk => List.mem_range.mp hk

/-- An event that waits for a confirmation or has options can be answered. -/
def CanAnswer (item : Pending) : Prop :=
  item.continuation = true ∨ item.event.isInteractive = true

theorem not_accepts {item : Pending} (hitem : ¬CanAnswer item) (index : Int) :
    Rulebook.accepts item index = false := by
  obtain ⟨hcontinuation, he⟩ := not_or.mp hitem
  have hoptions : item.event.options = [] := by
    simpa [Event.isInteractive] using he
  unfold Rulebook.accepts
  rw [hoptions, Bool.eq_false_iff.mpr hcontinuation]
  simp

/-- What automatic play answers is accepted, if anything can be. -/
theorem chooseFor_concludes (rules : Rulebook) (s : Session n) (item : Pending)
    (fault : Ending → Prop) :
    Terminal.Concludes (chooseFor rules s item true)
      (fun k => CanAnswer item → Rulebook.accepts item k = true) fault := by
  unfold chooseFor
  by_cases hcontinuation : item.continuation = true
  · rw [if_pos hcontinuation]
    refine .pure fun _ => ?_
    unfold Rulebook.accepts
    rw [hcontinuation]
    rfl
  · rw [if_neg hcontinuation]
    refine .bind (.chance (offered_ensures rules s item)) fun visible hvisible => ?_
    refine .chance fun dice hitem => ?_
    have hoptions := Rulebook.length_options_pos (hitem.resolve_left hcontinuation)
    have hk := Rulebook.drawPosition_ensures hvisible hoptions dice
    unfold Rulebook.accepts
    simpa using Or.inr hk

theorem showPending_concludes (item : Pending) (fault : Ending → Prop) :
    Terminal.Concludes (showPending item) (fun _ => True) fault := by
  unfold showPending
  split
  · exact .display _
  · split
    · exact .display _
    · exact .pure trivial

end Program

/-! ### Returning events -/

/-- An answer to a waiting event can put another one in front of the queue. -/
def Rulebook.Brings (rules : Rulebook) (a b : Pending) : Prop :=
  ∃ (n : Nat) (s t : Session n) (rest : List Pending) (index : Int), s.pending = a :: rest ∧
    t.pending = b :: rest ∧ (rules.resolve s index).run.MayGive (.ok (some t))

/-- A waiting event that can be answered, and after which no event comes to wait again in the
same way after itself. -/
structure Rulebook.ComesToRest (rules : Rulebook) (item : Pending) : Prop where
  canAnswer : Program.CanAnswer item
  acyclic : ∀ a b, ReflTransGen rules.Brings item a → TransGen rules.Brings a b →
    ¬(b.event = a.event ∧ b.continuation = a.continuation)

namespace Rulebook

variable {rules : Rulebook} {a b c : Pending}

/-- What answers bring is a continuation exactly if it has no options, and can be read off the
texts of the events. -/
theorem Brings.after (h : rules.Brings a b) :
    b.continuation = !b.event.isInteractive ∧ rules.After a b.event := by
  obtain ⟨n, s, t, rest, index, hs, ht, hresolve⟩ := h
  cases haccepts : accepts a index with
  | true =>
    obtain ⟨u, hu, hgains⟩ := (rules.resolve_gains hs haccepts).of_mayGive hresolve
    cases hu
    rcases hgains with hpending | ⟨item, hkind, hafter, hpending⟩
    · exact absurd (ht.symm.trans hpending) (List.cons_ne_self b rest)
    · obtain ⟨rfl, -⟩ := List.cons.inj (ht.symm.trans hpending)
      exact ⟨hkind, hafter⟩
  | false =>
    -- an answer that is not accepted changes nothing
    obtain ⟨dice, hdice⟩ := hresolve
    rw [resolve, hs] at hdice
    simp only [haccepts, Bool.not_false, if_true] at hdice
    cases hdice

theorem canAnswer_of_kind (h : b.continuation = !b.event.isInteractive) :
    Program.CanAnswer b := by
  cases he : b.event.isInteractive with
  | true => exact .inr he
  | false =>
    rw [he] at h
    exact .inl h

/-- What follows an event that comes to rest comes to rest. -/
theorem ComesToRest.of_brings (h : rules.ComesToRest a) (hb : rules.Brings a b) :
    rules.ComesToRest b :=
  ⟨canAnswer_of_kind hb.after.1, fun c d hc => h.acyclic c d (.head hb hc)⟩

/-- Only a continuation with options comes back to wait for a choice without being led to. -/
theorem leadsTo_of_after {e : Event} (h : rules.After a e)
    (hkind : a.continuation = !a.event.isInteractive) : rules.LeadsTo a.event e := by
  refine h.resolve_right fun ⟨hcontinuation, he, _⟩ => ?_
  rw [hcontinuation, he] at hkind
  cases hkind

theorem after_of_transGen (h : TransGen rules.Brings a b) :
    b.continuation = !b.event.isInteractive ∧ rules.After a b.event := by
  induction h with
  | single hb => exact hb.after
  | @tail b c _ hc ih =>
    obtain ⟨hkind, hafter⟩ := ih
    have hleads := leadsTo_of_after hc.after.2 hkind
    refine ⟨hc.after.1, .inl ?_⟩
    rcases hafter with hab | ⟨-, -, heq⟩
    · exact hab.trans hleads
    · exact heq ▸ hleads

/-- Whether events come to rest can be read off their texts: it is enough that none of them
leads to an event that leads to itself. -/
theorem comesToRest_of_leadsTo (hanswer : Program.CanAnswer a)
    (h : ∀ e, rules.LeadsTo a.event e → ¬rules.LeadsTo e e) : rules.ComesToRest a := by
  refine ⟨hanswer, fun b c hb hc ⟨heq, hsame⟩ => ?_⟩
  obtain ⟨hkind, hafter⟩ := after_of_transGen hc
  have hself : rules.LeadsTo b.event b.event := by
    rcases hafter with hleads | ⟨hcontinuation, he, -⟩
    · exact heq ▸ hleads
    · -- an event with options that is back waits for a choice, not for a confirmation
      rw [hsame, heq, hcontinuation, he] at hkind
      cases hkind
  rcases hb.cases_head with rfl | hreach
  · exact h _ hself hself
  · obtain ⟨d, hd, hdb⟩ := hreach
    rcases (after_of_transGen (TransGen.head' hd hdb)).2 with hleads | ⟨-, -, hsource⟩
    · exact h _ hleads hself
    · exact h _ (hsource ▸ hself) hself

end Rulebook

/-! ### Loads -/

open scoped Classical in
/-- The number of events that answers can bring after a waiting event. -/
noncomputable def Rulebook.rank (rules : Rulebook) (item : Pending) : Nat :=
  rules.catalogue.events.countP fun e =>
    decide (∃ later, TransGen rules.Brings item later ∧ later.event = e)

/-- The number of answers that a waiting event may still take. An event with options that waits
for a confirmation may come back once, to wait for a choice. -/
noncomputable def Rulebook.load (rules : Rulebook) (item : Pending) : Nat :=
  rules.rank item + if item.continuation && item.event.isInteractive then 2 else 1

/-- The number of answers that a queue may still take. -/
noncomputable def Rulebook.loads (rules : Rulebook) (items : List Pending) : Nat :=
  (items.map rules.load).sum

/-- Of more elements of a list something weaker is true. -/
theorem countP_lt_countP {α : Type} {p q : α → Bool} {l : List α}
    (hpq : ∀ a ∈ l, p a = true → q a = true) {a : α} (ha : a ∈ l) (hp : p a = false)
    (hq : q a = true) : l.countP p < l.countP q := by
  induction l with
  | nil => cases ha
  | cons b rest ih =>
    obtain ⟨hb, hrest⟩ := List.forall_mem_cons.mp hpq
    rw [List.countP_cons, List.countP_cons]
    rcases List.mem_cons.mp ha with rfl | ha
    · have hle := List.countP_mono_left hrest
      simp only [hp, hq, if_true, Bool.false_eq_true, if_false]
      omega
    · have hlt := ih hrest ha
      by_cases hpb : p b = true
      · simp only [hpb, hb hpb, if_true]
        omega
      · simp only [hpb, Bool.false_eq_true, if_false]
        omega

namespace Rulebook

variable {rules : Rulebook} {a b : Pending}

theorem rank_le (rules : Rulebook) (item : Pending) :
    rules.rank item ≤ rules.catalogue.events.length :=
  List.countP_le_length

theorem rank_lt_load (rules : Rulebook) (item : Pending) : rules.rank item < rules.load item := by
  unfold load
  split
  · omega
  · omega

theorem load_le (rules : Rulebook) (item : Pending) :
    rules.load item ≤ rules.catalogue.events.length + 2 := by
  have hrank := rules.rank_le item
  unfold load
  split
  · omega
  · omega

theorem loads_cons (rules : Rulebook) (item : Pending) (rest : List Pending) :
    rules.loads (item :: rest) = rules.load item + rules.loads rest := by
  rw [loads, loads, List.map_cons, List.sum_cons]

theorem loads_le (rules : Rulebook) (items : List Pending) :
    rules.loads items ≤ items.length * (rules.catalogue.events.length + 2) := by
  have hloads := List.sum_le_card_nsmul (items.map rules.load) _
    (List.forall_mem_map.mpr fun item _ => rules.load_le item)
  rwa [List.length_map, nsmul_eq_mul] at hloads

open scoped Classical in
/-- What an answer brings can bring no more. -/
theorem rank_le_of_brings (hb : rules.Brings a b) : rules.rank b ≤ rules.rank a := by
  refine List.countP_mono_left fun e _ he => decide_eq_true ?_
  obtain ⟨later, hlater, heq⟩ := of_decide_eq_true he
  exact ⟨later, .head hb hlater, heq⟩

open scoped Classical in
/-- What an answer brings can bring less, because it does not come back itself. -/
theorem rank_lt_of_brings (h : rules.ComesToRest a) (hb : rules.Brings a b)
    (hmem : b.event ∈ rules.catalogue.events) : rules.rank b < rules.rank a := by
  refine countP_lt_countP (fun e _ he => decide_eq_true ?_) hmem (decide_eq_false ?_)
    (decide_eq_true ⟨b, .single hb, rfl⟩)
  · obtain ⟨later, hlater, heq⟩ := of_decide_eq_true he
    exact ⟨later, .head hb hlater, heq⟩
  · rintro ⟨later, hlater, heq⟩
    have hkind := (after_of_transGen hlater).1
    rw [heq, ← hb.after.1] at hkind
    exact h.acyclic b later (.single hb) hlater ⟨heq, hkind⟩

/-- What an answer brings weighs less than what it takes away. -/
theorem load_lt_of_brings (h : rules.ComesToRest a) (hb : rules.Brings a b) :
    rules.load b < rules.load a := by
  obtain ⟨hkind, hafter⟩ := hb.after
  have hload : rules.load b = rules.rank b + 1 := by
    rw [load, hkind]
    simp
  rcases hafter with hleads | ⟨hcontinuation, he, -⟩
  · have hrank := rank_lt_of_brings h hb hleads.mem
    have hlight := rules.rank_lt_load a
    omega
  · -- the event itself comes back, to wait for a choice
    have hrank := rank_le_of_brings hb
    have hheavy : rules.load a = rules.rank a + 2 := by
      rw [load, hcontinuation, he]
      simp
    omega

end Rulebook

/-! ### Automatic play -/

namespace Program

theorem drain_nil {rules : Rulebook} {auto : Bool} {s : Session n} (hq : s.pending = [])
    (steps : Nat) : drain rules auto steps s = pure s := by
  cases steps with
  | zero => rw [drain, if_pos (List.isEmpty_iff.mpr hq)]
  | succ steps =>
    have hfront : s.front? = none := by
      rw [Session.front?, hq]
      rfl
    rw [drain, hfront]

theorem drain_succ {rules : Rulebook} {auto : Bool} {steps : Nat} {s : Session n} {item : Pending}
    {rest : List Pending} (hq : s.pending = item :: rest) :
    drain rules auto (steps + 1) s = (do
      showPending item
      let k ← chooseFor rules s item auto
      let moved ← Terminal.move (rules.resolve s k)
      drain rules auto steps (moved.getD s)) := by
  have hfront : s.front? = some item := by
    rw [Session.front?, hq]
    rfl
  rw [drain, hfront]

/-- Every answer makes the queue lighter. -/
theorem drain_concludes {rules : Rulebook} {s : Session n} (steps : Nat)
    (hs : ∀ item ∈ s.pending, rules.ComesToRest item) (hload : rules.loads s.pending ≤ steps) :
    Terminal.Concludes (drain rules true steps s) (fun t => t.pending = [])
      fun ending => ∃ f, ending = .failure f := by
  induction steps generalizing s with
  | zero =>
    have hpending : s.pending = [] := by
      cases hq : s.pending with
      | nil => rfl
      | cons item rest =>
        have hlight := rules.rank_lt_load item
        rw [hq, rules.loads_cons] at hload
        omega
    rw [drain_nil hpending]
    exact .pure hpending
  | succ steps ih =>
    cases hq : s.pending with
    | nil =>
      rw [drain_nil hq]
      exact .pure hq
    | cons item rest =>
      rw [hq] at hs
      rw [hq, rules.loads_cons] at hload
      obtain ⟨hitem, hrest⟩ := List.forall_mem_cons.mp hs
      rw [drain_succ hq]
      refine .bind (showPending_concludes item _) fun _ _ => ?_
      refine .bind (chooseFor_concludes rules s item _) fun k hk => ?_
      refine .bind (.move (rules.resolve_gains hq (hk hitem.canAnswer)).mayGive fun f _ => ⟨f, rfl⟩)
        fun t? ⟨hgives, ht⟩ => ?_
      obtain ⟨t, rfl, hgains⟩ := ht
      rw [Option.getD_some]
      -- the front has left the queue, and what is there instead weighs less
      rcases hgains with hpending | ⟨later, -, -, hpending⟩
      · have hpending : t.pending = rest := hpending
        have hlight := rules.rank_lt_load item
        refine ih (hpending ▸ hrest) ?_
        rw [hpending]
        omega
      · have hpending : t.pending = later :: rest := hpending
        have hbrings : rules.Brings item later := ⟨n, s, t, rest, k, hq, hpending, hgives⟩
        have hlt := Rulebook.load_lt_of_brings hitem hbrings
        refine ih ?_ ?_
        · rw [hpending]
          exact List.forall_mem_cons.mpr ⟨hitem.of_brings hbrings, hrest⟩
        · rw [hpending, rules.loads_cons]
          omega

/-- An event that cannot be answered stays in front of the queue for ever. -/
theorem drain_of_not_canAnswer {rules : Rulebook} {s : Session n} {item : Pending}
    {rest : List Pending} (hq : s.pending = item :: rest) (hitem : ¬CanAnswer item) (steps : Nat) :
    Terminal.Concludes (drain rules true steps s) (fun _ => False) (· = .restless) := by
  induction steps with
  | zero =>
    rw [drain, hq]
    exact .stop rfl
  | succ steps ih =>
    rw [drain_succ hq]
    refine .bind (showPending_concludes item _) fun _ _ => ?_
    refine .bind (chooseFor_concludes rules s item _) fun k _ => ?_
    have hresolve : rules.resolve s k = pure none := by
      rw [Rulebook.resolve, hq]
      simp only [not_accepts hitem, Bool.not_false, if_true]
    rw [hresolve]
    have hnone : Play.Ensures (pure none : Play (Option (Session n))) (· = none) fun _ => False :=
      .pure rfl
    refine .bind (.move hnone fun f hf => hf.elim) fun t? ht => ?_
    -- the session is the same as before
    rw [ht]
    exact ih

end Program

/-- Automatic play asks nothing, and if every waiting event can be answered and no event comes to
wait again after itself, it empties the queue, or stops with a failure, after no more answers
than there are waiting events times two more than events in the catalogue; whatever the dice. -/
theorem automatic_play_comes_to_rest (rules : Rulebook) (s : Session n)
    (hs : ∀ item ∈ s.pending, rules.ComesToRest item) (steps : Nat)
    (hsteps : s.pending.length * (rules.catalogue.events.length + 2) ≤ steps) :
    Terminal.Concludes (Program.drain rules true steps s) (fun t => t.pending = [])
      fun ending => ∃ f, ending = .failure f :=
  Program.drain_concludes steps hs ((rules.loads_le s.pending).trans hsteps)

/-- An event that goes on after a pause. -/
def bedtime : Event :=
  { Event.plain "就寝" with action := "继续 梦境" }

/-- An event that nothing follows. -/
def dream : Event :=
  { Event.plain "梦境" with body := "做了一个梦。" }

/-- An event that goes on with itself after a pause. -/
def insomnia : Event :=
  { Event.plain "失眠" with action := "继续 失眠" }

/-- The rules of a night. -/
def sleepRules : Rulebook :=
  ⟨⟨[bedtime, dream, insomnia]⟩, { Settings.standard with memoryLostText := "" }⟩

/-- A trainer for whom an event waits: to go on, or for a choice. -/
def lateNight (e : Event) (continuation : Bool) : Session 1 :=
  { phase := .playing, turn := 1, maxTurns := 72, cast := .singleton (.plain "p1" "训练员" "甲"),
    log := [], pending := [⟨"p1", e, .empty, "", "", continuation⟩] }

theorem leadsTo_bedtime {e : Event} (h : sleepRules.LeadsTo bedtime e) : e = dream := by
  have hdream : ∀ f, sleepRules.JumpsTo bedtime f → f = dream := by
    rintro f ⟨j, hj, hf⟩
    have hjumps : sleepRules.jumps bedtime = [⟨"梦境".toList, true⟩] := by decide
    rw [hjumps] at hj
    obtain rfl := List.mem_singleton.mp hj
    exact (Option.some.inj hf).symm
  obtain ⟨last, hlast, hqueues⟩ := h
  rcases hlast.cases_head with rfl | ⟨next, hnext, hrest⟩
  · exact hdream e hqueues.jumpsTo
  · -- after the dream nothing follows
    obtain rfl := hdream next hnext
    exact absurd ⟨last, hrest, hqueues⟩ (Rulebook.not_leadsTo_of_jumps_eq_nil (by decide))

/-- Whoever dreams comes to rest, although others may not sleep. -/
theorem sleepers_come_to_rest :
    (∀ item ∈ (lateNight bedtime true).pending, sleepRules.ComesToRest item) ∧
    Terminal.Concludes (Program.drain sleepRules true 5 (lateNight bedtime true))
      (fun t => t.pending = []) fun ending => ∃ f, ending = .failure f := by
  have hrest : ∀ item ∈ (lateNight bedtime true).pending, sleepRules.ComesToRest item := by
    refine List.forall_mem_singleton.mpr (Rulebook.comesToRest_of_leadsTo (.inl rfl) ?_)
    intro e he
    obtain rfl := leadsTo_bedtime he
    exact Rulebook.not_leadsTo_of_jumps_eq_nil (by decide)
  exact ⟨hrest,
    automatic_play_comes_to_rest sleepRules (lateNight bedtime true) hrest 5 (by decide)⟩

/-! ### An event that never rests -/

/-- Nobody sleeps: the only event that waits is one that goes on with itself. -/
structure Session.Sleepless (s : Session 1) : Prop where
  pending : ∃ item, s.pending = [item] ∧ item.character = "p1" ∧ item.event = insomnia ∧
    item.continuation = true
  seat : s.seat? "p1" = some 0

theorem execute_insomnia (w : World n) (i : Seat n) (scope : Scope) :
    Chance.Ensures (execute w i scope insomnia.action.toList) fun p =>
      p.next = some "失眠".toList ∧ p.pause = true := by
  have hread : Script.read insomnia.action.toList =
      [.mk insomnia.action.toList ⟨none, none, .jump "失眠".toList true⟩ []] := by
    rw [Script.read_eq]
    rfl
  rw [execute, hread, Script.run, Step.attempt]
  exact fun _ => ⟨rfl, rfl⟩

theorem settle_insomnia (s : Session n) (i : Seat n) (scope : Scope) (split : Bool) :
    Play.Ensures (sleepRules.settle s i insomnia scope split)
      (fun a => a.next = some "失眠".toList ∧ a.pause = true) fun _ => True := by
  refine .bind (.trivial _) fun pre _ => ?_
  refine .bind (.chance (.bind (execute_insomnia _ i _) fun p hp => .pure hp)) fun p hp => ?_
  refine .bind (.trivial _) fun text _ => ?_
  refine .bind (.trivial _) fun forgotten _ => ?_
  exact .bind (.trivial _) fun told _ => .pure hp

theorem not_cannotForget (name : String) : sleepRules.CannotForget name = fun _ => False := by
  funext f
  simp [Rulebook.CannotForget, sleepRules, Pattern.fill, Pattern.fillWith]

/-- Whatever is answered, nobody sleeps afterwards. -/
theorem resolve_sleepless {s : Session 1} (hs : s.Sleepless) (index : Int) :
    Play.Ensures (sleepRules.resolve s index) (fun t? => ∃ t, t? = some t ∧ t.Sleepless)
      fun _ => False := by
  obtain ⟨⟨item, hq, hid, he, hcontinuation⟩, hseat⟩ := hs
  have haccepts : Rulebook.accepts item index = true := by
    rw [Rulebook.accepts, hcontinuation]
    rfl
  have hseat' : Session.seat? { s with pending := [] } item.character = some 0 := hid ▸ hseat
  have hsettle := Play.Ensures.and
    (settle_insomnia { s with pending := [] } 0 item.scope
      ((s.character 0).hasTag sleepRules.settings.splitTag))
    (sleepRules.settle_evolves { s with pending := [] } 0 insomnia item.scope
      ((s.character 0).hasTag sleepRules.settings.splitTag))
  rw [not_cannotForget] at hsettle
  unfold Rulebook.resolve
  rw [hq]
  simp only [haccepts, Bool.not_true, Bool.false_eq_true, if_false, hseat']
  refine .map ?_
  rw [Rulebook.answer, if_pos hcontinuation, he]
  refine .bind hsettle fun a ⟨⟨hnext, hpause⟩, hspares⟩ => ?_
  -- the event follows itself after a pause
  have hagain : sleepRules.next? a = some insomnia := by
    rw [Rulebook.next?, hnext]
    rfl
  have hdeep : ¬sleepRules.isTooDeep 0 := by decide
  rw [Rulebook.follow_of_pause hagain hdeep (by rw [hpause]; rfl)]
  refine .bind (.chance (sleepRules.pendingOf_presents a.session 0 insomnia a.scope true))
    fun again hpresents => .pure ⟨_, rfl, ⟨again, ?_, ?_, hpresents.event_eq,
      hpresents.continuation_eq⟩, ?_⟩
  · show again :: a.session.pending = [again]
    rw [hspares.pending_eq]
  · rw [hpresents.character_eq, hspares.becomes.id_eq]
    exact Session.id_of_seat? hseat
  · show a.session.seat? "p1" = some 0
    rw [hspares.becomes.seat?_eq]
    exact hseat

theorem drain_sleepless (steps : Nat) {s : Session 1} (hs : s.Sleepless) :
    Terminal.Concludes (Program.drain sleepRules true steps s) (fun _ => False)
      (· = .restless) := by
  induction steps generalizing s with
  | zero =>
    obtain ⟨item, hq, -⟩ := hs.pending
    rw [Program.drain, hq]
    exact .stop rfl
  | succ steps ih =>
    obtain ⟨item, hq, -⟩ := hs.pending
    rw [Program.drain_succ hq]
    refine .bind (Program.showPending_concludes item _) fun _ _ => ?_
    refine .bind (Program.chooseFor_concludes _ s item _) fun k _ => ?_
    refine .bind (.move (resolve_sleepless hs k) fun f hf => hf.elim) fun t? ht => ?_
    obtain ⟨t, rfl, ht⟩ := ht
    exact ih ht

/-- An event that goes on with itself after a pause waits again after every answer, so no number
of answers empties the queue, and none of them fails. An event that waits for a choice but has no
options takes no answer at all. -/
theorem automatic_play_may_never_rest :
    (¬∃ steps, Terminal.Concludes (Program.drain sleepRules true steps (lateNight insomnia true))
      (fun t => t.pending = []) fun ending => ∃ f, ending = .failure f) ∧
    ¬∃ steps, Terminal.Concludes (Program.drain sleepRules true steps (lateNight dream false))
      (fun t => t.pending = []) fun ending => ∃ f, ending = .failure f := by
  have hrestless : ∀ {c : Terminal (Session 1)},
      Terminal.Concludes c (fun _ => False) (· = .restless) →
      ¬Terminal.Concludes c (fun t => t.pending = []) fun ending => ∃ f, ending = .failure f := by
    intro c hc h
    rcases (h (.fresh fun _ => 0)).exists_end (hc (.fresh fun _ => 0)) with
      ⟨r, -, hr⟩ | ⟨ending, ⟨f, rfl⟩, hf⟩
    · exact hr
    · cases hf
  constructor
  · rintro ⟨steps, h⟩
    have hsleepless : (lateNight insomnia true).Sleepless :=
      ⟨⟨_, rfl, rfl, rfl, rfl⟩, by decide⟩
    exact hrestless (drain_sleepless steps hsleepless) h
  · rintro ⟨steps, h⟩
    have hdream : ¬Program.CanAnswer ⟨"p1", dream, .empty, "", "", false⟩ := by
      simp [Program.CanAnswer, dream, Event.plain, Event.isInteractive]
    exact hrestless (Program.drain_of_not_canAnswer rfl hdream steps) h

end EventScript
