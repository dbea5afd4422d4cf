/-
Quotas of events.

A character that draws an event has not used it up yet, and drawing it counts it.  As counts
never fall, no character draws an event more often than its quota allows, whatever else
happens in between:

* `Rulebook.select?_ensures` — what is drawn is an event of the catalogue that is not used up;
* `Rulebook.timesFired_lt_of_drawn` — a move that succeeds counts the event drawn in it;
* `draws_stay_within_quota` — so draws stay within quotas over a whole game.
-/
import EventScript.Proofs.Composition
import EventScript.Proofs.Count

namespace EventScript

variable {n : Nat}

/-! ### What can be drawn -/

section Weights

variable {α K : Type} [Add K] [LT K] [DecidableLT K] [OfNat K 0]

theorem mem_of_firstBeyond? {weight : α → K} {target sum : K} {xs : List α} {x : α}
    (h : firstBeyond? weight target sum xs = some x) : x ∈ xs := by
  induction xs generalizing sum with
  | nil => cases h
  | cons y rest ih =>
    simp only [firstBeyond?] at h
    by_cases hy : target < sum + clipWeight (weight y)
    · rw [if_pos hy] at h
      obtain rfl := Option.some.inj h
      exact List.mem_cons_self
    · rw [if_neg hy] at h
      exact List.mem_cons_of_mem y (ih h)

/-- What is picked is one of the things to pick from. -/
theorem mem_of_pickByWeight? [Mul K] {weight : α → K} {draw : K} {xs : List α} {x : α}
    (h : pickByWeight? weight draw xs = some x) : x ∈ xs := by
  rw [pickByWeight?, Option.or_eq_some_iff] at h
  rcases h with h | ⟨-, h⟩
  · exact mem_of_firstBeyond? h
  · exact List.mem_of_getLast? h

/-- The only thing to pick from is picked. -/
theorem pickByWeight?_singleton [Mul K] (weight : α → K) (draw : K) (x : α) :
    pickByWeight? weight draw [x] = some x := by
  rw [pickByWeight?, firstBeyond?]
  by_cases h : draw * totalWeight weight [x] < 0 + clipWeight (weight x)
  · rw [if_pos h]
    rfl
  · rw [if_neg h]
    rfl

end Weights

namespace Rulebook

theorem candidatesAmong_ensures (w : World n) (i : Seat n) (events : List Event) :
    Chance.Ensures (candidatesAmong w i events) fun candidates => ∀ e ∈ candidates,
      e ∈ events ∧ e.isExhausted ((w.character i).timesFired e.id) = false := by
  induction events with
  | nil => exact .pure (by simp)
  | cons e rest ih =>
    have hrest : ∀ {others : List Event}, (∀ x ∈ others, x ∈ rest ∧
        x.isExhausted ((w.character i).timesFired x.id) = false) → ∀ x ∈ others,
          x ∈ e :: rest ∧ x.isExhausted ((w.character i).timesFired x.id) = false :=
      fun h x hx => ⟨List.mem_cons_of_mem e (h x hx).1, (h x hx).2⟩
    rw [candidatesAmong]
    by_cases he : e.isExhausted ((w.character i).timesFired e.id)
    · rw [if_pos he, pure_bind]
      exact .bind ih fun others hothers => .pure (hrest hothers)
    · rw [if_neg he]
      refine .bind_of_forall fun fits => .bind ih fun others hothers => .pure ?_
      cases fits with
      | false => exact hrest hothers
      | true =>
        have he' : e.isExhausted ((w.character i).timesFired e.id) = false :=
          Bool.eq_false_iff.mpr he
        exact List.forall_mem_cons.mpr ⟨⟨List.mem_cons_self, he'⟩, hrest hothers⟩

/-- What a character draws is an event of the catalogue that it has not used up. -/
theorem select?_ensures (rules : Rulebook) (s : Session n) (i : Seat n) :
    Chance.Ensures (rules.select? s i) fun e? => ∀ e ∈ e?,
      e ∈ rules.catalogue.events ∧ e.isExhausted ((s.character i).timesFired e.id) = false := by
  refine .bind (candidatesAmong_ensures _ i _) fun candidates hcandidates => ?_
  by_cases hnone : candidates.isEmpty
  · rw [if_pos hnone]
    exact .pure (by simp)
  · rw [if_neg hnone]
    refine .bind_of_forall fun k => .pure fun e he => ?_
    exact hcandidates e (mem_of_pickByWeight? he)

/-! ### Moves with draws -/

/-- Who draws which event in a move, if anybody does. -/
def drawn (rules : Rulebook) (s : Session n) : Move → Chance (Option (Seat n × Event))
  | .trigger id none =>
    match s.seat? id with
    | some i => Option.map (Prod.mk i) <$> rules.select? s i
    | none => pure none
  | _ => pure none

/-- A character that acts of its own accord processes the event that it draws. -/
theorem make_trigger (rules : Rulebook) (s : Session n) (id : String) :
    rules.make s (.trigger id none) = (do
      match ← Play.chance (rules.drawn s (.trigger id none)) with
      | some (i, e) => some <$> rules.process s i e .empty
      | none => pure none) := by
  show rules.trigger s id none = _
  rw [trigger, drawn]
  cases s.seat? id with
  | none => rfl
  | some i =>
    show Play.chance (rules.select? s i) >>= _ =
      Play.chance (Option.map (Prod.mk i) <$> rules.select? s i) >>= _
    have hmap : Play.chance (Option.map (Prod.mk i) <$> rules.select? s i) =
        Option.map (Prod.mk i) <$> Play.chance (rules.select? s i) := rfl
    rw [hmap, bind_map_left]
    refine bind_congr fun chosen => ?_
    cases chosen with
    | none => rfl
    | some e => rfl

theorem process_counts (rules : Rulebook) (s : Session n) (i : Seat n) (e : Event)
    (scope : Scope) :
    Play.Ensures (rules.process s i e scope)
      (fun t => ∃ later, s.Counts t (some i) (e :: later)) fun _ => True := by
  unfold Play.Ensures
  rw [run_process]
  refine .map (.mono (rules.processCourse_opens s i e scope) fun c hc => ?_)
  cases hr : c.result with
  | error f => trivial
  | ok t =>
    obtain ⟨a, later, -, -, -, hvisits⟩ := hc t hr
    refine ⟨later.visits.map Visit.event, ?_⟩
    rw [← List.singleton_append, ← hvisits]
    exact hc.counts hr

/-- Counts never fall in a move. -/
theorem make_timesFired_le (rules : Rulebook) (s : Session n) (m : Move) :
    Play.Ensures (rules.make s m) (fun t? => ∀ i id,
      (s.character i).timesFired id ≤ ((t?.getD s).character i).timesFired id)
      fun _ => True := by
  refine rules.make_ensures (.mono (rules.course_counts s m) fun c? hc? => ?_)
  cases c? with
  | none =>
    intro i id
    exact Int.le_refl _
  | some c =>
    cases hr : c.result with
    | error f =>
      rw [Course.answer_of_error hr]
      trivial
    | ok t =>
      rw [Course.answer_of_ok hr]
      exact (hc? c rfl t hr).timesFired_le

/-- Only characters that act of their own accord draw events. -/
theorem eq_trigger_of_drawn {rules : Rulebook} {s : Session n} {m : Move} {d : Dice}
    {who : Seat n × Event} (h : ((rules.drawn s m).run d).1 = some who) :
    ∃ id, m = .trigger id none ∧ s.seat? id = some who.1 ∧
      ((rules.select? s who.1).run d).1 = some who.2 := by
  match m, h with
  | .trigger id none, h =>
    cases hi : s.seat? id with
    | none =>
      rw [drawn, hi] at h
      cases h
    | some i =>
      rw [drawn, hi] at h
      obtain ⟨e, he, rfl⟩ := Option.map_eq_some_iff.mp h
      exact ⟨id, rfl, hi, he⟩
  | .trigger id (some e), h => cases h
  | .advance, h => cases h
  | .process .., h => cases h
  | .resolve _, h => cases h
  | .command .., h => cases h

/-- An event that was drawn was not used up, and a move that succeeds has counted it. -/
theorem timesFired_lt_of_drawn {rules : Rulebook} {s : Session n} {m : Move} {d d' : Dice}
    {t? : Option (Session n)} {i : Seat n} {e : Event}
    (hmake : (rules.make s m).run.run d = (.ok t?, d'))
    (hdrawn : ((rules.drawn s m).run d).1 = some (i, e)) :
    e.isExhausted ((s.character i).timesFired e.id) = false ∧
      (s.character i).timesFired e.id < ((t?.getD s).character i).timesFired e.id := by
  obtain ⟨id, rfl, hi, hselect⟩ := eq_trigger_of_drawn hdrawn
  refine ⟨((rules.select?_ensures s i) d e hselect).2, ?_⟩
  -- what is left of the move after the draw is that the event is processed
  have hrest : (some <$> rules.process s i e .empty).run.run
      ((rules.drawn s (.trigger id none)).run d).2 = (.ok t?, d') := by
    rw [← hmake, make_trigger, Play.run_chance_bind, hdrawn]
  have hcounts : Play.Ensures (some <$> rules.process s i e .empty)
      (fun t? => ∃ t later, t? = some t ∧ s.Counts t (some i) (e :: later)) fun _ => True :=
    .map (.mono (rules.process_counts s i e .empty) fun t ht => ⟨t, ht.choose, rfl, ht.choose_spec⟩)
  have hresult := hcounts ((rules.drawn s (.trigger id none)).run d).2
  rw [hrest] at hresult
  obtain ⟨t, later, rfl, hcount⟩ := hresult
  rw [Option.getD_some, hcount.own i rfl, List.countP_cons, if_pos (decide_eq_true rfl)]
  omega

end Rulebook

/-! ### Games with draws -/

/-- Have two events the same id and the same quota? -/
def Event.sharesQuota (e x : Event) : Bool :=
  x.id == e.id && x.maxTriggers == e.maxTriggers

/-- Is it the character in a seat that draws, and does what it draws share an event's quota? -/
def Event.isDrawnBy (e : Event) (i : Seat n) (draw : Seat n × Event) : Bool :=
  draw.1 == i && e.sharesQuota draw.2

namespace Session

/-- A game of moves that succeed, each by rules of its own, leads from one session to another;
on the way the draws of a list were made, in this order. -/
inductive Plays (s : Session n) : List (Seat n × Event) → Session n → Prop
  | start : Plays s [] s
  | move {draws : List (Seat n × Event)} {t : Session n} (h : Plays s draws t)
      {rules : Rulebook} {m : Move} {d d' : Dice} {t? : Option (Session n)}
      (hmake : (rules.make t m).run.run d = (.ok t?, d')) :
      Plays s (draws ++ ((rules.drawn t m).run d).1.toList) (t?.getD t)

variable {s t : Session n} {draws : List (Seat n × Event)} {e : Event}

/-- Every draw was counted, and none went beyond the quota. -/
theorem Plays.countP_le (h : s.Plays draws t) (i : Seat n)
    (hs : 0 ≤ (s.character i).timesFired e.id) (he : e.maxTriggers ≠ -1) :
    (draws.countP (e.isDrawnBy i) : Int) ≤ (t.character i).timesFired e.id ∧
      (draws.countP (e.isDrawnBy i) : Int) ≤ max 0 e.maxTriggers := by
  induction h with
  | start => exact ⟨hs, Int.le_max_left 0 _⟩
  | @move draws t _ rules m d d' t? hmake ih =>
    obtain ⟨hcount, hquota⟩ := ih
    -- the count is at least the number of draws so far, and below the quota at each of them
    have hmono : (t.character i).timesFired e.id ≤ ((t?.getD t).character i).timesFired e.id := by
      have hok := rules.make_timesFired_le t m d
      rw [hmake] at hok
      exact hok i e.id
    cases hdrawn : ((rules.drawn t m).run d).1 with
    | none =>
      rw [Option.toList_none, List.append_nil]
      exact ⟨Int.le_trans hcount hmono, hquota⟩
    | some draw =>
      rw [Option.toList_some, List.countP_append, List.countP_singleton]
      by_cases hdraw : e.isDrawnBy i draw
      · -- the draw counts against the quota
        obtain ⟨j, x⟩ := draw
        obtain ⟨hj, hx⟩ := Bool.and_eq_true_iff.mp hdraw
        obtain ⟨hid, hmax⟩ := Bool.and_eq_true_iff.mp hx
        obtain rfl : j = i := eq_of_beq hj
        obtain ⟨hunused, hless⟩ := Rulebook.timesFired_lt_of_drawn hmake hdrawn
        rw [eq_of_beq hid] at hunused hless
        have hleft : (t.character j).timesFired e.id < e.maxTriggers := by
          rw [Event.isExhausted, eq_of_beq hmax, decide_eq_true he, Bool.true_and] at hunused
          exact Int.not_le.mp (of_decide_eq_false hunused)
        rw [if_pos hdraw]
        omega
      · rw [if_neg hdraw]
        exact ⟨Int.le_trans hcount hmono, hquota⟩

end Session

/-- Over a whole game no character draws an event more often than its quota allows, not even
if all events count that have its id and its quota. -/
theorem draws_stay_within_quota (s t : Session n) (draws : List (Seat n × Event))
    (h : s.Plays draws t) (hs : ∀ i id, 0 ≤ (s.character i).timesFired id) (i : Seat n)
    (e : Event) (he : e.maxTriggers ≠ -1) :
    (draws.countP (e.isDrawnBy i) : Int) ≤ max 0 e.maxTriggers :=
  (h.countP_le i (hs i e.id) he).2

/-- An event for one meeting at most. -/
def meeting : Event :=
  { Event.plain "相遇" with maxTriggers := 1, options := [⟨"好", "", ""⟩] }

def meetingRules : Rulebook :=
  ⟨⟨[meeting]⟩, .standard⟩

/-- The first day of a trainer without companions. -/
def firstDay : Session 1 :=
  { phase := .playing, turn := 1, maxTurns := 72, cast := .singleton (.plain "p1" "训练员" "甲"),
    log := [], pending := [] }

theorem meeting_drawn (d : Dice) :
    ((meetingRules.drawn firstDay (.trigger "p1" none)).run d).1 = some (0, meeting) := by
  have hcandidates : Rulebook.candidatesAmong (firstDay.world Settings.standard) 0 [meeting] =
      pure [meeting] := by
    rw [Rulebook.candidatesAmong, if_neg (by decide)]
    show evaluateCondition _ none 0 .empty [] >>= _ = _
    rw [evaluateCondition_blank _ none 0 .empty rfl]
    rfl
  have hselect : meetingRules.select? firstDay 0 =
      (do
        let x ← Dice.rollUnit
        pure (pickByWeight? Event.weight x [meeting])) := by
    show Rulebook.candidatesAmong (firstDay.world Settings.standard) 0 [meeting] >>= _ = _
    rw [hcandidates]
    rfl
  show Option.map (Prod.mk 0) ((meetingRules.select? firstDay 0).run d).1 = some (0, meeting)
  rw [hselect]
  exact congrArg (Option.map (Prod.mk 0)) (pickByWeight?_singleton Event.weight _ meeting)

/-- Waiting for an answer never fails. -/
theorem meeting_succeeds :
    Play.Ensures (meetingRules.make firstDay (.trigger "p1" none)) (fun _ => True)
      fun _ => False := by
  have hperform : meetingRules.perform firstDay 0 meeting .empty =
      meetingRules.queue firstDay 0 meeting .empty := rfl
  have hany : ∀ {α : Type} (c : Chance α), Play.Ensures (Play.chance c) (fun _ => True)
      fun _ => False := fun _ => .chance (.of_forall fun _ => trivial)
  have hqueue : Play.Ensures (meetingRules.queue firstDay 0 meeting .empty)
      (fun a => a.next = none) fun _ => False :=
    .bind (hany _) fun _ _ => .bind (hany _) fun _ _ => .pure rfl
  have hprocess : Play.Ensures (meetingRules.process firstDay 0 meeting .empty) (fun _ => True)
      fun _ => False := by
    rw [Rulebook.process, hperform]
    refine .bind hqueue fun a ha => ?_
    have hnext : meetingRules.next? a = none := by rw [Rulebook.next?, ha]; rfl
    rw [Rulebook.follow, hnext]
    exact .pure trivial
  refine .bind (.chance (meetingRules.select?_ensures firstDay 0)) fun chosen hchosen => ?_
  cases chosen with
  | none => exact .pure trivial
  | some e =>
    obtain rfl : e = meeting := List.mem_singleton.mp (hchosen e rfl).1
    exact .map hprocess

theorem one_meeting_at_most :
    ∃ t, firstDay.Plays [(0, meeting)] t ∧
      ([((0 : Seat 1), meeting)].countP (meeting.isDrawnBy 0) : Int) ≤ max 0 1 := by
  obtain ⟨t?, d', hmake⟩ : ∃ t? d', (meetingRules.make firstDay (.trigger "p1" none)).run.run
      (.fresh fun _ => 0) = (.ok t?, d') := by
    have hok := meeting_succeeds (.fresh fun _ => 0)
    cases hrun : (meetingRules.make firstDay (.trigger "p1" none)).run.run (.fresh fun _ => 0) with
    | mk r d' =>
      rw [hrun] at hok
      cases r with
      | ok t? => exact ⟨t?, d', rfl⟩
      | error f => exact hok.elim
  have hplays := Session.Plays.move .start hmake
  rw [meeting_drawn] at hplays
  have hcounts : ∀ i id, 0 ≤ (firstDay.character i).timesFired id := by
    intro i id
    obtain rfl : i = 0 := Subsingleton.elim _ _
    exact Int.le_refl 0
  exact ⟨_, hplays, draws_stay_within_quota firstDay _ _ hplays hcounts 0 meeting (by decide)⟩

end EventScript
