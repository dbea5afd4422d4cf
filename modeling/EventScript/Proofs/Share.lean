/-
Shares of the draws.

The candidates of a draw lie side by side on a line, each as long as its weight, where a weight
below zero is no length at all.  A draw below one is scaled to the length of the line and falls
on one place of it, so every candidate is drawn in proportion to its weight:

* `Rulebook.Sifts` — which events a character can draw, trigger after trigger;
* `firstBeyond?_eq_getElem?` — the search along the line ends where the draw falls;
* `exists_mem_share`, `eq_of_mem_share`, `share_eq_Ico` — the shares divide all draws below one,
  and each is as long as its weight demands;
* `weighted_draws_are_proportional` — what a character draws, and what it rolls for that.
-/
import EventScript.Proofs.Quota
import EventScript.Proofs.Rolling
import Mathlib.Algebra.Order.Field.Rat
import Mathlib.Order.Interval.Set.Defs
import Mathlib.Tactic.Linarith
import Mathlib.Tactic.Positivity

namespace EventScript

/-! ### Weights as exact numbers -/

section Weights

variable {α : Type} {weight : α → ℚ} {xs : List α}

/-- The sum of weights, without those below zero. -/
def weightSum (weight : α → ℚ) (xs : List α) : ℚ :=
  (xs.map fun x => max 0 (weight x)).sum

/-- The draws below one that fall to the member at a position of a list. -/
def share (weight : α → ℚ) (xs : List α) (j : ℕ) : Set ℚ :=
  {r | weightSum weight (xs.take j) ≤ r * weightSum weight xs ∧
    r * weightSum weight xs < weightSum weight (xs.take (j + 1))}

theorem clipWeight_eq_max (w : ℚ) : clipWeight w = max 0 w := by
  unfold clipWeight
  split
  · rename_i hw
    exact (max_eq_right hw.le).symm
  · rename_i hw
    exact (max_eq_left (not_lt.mp hw)).symm

theorem weightSum_cons (weight : α → ℚ) (x : α) (xs : List α) :
    weightSum weight (x :: xs) = max 0 (weight x) + weightSum weight xs := by
  rw [weightSum, List.map_cons, List.sum_cons, weightSum]

theorem weightSum_nonneg (weight : α → ℚ) (xs : List α) : 0 ≤ weightSum weight xs := by
  induction xs with
  | nil => exact le_refl _
  | cons x rest ih =>
    rw [weightSum_cons]
    exact add_nonneg (le_max_left ..) ih

theorem weightSum_take_succ (weight : α → ℚ) (xs : List α) {j : ℕ} (hj : j < xs.length) :
    weightSum weight (xs.take (j + 1)) = weightSum weight (xs.take j) + max 0 (weight xs[j]) := by
  rw [weightSum, List.take_succ_eq_append_getElem hj, List.map_append, List.sum_append,
    List.map_singleton, List.sum_singleton, weightSum]

theorem weightSum_take_mono (weight : α → ℚ) (xs : List α) :
    Monotone fun j => weightSum weight (xs.take j) := by
  refine monotone_nat_of_le_succ fun j => ?_
  rcases Nat.lt_or_ge j xs.length with hj | hj
  · rw [weightSum_take_succ weight xs hj]
    exact le_add_of_nonneg_right (le_max_left ..)
  · rw [List.take_of_length_le hj, List.take_of_length_le (Nat.le_succ_of_le hj)]

theorem weightSum_take_le (weight : α → ℚ) (xs : List α) (j : ℕ) :
    weightSum weight (xs.take j) ≤ weightSum weight xs := by
  calc weightSum weight (xs.take j)
      ≤ weightSum weight (xs.take (j + xs.length)) :=
        weightSum_take_mono weight xs (Nat.le_add_right j xs.length)
    _ = weightSum weight xs := by rw [List.take_of_length_le (Nat.le_add_left xs.length j)]

theorem totalWeight_eq_weightSum (weight : α → ℚ) (xs : List α) :
    totalWeight weight xs = weightSum weight xs := by
  have key : ∀ start : ℚ, xs.foldl (fun sum x => sum + clipWeight (weight x)) start =
      start + weightSum weight xs := by
    induction xs with
    | nil => exact fun start => (add_zero start).symm
    | cons x rest ih =>
      intro start
      rw [List.foldl_cons, ih, weightSum_cons, clipWeight_eq_max, add_assoc]
  rw [totalWeight, key, zero_add]

/-! ### The search along the line -/

/-- The search ends at the member under which the target lies. -/
theorem firstBeyond?_eq_getElem? {target sum : ℚ} {j : ℕ}
    (hlow : sum + weightSum weight (xs.take j) ≤ target)
    (hhigh : target < sum + weightSum weight (xs.take (j + 1))) :
    firstBeyond? weight target sum xs = xs[j]? := by
  induction xs generalizing sum j with
  | nil =>
    rw [List.take_nil] at hlow hhigh
    exact absurd (hlow.trans_lt hhigh) (lt_irrefl _)
  | cons x rest ih =>
    rw [List.take_succ_cons, weightSum_cons, ← clipWeight_eq_max, ← add_assoc] at hhigh
    rw [firstBeyond?]
    cases j with
    | zero =>
      have hx : target < sum + clipWeight (weight x) := by
        rwa [List.take_zero, weightSum, List.map_nil, List.sum_nil, add_zero] at hhigh
      rw [if_pos hx]
      rfl
    | succ j =>
      rw [List.take_succ_cons, weightSum_cons, ← clipWeight_eq_max, ← add_assoc] at hlow
      have hrest := weightSum_nonneg weight (rest.take j)
      rw [if_neg (by linarith), ih hlow hhigh, List.getElem?_cons_succ]

/-- Beyond the end of the line nothing is found. -/
theorem firstBeyond?_eq_none {target sum : ℚ} (h : sum + weightSum weight xs ≤ target) :
    firstBeyond? weight target sum xs = none := by
  induction xs generalizing sum with
  | nil => rfl
  | cons x rest ih =>
    rw [weightSum_cons, ← clipWeight_eq_max, ← add_assoc] at h
    have hrest := weightSum_nonneg weight rest
    rw [firstBeyond?, if_neg (by linarith), ih h]

/-! ### Shares -/

theorem exists_mem_share {r : ℚ} (hr : 0 ≤ r) (hr' : r < 1) (hsum : 0 < weightSum weight xs) :
    ∃ j < xs.length, r ∈ share weight xs j := by
  have key : ∀ m, r * weightSum weight xs < weightSum weight (xs.take m) →
      ∃ j < m, r ∈ share weight xs j := by
    intro m hm
    induction m with
    | zero => exact absurd hm (not_lt.mpr (mul_nonneg hr hsum.le))
    | succ m ih =>
      by_cases h : r * weightSum weight xs < weightSum weight (xs.take m)
      · obtain ⟨j, hj, hmem⟩ := ih h
        exact ⟨j, Nat.lt_succ_of_lt hj, hmem⟩
      · exact ⟨m, Nat.lt_succ_self m, not_lt.mp h, hm⟩
  refine key xs.length ?_
  rw [List.take_length]
  exact mul_lt_of_lt_one_left hsum hr'

theorem eq_of_mem_share {r : ℚ} {j k : ℕ} (hj : r ∈ share weight xs j)
    (hk : r ∈ share weight xs k) : j = k := by
  -- a later share begins where an earlier one has ended
  have key : ∀ {a b : ℕ}, r ∈ share weight xs a → r ∈ share weight xs b → ¬a < b :=
    fun ha hb hab => absurd ((weightSum_take_mono weight xs hab).trans hb.1) (not_le.mpr ha.2)
  exact Nat.le_antisymm (Nat.le_of_not_lt (key hk hj)) (Nat.le_of_not_lt (key hj hk))

theorem share_eq_Ico (hsum : 0 < weightSum weight xs) (j : ℕ) :
    share weight xs j = Set.Ico (weightSum weight (xs.take j) / weightSum weight xs)
      (weightSum weight (xs.take (j + 1)) / weightSum weight xs) := by
  ext r
  rw [Set.mem_Ico, div_le_iff₀ hsum, lt_div_iff₀ hsum]
  rfl

/-- The shares of the members of a list are half-open intervals below one, each as long as the
part that the weight of its member has of all weights. -/
structure IsProportional (weight : α → ℚ) (xs : List α) : Prop where
  interval : ∀ j : Fin xs.length, share weight xs j =
    Set.Ico (weightSum weight (xs.take j) / weightSum weight xs)
      (weightSum weight (xs.take (j + 1)) / weightSum weight xs)
  length : ∀ j : Fin xs.length, weightSum weight (xs.take (j + 1)) / weightSum weight xs -
    weightSum weight (xs.take j) / weightSum weight xs = max 0 (weight xs[j]) / weightSum weight xs
  below : ∀ j : Fin xs.length, share weight xs j ⊆ Set.Ico 0 1

theorem isProportional (hsum : 0 < weightSum weight xs) : IsProportional weight xs := by
  refine ⟨fun j => share_eq_Ico hsum j, fun j => ?_, fun j r hr => ⟨?_, ?_⟩⟩
  · rw [← sub_div, weightSum_take_succ weight xs j.isLt, add_sub_cancel_left]
    rfl
  · have hlow : 0 ≤ r * weightSum weight xs := (weightSum_nonneg weight _).trans hr.1
    exact nonneg_of_mul_nonneg_left hlow hsum
  · have hhigh : r * weightSum weight xs < weightSum weight xs :=
      hr.2.trans_le (weightSum_take_le weight xs _)
    exact (mul_lt_iff_lt_one_left hsum).mp hhigh

/-- Where weights are exact, a draw below one falls to one member of a list. -/
structure FallsTo (weight : α → ℚ) (xs : List α) (r : ℚ) (x? : Option α) : Prop where
  /-- The draw lies in one share only, and the member with that share is drawn. -/
  inside : 0 < weightSum weight xs → ∃ j : Fin xs.length, x? = some xs[j] ∧ 0 < weight xs[j] ∧
    ∀ k : Fin xs.length, r ∈ share weight xs k ↔ k = j
  /-- If nothing weighs anything, the last member is drawn. -/
  last : weightSum weight xs = 0 → x? = xs.getLast?

theorem pickByWeight?_fallsTo (weight : α → ℚ) (xs : List α) {r : ℚ} (hr : 0 ≤ r) (hr' : r < 1) :
    FallsTo weight xs r (pickByWeight? weight r xs) := by
  constructor
  · intro hsum
    obtain ⟨j, hj, hmem⟩ := exists_mem_share hr hr' hsum
    refine ⟨⟨j, hj⟩, ?_, ?_, fun k => ⟨fun hk => Fin.ext (eq_of_mem_share hk hmem), ?_⟩⟩
    · rw [pickByWeight?, totalWeight_eq_weightSum,
        firstBeyond?_eq_getElem? ((zero_add _).trans_le hmem.1) (hmem.2.trans_eq (zero_add _).symm),
        List.getElem?_eq_getElem hj]
      rfl
    · -- a member without weight has no share
      have hlength : weightSum weight (xs.take j) < weightSum weight (xs.take (j + 1)) :=
        hmem.1.trans_lt hmem.2
      rw [weightSum_take_succ weight xs hj, lt_add_iff_pos_right, lt_max_iff] at hlength
      exact hlength.resolve_left (lt_irrefl 0)
    · rintro rfl
      exact hmem
  · intro hsum
    rw [pickByWeight?, totalWeight_eq_weightSum, hsum, mul_zero,
      firstBeyond?_eq_none ((zero_add _).trans_le hsum.le), Option.none_or]

end Weights

/-! ### What a character draws -/

variable {n : Nat}

namespace Rulebook

/-- With the dice at hand, going through events in order leaves the character in a seat with
those that it can draw. The trigger of an event is asked only if the event is not used up. -/
inductive Sifts (w : World n) (i : Seat n) : List Event → Dice → List Event → Dice → Prop
  | nil (d : Dice) : Sifts w i [] d [] d
  | exhausted {e : Event} {rest candidates : List Event} {d d' : Dice}
      (he : e.isExhausted ((w.character i).timesFired e.id) = true)
      (hrest : Sifts w i rest d candidates d') : Sifts w i (e :: rest) d candidates d'
  | fails {e : Event} {rest candidates : List Event} {d asked d' : Dice}
      (he : e.isExhausted ((w.character i).timesFired e.id) = false)
      (htrigger : (evaluateCondition w none i .empty e.trigger.toList).run d = (false, asked))
      (hrest : Sifts w i rest asked candidates d') : Sifts w i (e :: rest) d candidates d'
  | holds {e : Event} {rest candidates : List Event} {d asked d' : Dice}
      (he : e.isExhausted ((w.character i).timesFired e.id) = false)
      (htrigger : (evaluateCondition w none i .empty e.trigger.toList).run d = (true, asked))
      (hrest : Sifts w i rest asked candidates d') : Sifts w i (e :: rest) d (e :: candidates) d'

theorem sifts_candidatesAmong (w : World n) (i : Seat n) (events : List Event) (d : Dice) :
    Sifts w i events d ((candidatesAmong w i events).run d).1
      ((candidatesAmong w i events).run d).2 := by
  induction events generalizing d with
  | nil => exact .nil d
  | cons e rest ih =>
    rw [candidatesAmong]
    cases he : e.isExhausted ((w.character i).timesFired e.id) with
    | true => exact .exhausted he (ih d)
    | false =>
      cases htrigger : (evaluateCondition w none i .empty e.trigger.toList).run d with
      | mk fits asked =>
        have hrun : ((do
            let fits ← evaluateCondition w none i .empty e.trigger.toList
            let others ← candidatesAmong w i rest
            pure (if fits then e :: others else others) : Chance (List Event))).run d =
            (if fits then e :: ((candidatesAmong w i rest).run asked).1
              else ((candidatesAmong w i rest).run asked).1,
              ((candidatesAmong w i rest).run asked).2) := by
          rw [StateT.run_bind, htrigger]
          rfl
        simp only [Bool.false_eq_true, if_false]
        rw [hrun]
        cases fits with
        | false => exact .fails he htrigger (ih asked)
        | true => exact .holds he htrigger (ih asked)

/-- Sifting events with given dice has one outcome only. -/
theorem Sifts.unique {w : World n} {i : Seat n} {events xs ys : List Event} {d d' d'' : Dice}
    (hx : Sifts w i events d xs d') (hy : Sifts w i events d ys d'') : ys = xs ∧ d'' = d' := by
  induction hx generalizing ys d'' with
  | nil d =>
    cases hy
    exact ⟨rfl, rfl⟩
  | exhausted he _ ih =>
    cases hy with
    | exhausted _ hrest => exact ih hrest
    | fails he' _ _ => exact absurd (he.symm.trans he') (by decide)
    | holds he' _ _ => exact absurd (he.symm.trans he') (by decide)
  | fails he htrigger _ ih =>
    cases hy with
    | exhausted he' _ => exact absurd (he'.symm.trans he) (by decide)
    | fails _ htrigger' hrest =>
      obtain ⟨-, rfl⟩ := Prod.mk.inj (htrigger'.symm.trans htrigger)
      exact ih hrest
    | holds _ htrigger' _ =>
      exact absurd (Prod.mk.inj (htrigger'.symm.trans htrigger)).1 (by decide)
  | holds he htrigger _ ih =>
    cases hy with
    | exhausted he' _ => exact absurd (he'.symm.trans he) (by decide)
    | fails _ htrigger' _ =>
      exact absurd (Prod.mk.inj (htrigger'.symm.trans htrigger)).1 (by decide)
    | holds _ htrigger' hrest =>
      obtain ⟨-, rfl⟩ := Prod.mk.inj (htrigger'.symm.trans htrigger)
      obtain ⟨rfl, rfl⟩ := ih hrest
      exact ⟨rfl, rfl⟩

/-- Asking triggers only rolls the dice on. -/
theorem Sifts.later {w : World n} {i : Seat n} {events candidates : List Event} {d d' : Dice}
    (h : Sifts w i events d candidates d') : d.Later d' := by
  have hasked : ∀ {e : Event} {fits : Bool} {d asked : Dice},
      (evaluateCondition w none i .empty e.trigger.toList).run d = (fits, asked) →
      d.Later asked := by
    intro e fits d asked htrigger
    have hlater : d.Later ((evaluateCondition w none i .empty e.trigger.toList).run d).2 :=
      advances_evaluateCondition none e.trigger.toList d
    rwa [htrigger] at hlater
  induction h with
  | nil d => exact .refl d
  | exhausted _ _ ih => exact ih
  | fails _ htrigger _ ih => exact (hasked htrigger).trans ih
  | holds _ htrigger _ ih => exact (hasked htrigger).trans ih

section Numbers

variable {K : Type} [Add K] [Mul K] [LT K] [DecidableLT K] [OfNat K 0]

/-- The event that the character in a seat draws, if weights and draws are given in numbers of
any kind. -/
def selectBy (rules : Rulebook) (s : Session n) (i : Seat n) (weight : Event → K)
    (fraction : Float → K) : Chance (Option Event) := do
  let candidates ← candidatesAmong (s.world rules.settings) i rules.catalogue.events
  if candidates.isEmpty then pure none
  else do
    let x ← Dice.rollUnit
    pure (pickByWeight? weight (fraction x) candidates)

theorem pickByWeight?_ne_none {α : Type} (weight : α → K) (draw : K) {xs : List α}
    (hxs : xs ≠ []) : pickByWeight? weight draw xs ≠ none := by
  rw [pickByWeight?, Ne, Option.or_eq_none_iff, List.getLast?_eq_none_iff]
  exact fun h => hxs h.2

/-- Without candidates nothing is drawn and nothing rolled; otherwise dice are rolled once, and
the roll decides between the candidates. -/
theorem run_selectBy (rules : Rulebook) (s : Session n) (i : Seat n) (weight : Event → K)
    (fraction : Float → K) {d later : Dice} {candidates : List Event}
    (h : Sifts (s.world rules.settings) i rules.catalogue.events d candidates later) :
    (rules.selectBy s i weight fraction).run d =
      if candidates.isEmpty then (none, later)
      else (pickByWeight? weight (fraction (Dice.rollUnit.run later).1) candidates,
        { later with rolls := later.rolls.push .unit }) := by
  obtain ⟨hcandidates, hlater⟩ := h.unique (sifts_candidatesAmong _ i _ d)
  rw [selectBy, StateT.run_bind]
  generalize (candidatesAmong (s.world rules.settings) i rules.catalogue.events).run d = found
    at hcandidates hlater
  obtain ⟨xs, d'⟩ := found
  obtain rfl : xs = candidates := hcandidates
  obtain rfl : d' = later := hlater
  cases xs with
  | nil => rfl
  | cons e rest => rfl

end Numbers

end Rulebook

/-- The candidates are the events that are not used up and whose trigger holds, asked in order.
Whatever numbers weights and draws are given in, one of the candidates is drawn with one more
roll, unless there are none.  In exact numbers, with draws from zero up to below one, every
candidate has a share of the draws that is as long as its part of all weights, and the candidate is
drawn in whose share the roll falls; if nothing weighs anything, it is the last one. -/
theorem weighted_draws_are_proportional (rules : Rulebook) (s : Session n) (i : Seat n)
    (d : Dice) (weight : Event → ℚ) (fraction : Float → ℚ)
    (hfraction : ∀ j, 0 ≤ fraction (d.units j) ∧ fraction (d.units j) < 1) :
    rules.select? s i = rules.selectBy s i Event.weight id ∧
    ∃ candidates later,
      Rulebook.Sifts (s.world rules.settings) i rules.catalogue.events d candidates later ∧
      (∀ others d', Rulebook.Sifts (s.world rules.settings) i rules.catalogue.events d others d' →
        others = candidates ∧ d' = later) ∧
      (∀ {K : Type} [Add K] [Mul K] [LT K] [DecidableLT K] [OfNat K 0] (size : Event → K)
        (value : Float → K),
        (candidates = [] → (rules.selectBy s i size value).run d = (none, later)) ∧
        (candidates ≠ [] → ∃ e ∈ candidates, (rules.selectBy s i size value).run d =
          (some e, { later with rolls := later.rolls.push .unit }))) ∧
      (0 < weightSum weight candidates → IsProportional weight candidates) ∧
      FallsTo weight candidates (fraction (Dice.rollUnit.run later).1)
        ((rules.selectBy s i weight fraction).run d).1 := by
  have hsifts := Rulebook.sifts_candidatesAmong (s.world rules.settings) i rules.catalogue.events d
  refine ⟨rfl, _, _, hsifts, fun others d' => hsifts.unique, ?_, isProportional, ?_⟩
  · intro K _ _ _ _ _ size value
    rw [rules.run_selectBy s i size value hsifts]
    constructor
    · intro hnone
      rw [hnone]
      rfl
    · intro hsome
      obtain ⟨e, he⟩ := Option.ne_none_iff_exists'.mp (Rulebook.pickByWeight?_ne_none size
        (value (Dice.rollUnit.run _).1) hsome)
      refine ⟨e, mem_of_pickByWeight? he, ?_⟩
      rw [if_neg (by rwa [List.isEmpty_iff]), he]
  · rw [rules.run_selectBy s i weight fraction hsifts]
    obtain ⟨hlow, hhigh⟩ := hfraction ((Rulebook.candidatesAmong _ i _).run d).2.rolls.size
    rw [← hsifts.later.units_eq] at hlow hhigh
    split
    · -- without candidates nothing weighs anything
      rename_i hnone
      rw [List.isEmpty_iff.mp hnone]
      exact ⟨fun hsum => absurd hsum (lt_irrefl 0), fun _ => rfl⟩
    · exact pickByWeight?_fallsTo weight _ hlow hhigh

/-- Exercise on three mornings out of four, and a walk on the fourth. -/
def exerciseRules : Rulebook :=
  ⟨⟨[{ Event.plain "晨练" with weight := 3.0 }, Event.plain "散步"]⟩, .standard⟩

/-- The weights of the mornings as exact numbers. -/
def exerciseWeight (e : Event) : ℚ :=
  if e.id = "晨练" then 3 else 1

theorem sifts_exercise (d : Dice) :
    Rulebook.Sifts (firstDay.world exerciseRules.settings) 0 exerciseRules.catalogue.events d
      exerciseRules.catalogue.events d := by
  have htrigger : (evaluateCondition (firstDay.world exerciseRules.settings) none 0 .empty
      []).run d = (true, d) := by
    rw [evaluateCondition_blank _ none 0 .empty rfl]
    rfl
  exact .holds (by decide) htrigger (.holds (by decide) htrigger (.nil d))

/-- A draw as an exact number: four fifths, whatever it is. -/
def exerciseDraw (_ : Float) : ℚ :=
  4 / 5

/-- The dice of a morning. -/
def morningDice : Dice :=
  .fresh fun _ => 800

/-- Four fifths of the way along the line lies the walk. -/
theorem walk_is_drawn :
    (∀ j, 0 ≤ exerciseDraw (morningDice.units j) ∧ exerciseDraw (morningDice.units j) < 1) ∧
    ((exerciseRules.selectBy firstDay 0 exerciseWeight exerciseDraw).run morningDice).1 =
      some (.plain "散步") := by
  have hfraction : ∀ j, 0 ≤ exerciseDraw (morningDice.units j) ∧
      exerciseDraw (morningDice.units j) < 1 := fun j => by
    show (0 : ℚ) ≤ 4 / 5 ∧ (4 / 5 : ℚ) < 1
    decide +kernel
  refine ⟨hfraction, ?_⟩
  obtain ⟨-, candidates, later, -, hunique, -, -, hfalls⟩ := weighted_draws_are_proportional
    exerciseRules firstDay 0 morningDice exerciseWeight exerciseDraw hfraction
  obtain ⟨rfl, rfl⟩ := hunique _ _ (sifts_exercise _)
  obtain ⟨j, hdrawn, -, hshare⟩ := hfalls.inside (by decide +kernel)
  have hwalk : (1 : Fin 2) = j := (hshare (1 : Fin 2)).mp (by
    show _ ≤ _ ∧ _ < _
    decide +kernel)
  rw [hdrawn, ← hwalk]
  rfl

end EventScript
