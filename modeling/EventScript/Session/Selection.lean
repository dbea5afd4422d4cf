/-
Choosing an event by weight.

The events that a character can draw are those not used up whose trigger holds, in the
order of the catalogue.  A draw below one is scaled to the sum of their weights, and the
first event whose running sum exceeds it is chosen; weights below zero count as zero.  If
no running sum exceeds it, the last event is chosen.

The choice is defined over any kind of numbers, so that it can be studied over exact ones.
-/
import EventScript.Session.Basic

namespace EventScript

/-! ### Weights -/

section Weights

variable {α K : Type} [Add K] [Mul K] [LT K] [DecidableLT K] [OfNat K 0]

/-- A weight that is not below zero. -/
def clipWeight (w : K) : K :=
  if 0 < w then w else 0

/-- The sum of weights. -/
def totalWeight (weight : α → K) (xs : List α) : K :=
  xs.foldl (fun sum x => sum + clipWeight (weight x)) 0

/-- The first member at which the running sum of weights exceeds a target. -/
def firstBeyond? (weight : α → K) (target : K) : K → List α → Option α
  | _, [] => none
  | sum, x :: rest =>
    let sum := sum + clipWeight (weight x)
    if target < sum then some x else firstBeyond? weight target sum rest

/-- The member that a draw below one chooses. -/
def pickByWeight? (weight : α → K) (draw : K) (xs : List α) : Option α :=
  (firstBeyond? weight (draw * totalWeight weight xs) 0 xs).or xs.getLast?

end Weights

/-! ### Events -/

namespace Rulebook

variable {n : Nat}

/-- The events among the given ones that the character in a seat can draw. -/
def candidatesAmong (w : World n) (i : Seat n) : List Event → Chance (List Event)
  | [] => pure []
  | e :: rest => do
    let fits ←
      if e.isExhausted ((w.character i).timesFired e.id) then pure false
      else evaluateCondition w none i .empty e.trigger.toList
    let others ← candidatesAmong w i rest
    pure (if fits then e :: others else others)

/-- The event that the character in a seat draws, if it can draw any. -/
def select? (rules : Rulebook) (s : Session n) (i : Seat n) : Chance (Option Event) := do
  let candidates ← candidatesAmong (s.world rules.settings) i rules.catalogue.events
  if candidates.isEmpty then pure none
  else do
    let x ← Dice.rollUnit
    pure (pickByWeight? Event.weight x candidates)

end Rulebook

end EventScript
