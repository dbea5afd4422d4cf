/-
Conditions.

A condition is made of clauses joined by `||` and `&&`, where `&&` binds tighter.  A clause
is `true`, `false`, a condition in round brackets, `存在角色满足(…)`, or a predicate.  A
blank clause holds; a clause that makes no sense does not.

`Condition.read` takes a text apart, and `Condition.holds` evaluates the parts from left
to right, only as far as the answer needs.  `存在角色满足(C)` asks whether `C` holds of some
character as the acting one; inside, the variable `__outer` refers to the character for
which the question was asked.

Reading recurses into brackets only, so the number of brackets that a text opens bounds
how deep it goes (`Clause.openers_lt`).
-/
import EventScript.Script.Predicate

namespace EventScript

/-! ### Clauses -/

/-- What a single clause is. -/
inductive Clause where
  | constant (b : Bool)
  | group (inside : Text)
  | someone (inside : Text)
  | predicate (p : Predicate)
  deriving DecidableEq, Repr

namespace Clause

/-- The word that asks for some character. -/
def someoneWord : Text := "存在角色满足".toList

/-- Reads a clause that is not in brackets. -/
def readOpen (t : Text) : Clause :=
  match Text.after? someoneWord t with
  | some rest =>
    match unwrap? rest with
    | some inside => someone inside
    | none => constant false
  | none =>
    match Predicate.read? t with
    | some p => predicate p
    | none => constant false

/-- Reads a trimmed clause. -/
def read (t : Text) : Clause :=
  if t.isEmpty then constant true
  else if t = "true".toList then constant true
  else if t = "false".toList then constant false
  else
    match unwrap? t with
    | some inside => group inside
    | none => readOpen t

/-- The text that a clause goes into, if any, opens fewer brackets than the clause. -/
theorem openers_lt {t inside : Text} (h : read t = group inside ∨ read t = someone inside) :
    openers inside < openers t := by
  unfold read readOpen at h
  split at h
  · simp at h
  split at h
  · simp at h
  split at h
  · simp at h
  split at h
  · rename_i hu
    simp at h
    exact h ▸ openers_unwrap_lt hu
  · split at h
    · rename_i hp
      split at h
      · rename_i hu
        simp at h
        exact Nat.lt_of_lt_of_le (h ▸ openers_unwrap_lt hu)
          (openers_le_of_sublist (Text.after?_sublist hp))
      · simp at h
    · split at h <;> simp at h

end Clause

/-! ### Conditions -/

/-- A condition. -/
inductive Condition where
  | constant (b : Bool)
  | both (a b : Condition)
  | either (a b : Condition)
  | someone (c : Condition)
  | predicate (p : Predicate)
  deriving DecidableEq, Repr

namespace Condition

/-- All of several conditions. -/
def all : List Condition → Condition
  | [] => constant true
  | c :: rest => both c (all rest)

/-- Any of several conditions. -/
def any : List Condition → Condition
  | [] => constant false
  | c :: rest => either c (any rest)

/-- Reads a condition. -/
def read (t : Text) : Condition :=
  any <| (splitTop ['|', '|'] t).attach.map fun ⟨part, hpart⟩ =>
    all <| (splitTop ['&', '&'] part).attach.map fun ⟨clause, hclause⟩ =>
      have : openers (Text.trim clause) ≤ openers t :=
        Nat.le_trans (openers_trim_le clause)
          (openers_le_of_sublist
            ((sublist_of_mem_splitTop hclause).trans (sublist_of_mem_splitTop hpart)))
      match h : Clause.read (Text.trim clause) with
      | .constant b => constant b
      | .group inside =>
        have := Clause.openers_lt (.inl h)
        read inside
      | .someone inside =>
        have := Clause.openers_lt (.inr h)
        someone (read inside)
      | .predicate p => predicate p
  termination_by openers t
  decreasing_by all_goals omega

variable {n : Nat}

/-- The variable that refers to the character for which `存在角色满足` was asked. -/
def outerVariable : String := "__outer"

/-- Does the condition hold for the acting character `subject`? `choice` is the number of the
option chosen, if one was. -/
def holds (w : World n) (choice : Option Int) : Condition → Seat n → Scope → Chance Bool
  | constant b, _, _ => pure b
  | both a b, subject, scope => do
    if ← holds w choice a subject scope then holds w choice b subject scope else pure false
  | either a b, subject, scope => do
    if ← holds w choice a subject scope then pure true else holds w choice b subject scope
  | someone c, subject, scope =>
    let inner := scope.put outerVariable (.reference (w.reference subject))
    w.seats.anyM fun i => holds w choice c i inner
  | predicate p, subject, scope => p.holds w choice subject scope

end Condition

/-- Does the condition that a text states hold? -/
def evaluateCondition {n : Nat} (w : World n) (choice : Option Int) (subject : Seat n)
    (scope : Scope) (t : Text) : Chance Bool :=
  (Condition.read t).holds w choice subject scope

end EventScript
