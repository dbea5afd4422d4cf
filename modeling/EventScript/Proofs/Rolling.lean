/-
Questions only roll dice on.

Every question that a script asks, and every passage that is rendered, leaves the tape as it
was and the rolls on record, whatever the answer.  The main statements are
`advances_evaluateQuantity`, `advances_evaluateCondition` and `advances_renderPassage`.
-/
import EventScript.Proofs.Chance
import EventScript.Script.Passage

namespace EventScript

open Chance

variable {n : Nat} {w : World n} {subject : Seat n} {scope : Scope}

theorem Quantity.advances_value (q : Quantity) : Advances (q.value w subject scope) := by
  induction q with
  | random low high ihlow ihhigh =>
    exact .bind ihlow fun a => .bind ihhigh fun b => .rollBetween a b
  | _ => exact .pure _

theorem advances_evaluateQuantity (t : Text) : Advances (evaluateQuantity w subject scope t) :=
  Quantity.advances_value _

theorem Trait.advances_holds (t : Trait) (holder : Seat n) :
    Advances (t.holds w subject holder scope) := by
  have compare : ∀ (c : Comparison) (k : Int) (q : Quantity),
      Advances (do let r ← q.value w subject scope; pure (c.holds k r)) :=
    fun c k q => .bind q.advances_value fun r => .pure _
  cases t with
  | layers tag c q => exact compare c _ q
  | stat name c q => exact compare c _ q
  | fired event c q => exact compare c _ q
  | relation object kind c q =>
    unfold Trait.holds
    simp only
    split
    · exact compare c _ q
    · exact .pure _
  | tagged present tag => exact .pure _
  | inTeam expected => exact .pure _
  | template same id => exact .pure _
  | gender same name => exact .pure _

theorem Predicate.advances_holds (p : Predicate) (choice : Option Int) :
    Advances (p.holds w choice subject scope) := by
  cases p with
  | teamSize c q => exact .bind q.advances_value fun r => .pure _
  | variableIs key c q => exact .bind q.advances_value fun r => .pure _
  | random low high c q =>
    refine .bind low.advances_value fun a => .bind high.advances_value fun b => ?_
    exact .bind (.rollBetween a b) fun k => .bind q.advances_value fun r => .pure _
  | trait holder t =>
    cases holder with
    | none => exact t.advances_holds subject
    | some key =>
      rw [Predicate.holds]
      split
      · exact t.advances_holds _
      · exact .pure _
  | chosen c k => exact .pure _
  | month c k => exact .pure _
  | year c k => exact .pure _
  | period same name => exact .pure _
  | variableSet key => exact .pure _
  | impossible => exact .pure _

theorem Chance.Advances.anyM {α : Type} {f : α → Chance Bool} (hf : ∀ a, Advances (f a))
    (xs : List α) : Advances (xs.anyM f) := by
  induction xs with
  | nil => exact .pure _
  | cons x rest ih =>
    refine .bind (hf x) fun b => ?_
    cases b with
    | true => exact .pure _
    | false => exact ih

theorem Condition.advances_holds (c : Condition) (choice : Option Int) :
    Advances (c.holds w choice subject scope) := by
  induction c generalizing subject scope with
  | constant b => exact .pure _
  | both a b iha ihb =>
    refine .bind iha fun first => ?_
    cases first with
    | true => exact ihb
    | false => exact .pure _
  | either a b iha ihb =>
    refine .bind iha fun first => ?_
    cases first with
    | true => exact .pure _
    | false => exact ihb
  | someone c ih => exact .anyM (fun i => ih) _
  | predicate p => exact p.advances_holds choice

theorem advances_evaluateCondition (choice : Option Int) (t : Text) :
    Advances (evaluateCondition w choice subject scope t) :=
  Condition.advances_holds _ choice

/-! ### Passages -/

namespace Passage

theorem advances_callingOf (rules : List CallingRule) :
    Advances (callingOf w subject scope rules) := by
  induction rules with
  | nil => exact .pure _
  | cons rule rest ih =>
    refine .bind (advances_evaluateCondition none _) fun holds => ?_
    split
    · exact .pure _
    · exact ih

theorem advances_mentionText (what : Mention) :
    Advances (mentionText w subject scope what) := by
  cases what with
  | calling => exact advances_callingOf _
  | name => exact .pure _
  | gender => exact .pure _

theorem advances_selectedText (holder : Option Text) (what : Mention) :
    Advances (selectedText w subject scope holder what) := by
  cases holder with
  | none => exact advances_mentionText what
  | some key =>
    unfold selectedText
    simp only
    split
    · exact advances_mentionText what
    · exact .pure _

mutual

theorem advances_renderSegment : ∀ s : Segment, Advances (renderSegment w subject scope s)
  | .copy c => .pure _
  | .choose condition yes no => by
    unfold renderSegment
    refine .bind (condition.advances_holds none) fun holds => ?_
    split
    · exact advances_renderAll yes
    · exact advances_renderAll no
  | .draw options => by
    unfold renderSegment
    split
    · exact .pure _
    · exact .bind (.roll _) fun k => advances_renderNth options _
  | .variable key => .pure _
  | .mention holder what => advances_selectedText holder what
  | .blank => .pure _

theorem advances_renderAll : ∀ p : List Segment, Advances (renderAll w subject scope p)
  | [] => .pure _
  | s :: rest =>
    .bind (advances_renderSegment s) fun _ => .bind (advances_renderAll rest) fun _ => .pure _

theorem advances_renderNth :
    ∀ (options : List (List Segment)) (k : Nat), Advances (renderNth w subject scope options k)
  | [], _ => .pure _
  | p :: _, 0 => advances_renderAll p
  | _ :: rest, k + 1 => advances_renderNth rest k

end

end Passage

theorem advances_renderPassage (t : Text) : Advances (renderPassage w subject scope t) :=
  Passage.advances_renderAll _

end EventScript
