/-
Expressions for whole numbers.

A whole number may be written out, counted, kept in a variable, read off a character or drawn
between two others, to any depth.  Whoever reads such an expression finds again what was written:

* `Expression.text` — how expressions are written, and `Expression.meaning` — what they mean;
* `Expression.isArgument_text`, `Expression.topOccurrences_text` — nothing in an expression is
  taken for a mark between two of them;
* `Expression.read_text` — so the text of an expression is read as that expression;
* `Expression.isReadable_quantity` — and all numbers it asks for can be read, if those in its
  variables can;
* `expressions_mean_what_they_say` — and stands for what it means: of a random number the bounds
  are evaluated first, one after the other, and then there is one draw between them.
-/
import EventScript.Proofs.Agreement
import EventScript.Proofs.Wording

namespace EventScript

variable {n : Nat}

/-! ### Written expressions -/

/-- What stands between the bounds of a random number. -/
inductive BoundsMark where
  | comma
  | tilde
  deriving DecidableEq, Repr

def BoundsMark.text : BoundsMark → Text
  | comma => [',', ' ']
  | tilde => ['~']

theorem BoundsMark.isPlain (mark : BoundsMark) : ∀ c ∈ mark.text, EventScript.isPlain c := by
  cases mark <;> decide

/-- An expression for a whole number. -/
inductive Expression where
  | numeral (v : Numeral)
  | teamSize
  | stored (key : Text) (h : key.IsWord)
  | accessor (a : Accessor) (h : a.IsNamed)
  | random (mark : BoundsMark) (low high : Expression)

namespace Expression

/-- How an expression is written. -/
def text : Expression → Text
  | numeral v => v.text
  | teamSize => "队伍人数".toList
  | stored key _ => variableMark ++ key
  | accessor a _ => a.text
  | random mark low high => randomWord ++ Text.wrap (low.text ++ (mark.text ++ high.text))

/-- What an expression means to a character. -/
def meaning (w : World n) (subject : Seat n) (scope : Scope) : Expression → Chance Int
  | numeral v => pure v.value
  | teamSize => pure w.teamSize
  | stored key _ => pure (Value.ofVariable scope (String.ofList key)).toInt
  | accessor a _ =>
    pure (((a.seat? w subject scope).bind fun holder =>
      a.reading.seen w holder holder scope).getD 0)
  | random _ low high => do
    let a ← low.meaning w subject scope
    let b ← high.meaning w subject scope
    Dice.rollBetween a b

/-- The variables in an expression. -/
def keys : Expression → List String
  | stored key _ => [String.ofList key]
  | random _ low high => low.keys ++ high.keys
  | _ => []

end Expression

/-! ### Marks -/

namespace Expression

theorem isField_text (e : Expression) : e.text.IsField := by
  induction e with
  | numeral v => exact v.isArgument.toIsField
  | teamSize => exact (by decide : Text.IsField "队伍人数".toList)
  | stored key h => exact isField_keyText h.isField true
  | accessor a h =>
    exact ⟨List.ne_nil_of_mem a.point_mem_text, Accessor.trim_text h, Accessor.isBalanced_text h⟩
  | random mark low high hlow hhigh =>
    have hinside := (hlow.append hhigh mark.isPlain).isBalanced
    have hbrackets : (Text.wrap (low.text ++ (mark.text ++ high.text))).IsField :=
      ⟨List.cons_ne_nil _ _, Text.trim_wrap _, hinside.wrap⟩
    have hword : Text.IsField randomWord := by decide
    exact hword.append hbrackets (List.forall_mem_nil _)

/-- The bounds of a random number, between its brackets, close what they open. -/
theorem isField_bounds (mark : BoundsMark) (low high : Expression) :
    Text.IsField (low.text ++ (mark.text ++ high.text)) :=
  low.isField_text.append high.isField_text mark.isPlain

/-- At the top level of an expression there is nothing that separates expressions. -/
theorem topOccurrences_text {x : Char} (hx : x = ',' ∨ x = '~') (e : Expression) :
    topOccurrences [x] e.text = [] := by
  have hword : isWord x = false := by rcases hx with rfl | rfl <;> decide
  cases e with
  | numeral v =>
    have hpart : isNumeralPart x = false := by rcases hx with rfl | rfl <;> decide
    exact topOccurrencesFrom_of_notMem (v.notMem hpart) [] .start 0
  | teamSize => rcases hx with rfl | rfl <;> decide
  | stored key h =>
    have hmark : x ∉ variableMark := by rcases hx with rfl | rfl <;> decide
    exact topOccurrencesFrom_of_notMem (List.not_mem_append hmark (h.notMem hword)) [] .start 0
  | accessor a h =>
    have hmark : x ∉ ['.', '(', ')'] := by rcases hx with rfl | rfl <;> decide
    exact topOccurrencesFrom_of_notMem (Accessor.notMem_text h hword hmark) [] .start 0
  | random mark low high =>
    have hstart : x ∉ randomWord := by rcases hx with rfl | rfl <;> decide
    have hopen : x ≠ '(' := by rcases hx with rfl | rfl <;> decide
    have hclose : x ≠ ')' := by rcases hx with rfl | rfl <;> decide
    have hclosed : (Nesting.start.read randomWord).IsClosed := ⟨by decide, by decide⟩
    show topOccurrences [x] (randomWord ++ _) = []
    rw [topOccurrences, topOccurrencesFrom_append_of_notMem hstart]
    exact topOccurrencesFrom_wrap (isField_bounds mark low high).isBalanced hclosed hopen hclose
      [] _

theorem isArgument_text (e : Expression) : e.text.IsArgument :=
  ⟨e.isField_text, e.topOccurrences_text (.inl rfl)⟩

/-- With a tilde between them, two expressions are a single argument. -/
theorem isArgument_between (low high : Expression) :
    Text.IsArgument (low.text ++ (['~'] ++ high.text)) := by
  refine ⟨isField_bounds .tilde low high, ?_⟩
  have hclosed : ((Nesting.start.read low.text).step '~').IsClosed :=
    low.isField_text.isBalanced.isClosed.step (by decide)
  show topOccurrencesFrom [','] .start 0 (low.text ++ '~' :: high.text) = []
  rw [topOccurrencesFrom_append_cons (List.cons_ne_nil _ _) (by decide),
    topOccurrencesFrom_eq_nil hclosed (high.topOccurrences_text (.inl rfl)), List.append_nil]
  exact low.topOccurrences_text (.inl rfl)

end Expression

/-! ### Reading -/

namespace Quantity

/-- A variable with its mark. -/
theorem read_stored {key : Text} (h : key.IsWord) : read (variableMark ++ key) = .variable key := by
  have htrim : Text.trim (variableMark ++ key) = variableMark ++ key :=
    (isField_keyText h.isField true).trim_eq
  have hempty : List.isEmpty (variableMark ++ key) = false := rfl
  have hmark : variableMark.isPrefixOf (variableMark ++ key) = true :=
    List.isPrefixOf_iff_prefix.mpr (List.prefix_append _ _)
  have hkey : variableKey (variableMark ++ key) = key :=
    variableKey_keyText h.isField h.isKey.unmarked true
  rw [read]
  simp only [htrim, hempty, hmark, hkey, Bool.false_eq_true, if_false, if_true]

/-- A random number, once its bounds have come out of the brackets. -/
theorem read_random {t a b : Text} (htrim : t.trim = t)
    (hbegins : randomWord ++ ['('] <+: t) (hbounds : randomBounds? t = some (a, b)) :
    read t = .random (read a) (read b) := by
  obtain ⟨rest, rfl⟩ := hbegins
  have hempty : List.isEmpty (randomWord ++ ['('] ++ rest) = false := rfl
  have hmark : variableMark.isPrefixOf (randomWord ++ ['('] ++ rest) = false := by
    rw [← Bool.not_eq_true, List.isPrefixOf_iff_prefix]
    exact fun h => absurd (List.cons_prefix_cons.mp h).1 (by decide)
  have hteam : randomWord ++ ['('] ++ rest ≠ "队伍人数".toList := by
    intro h
    exact absurd (List.cons.inj h).1 (by decide)
  have hrandom : (randomWord ++ ['(']).isPrefixOf (randomWord ++ ['('] ++ rest) = true :=
    List.isPrefixOf_iff_prefix.mpr (List.prefix_append _ _)
  rw [read]
  simp only [htrim, hempty, hmark, hteam, hrandom, Bool.false_eq_true, if_false, if_true]
  split
  · rename_i c d h
    rw [htrim, hbounds] at h
    cases h
    rfl
  · rename_i h
    rw [htrim, hbounds] at h
    cases h

end Quantity

namespace Expression

/-- The bounds come out of the brackets as they were put in. -/
theorem randomBounds?_text (mark : BoundsMark) (low high : Expression) :
    randomBounds? (random mark low high).text = some (low.text, high.text) := by
  have harguments : callArguments? randomWord (random mark low high).text =
      arguments? (Text.wrap (low.text ++ (mark.text ++ high.text))) := by
    have hafter : Text.after? randomWord (random mark low high).text =
        some (Text.wrap (low.text ++ (mark.text ++ high.text))) := by
      rw [Text.after?_eq_some_iff, text]
    rw [callArguments?, (random mark low high).isField_text.trim_eq, hafter, Option.bind_some]
  have hpresent : bothPresent? low.text high.text = some (low.text, high.text) := by
    have hlow := low.isField_text.ne_nil
    have hhigh := high.isField_text.ne_nil
    simp [bothPresent?, hlow, hhigh]
  rw [randomBounds?, harguments]
  cases mark with
  | comma =>
    have hboth : ∀ a ∈ [low.text, high.text], a.IsArgument :=
      List.forall_mem_cons.mpr ⟨low.isArgument_text,
        List.forall_mem_singleton.mpr high.isArgument_text⟩
    have hread := arguments?_wrap (List.cons_ne_nil _ _) hboth
    rw [Operation.joinArguments_cons_cons, Operation.joinArguments_singleton] at hread
    rw [BoundsMark.text, List.cons_append, List.singleton_append, hread]
    exact hpresent
  | tilde =>
    -- a single argument, which the tilde cuts in two
    have hread := arguments?_wrap (List.cons_ne_nil _ _)
      (List.forall_mem_singleton.mpr (isArgument_between low high))
    have hsplit : splitTop ['~'] (low.text ++ (['~'] ++ high.text)) =
        [low.text] ++ [high.text] := by
      rw [splitTop_append (List.cons_ne_nil _ _) (by decide) low.isField_text.isBalanced.isClosed
          (by simp), splitTop_of_topOccurrences_eq_nil (low.topOccurrences_text (.inr rfl)),
        splitTop_of_topOccurrences_eq_nil (high.topOccurrences_text (.inr rfl))]
    rw [Operation.joinArguments_singleton] at hread
    rw [BoundsMark.text, hread]
    dsimp only
    rw [hsplit, List.map_append, List.map_singleton, List.map_singleton, low.isField_text.trim_eq,
      high.isField_text.trim_eq]
    exact hpresent

/-- What an expression is read as. -/
def quantity : Expression → Quantity
  | numeral v => .bare v.text
  | teamSize => .teamSize
  | stored key _ => .variable key
  | accessor a _ => .accessor a
  | random _ low high => .random low.quantity high.quantity

theorem read_text (e : Expression) : Quantity.read e.text = e.quantity := by
  induction e with
  | numeral v => exact v.quantity_eq
  | teamSize =>
    rw [Quantity.read]
    rfl
  | stored key h => exact Quantity.read_stored h
  | accessor a h => exact Quantity.read_text h
  | random mark low high hlow hhigh =>
    have hbegins : randomWord ++ ['('] <+: (random mark low high).text := ⟨_, rfl⟩
    rw [Quantity.read_random (isField_text _).trim_eq hbegins (randomBounds?_text mark low high),
      hlow, hhigh, quantity]

/-- A variable of that name would be read in place of a numeral. -/
theorem get?_numeral {scope : Scope}
    (hscope : ∀ key ∈ scope.keys, Text.integerLiteral? key.toList = none) (v : Numeral) :
    scope.get? (String.ofList v.text) = none := by
  refine Mapping.get?_of_notMem fun hmem => ?_
  have hnone := hscope _ hmem
  rw [String.toList_ofList, v.reads] at hnone
  cases hnone

theorem isReadable_quantity {scope : Scope}
    (hscope : ∀ key ∈ scope.keys, Text.integerLiteral? key.toList = none) (e : Expression)
    (hvalues : ∀ key ∈ e.keys, (Value.ofVariable scope key).IsReadable) :
    e.quantity.IsReadable scope := by
  induction e with
  | numeral v => exact v.isReadable_bare (get?_numeral hscope v)
  | teamSize => trivial
  | stored key h => exact hvalues _ (List.mem_singleton_self _)
  | accessor a h => trivial
  | random mark low high hlow hhigh =>
    obtain ⟨hvalues, hvalues'⟩ := List.forall_mem_append.mp hvalues
    exact ⟨hlow hvalues, hhigh hvalues'⟩

theorem value_quantity {scope : Scope}
    (hscope : ∀ key ∈ scope.keys, Text.integerLiteral? key.toList = none) (w : World n)
    (subject : Seat n) (e : Expression) :
    e.quantity.value w subject scope = e.meaning w subject scope := by
  induction e with
  | numeral v =>
    rw [quantity, Quantity.value, Quantity.bareValue, get?_numeral hscope, Option.bind_none,
      Option.getD_none, v.leadingInteger_eq, meaning]
  | teamSize => rfl
  | stored key h => rfl
  | accessor a h => exact congrArg pure (a.value_eq w subject scope)
  | random mark low high hlow hhigh =>
    rw [quantity, Quantity.value, hlow, hhigh]
    rfl

/-- The text of an expression stands for what the expression means. -/
theorem evaluateQuantity_text {scope : Scope}
    (hscope : ∀ key ∈ scope.keys, Text.integerLiteral? key.toList = none) (w : World n)
    (subject : Seat n) (e : Expression) :
    evaluateQuantity w subject scope e.text = e.meaning w subject scope := by
  rw [evaluateQuantity, read_text, value_quantity hscope]

end Expression

/-- A draw between two numbers, given in either order, gives a number between them, with a single
roll. -/
theorem Dice.run_rollBetween (a b : Int) (d : Dice) :
    (min a b ≤ ((rollBetween a b).run d).1 ∧ ((rollBetween a b).run d).1 ≤ max a b) ∧
      ((rollBetween a b).run d).2 =
        { d with rolls := d.rolls.push (.between (min a b) (max a b)) } := by
  refine ⟨?_, rfl⟩
  show min a b ≤ min a b + _ % (max a b - min a b + 1) ∧
    min a b + (d.tape d.rolls.size : Int) % (max a b - min a b + 1) ≤ max a b
  have hpositive : 0 < max a b - min a b + 1 := by omega
  have hlow := Int.emod_nonneg (d.tape d.rolls.size : Int) (Int.ne_of_gt hpositive)
  have hhigh := Int.emod_lt_of_pos (d.tape d.rolls.size : Int) hpositive
  omega

/-- Where no variable has a whole number for its name, and the numbers in the variables can be read,
the text of an expression asks for no other number that cannot be read, and stands for what the
expression means. Of a random number the first bound is evaluated, then the second one, each with
its own draws, and then one number is drawn from the smaller to the larger one. -/
theorem expressions_mean_what_they_say (w : World n) (subject : Seat n) (scope : Scope)
    (hscope : ∀ key ∈ scope.keys, Text.integerLiteral? key.toList = none) (e : Expression)
    (hvalues : ∀ key ∈ e.keys, (Value.ofVariable scope key).IsReadable) :
    (Quantity.read e.text).IsReadable scope ∧
    evaluateQuantity w subject scope e.text = e.meaning w subject scope ∧
    ∀ mark low high, e = .random mark low high → ∀ d : Dice,
      let a := (evaluateQuantity w subject scope low.text).run d
      let b := (evaluateQuantity w subject scope high.text).run a.2
      let k := (evaluateQuantity w subject scope e.text).run d
      (min a.1 b.1 ≤ k.1 ∧ k.1 ≤ max a.1 b.1) ∧
        k.2 = { b.2 with rolls := b.2.rolls.push (.between (min a.1 b.1) (max a.1 b.1)) } := by
  refine ⟨?_, Expression.evaluateQuantity_text hscope w subject e, ?_⟩
  · rw [Expression.read_text]
    exact Expression.isReadable_quantity hscope e hvalues
  rintro mark low high rfl d a b k
  have hk : k = (Dice.rollBetween a.1 b.1).run b.2 := by
    show (evaluateQuantity w subject scope (Expression.random mark low high).text).run d =
      (Dice.rollBetween a.1 b.1).run b.2
    rw [Expression.evaluateQuantity_text hscope, Expression.meaning,
      ← Expression.evaluateQuantity_text hscope, ← Expression.evaluateQuantity_text hscope]
    rfl
  rw [hk]
  exact Dice.run_rollBetween a.1 b.1 b.2

/-- What can be won in a bet: a number between a random number, which is at most the strength of the
trainer, and the number in a variable. -/
def stake : Expression :=
  .random .comma (.random .tilde (.numeral ⟨"1".toList, 1, rfl, by decide⟩)
    (.accessor ⟨some "训练员".toList, .stat "体力".toList⟩ (by decide +kernel)))
    (.stored "赌注".toList (by decide +kernel))

example : stake.text = "随机(随机(1~训练员.属性.体力), 变量.赌注)".toList := by decide

/-- The variables when the bet is made. -/
def betting : Scope :=
  ⟨[("赌注", .int 3)]⟩

/-- The inner number is drawn first, and then the outer one from the smaller to the larger bound. -/
theorem stake_is_drawn_twice :
    (∀ key ∈ betting.keys, Text.integerLiteral? key.toList = none) ∧
    (∀ key ∈ stake.keys, (Value.ofVariable betting key).IsReadable) ∧
    evaluateQuantity friendWorld 1 betting stake.text = stake.meaning friendWorld 1 betting ∧
    ((evaluateQuantity friendWorld 1 betting stake.text).run (.fresh fun _ => 7)).1 = 4 ∧
    ((evaluateQuantity friendWorld 1 betting stake.text).run (.fresh fun _ => 7)).2.rolls =
      #[.between 1 100, .between 3 8] := by
  have hkeys : ∀ key ∈ betting.keys, Text.integerLiteral? key.toList = none := by decide
  have hvalues : ∀ key ∈ stake.keys, (Value.ofVariable betting key).IsReadable :=
    List.forall_mem_singleton.mpr trivial
  obtain ⟨-, hmeaning, -⟩ :=
    expressions_mean_what_they_say friendWorld 1 betting hkeys stake hvalues
  refine ⟨hkeys, hvalues, hmeaning, ?_, ?_⟩
  · rw [hmeaning]
    decide +kernel
  · rw [hmeaning]
    decide +kernel

end EventScript
