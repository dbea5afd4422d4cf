/-
Conditions that are put together from others.

What a condition means, and which dice it rolls, follows from what its parts mean: `||` asks
the second part only if the first fails, `&&` only if the first holds, brackets change
nothing, and `存在角色满足` asks the condition in its brackets of one character after another:

* `Condition.read_eq` — how a text is taken apart;
* `evaluateCondition_either`, `evaluateCondition_both`, `evaluateCondition_wrap`,
  `evaluateCondition_someone` — one equation for each way of putting conditions together;
* `evaluateCondition_trim` — white space around a condition makes no difference;
* `conditions_are_compositional` — all of it, with the precedence of `&&` over `||`.
-/
import EventScript.Proofs.Chance
import EventScript.Proofs.Splitting
import EventScript.Script.Condition

namespace EventScript

variable {n : Nat}

/-! ### Questions one after another -/

namespace Chance

/-- Asks a second question only if the answer to the first is no. -/
def either (c d : Chance Bool) : Chance Bool := do
  if ← c then pure true else d

/-- Asks a second question only if the answer to the first is yes. -/
def both (c d : Chance Bool) : Chance Bool := do
  if ← c then d else pure false

theorem either_assoc (a b c : Chance Bool) : (a.either b).either c = a.either (b.either c) := by
  rw [either, either, either, bind_assoc]
  refine bind_congr fun first => ?_
  cases first with
  | true => rfl
  | false => rfl

theorem both_assoc (a b c : Chance Bool) : (a.both b).both c = a.both (b.both c) := by
  rw [both, both, both, bind_assoc]
  refine bind_congr fun first => ?_
  cases first with
  | true => rfl
  | false => rfl

theorem either_false (c : Chance Bool) : c.either (pure false) = c := by
  rw [either]
  conv_rhs => rw [← bind_pure c]
  refine bind_congr fun first => ?_
  cases first with
  | true => rfl
  | false => rfl

theorem both_true (c : Chance Bool) : c.both (pure true) = c := by
  rw [both]
  conv_rhs => rw [← bind_pure c]
  refine bind_congr fun first => ?_
  cases first with
  | true => rfl
  | false => rfl

end Chance

/-! ### How conditions are read -/

/-- The condition that a clause states. -/
def Clause.toCondition : Clause → Condition
  | constant b => .constant b
  | group inside => .read inside
  | someone inside => .someone (.read inside)
  | predicate p => .predicate p

theorem map_attach_of_forall {α β : Type} {xs : List α} {f : {x // x ∈ xs} → β} {g : α → β}
    (h : ∀ x hx, f ⟨x, hx⟩ = g x) : xs.attach.map f = xs.map g :=
  (List.map_congr_left fun x _ => h x.1 x.2).trans List.attach_map_val

namespace Condition

/-- Reads a text as a single clause. -/
def readClause (t : Text) : Condition :=
  (Clause.read t.trim).toCondition

/-- Reads a text as clauses joined by `&&`. -/
def readAll (t : Text) : Condition :=
  all ((splitTop ['&', '&'] t).map readClause)

theorem read_eq (t : Text) : read t = any ((splitTop ['|', '|'] t).map readAll) := by
  rw [read]
  refine congrArg any (map_attach_of_forall fun part _ => ?_)
  refine congrArg all (map_attach_of_forall fun clause _ => ?_)
  dsimp only
  rw [readClause]
  split <;> (rename_i h; rw [h]; rfl)

/-! White space around a condition makes no difference. -/

theorem readAll_cons {c : Char} (hc : isBlank c) (t : Text) : readAll (c :: t) = readAll t := by
  have hclause : ∀ p, readClause (c :: p) = readClause p := by
    intro p
    rw [readClause, readClause, Text.trim_cons hc]
  rw [readAll, readAll, map_splitTop_cons hclause (isPlain_of_isBlank hc)]
  rintro rfl
  exact absurd hc (by decide)

theorem readAll_concat {c : Char} (hc : isBlank c) (t : Text) : readAll (t ++ [c]) = readAll t := by
  have hclause : ∀ p, readClause (p ++ [c]) = readClause p := by
    intro p
    rw [readClause, readClause, Text.trim_concat hc]
  rw [readAll, readAll, map_splitTop_concat hclause (List.cons_ne_nil _ _)]
  intro hmem
  obtain rfl : c = '&' := by simpa using hmem
  exact absurd hc (by decide)

theorem read_cons {c : Char} (hc : isBlank c) (t : Text) : read (c :: t) = read t := by
  rw [read_eq, read_eq, map_splitTop_cons (readAll_cons hc) (isPlain_of_isBlank hc)]
  rintro rfl
  exact absurd hc (by decide)

theorem read_concat {c : Char} (hc : isBlank c) (t : Text) : read (t ++ [c]) = read t := by
  rw [read_eq, read_eq, map_splitTop_concat (readAll_concat hc) (List.cons_ne_nil _ _)]
  intro hmem
  obtain rfl : c = '|' := by simpa using hmem
  exact absurd hc (by decide)

theorem read_trim (t : Text) : read t.trim = read t :=
  (Text.apply_trimEnd read_concat t.trimStart).trans (Text.apply_trimStart read_cons t)

variable {w : World n} {choice : Option Int} {subject : Seat n} {scope : Scope}

theorem holds_any_append (cs ds : List Condition) :
    (any (cs ++ ds)).holds w choice subject scope =
      ((any cs).holds w choice subject scope).either ((any ds).holds w choice subject scope) := by
  induction cs with
  | nil => rfl
  | cons c rest ih =>
    show (c.holds w choice subject scope).either ((any (rest ++ ds)).holds w choice subject scope) =
      ((c.holds w choice subject scope).either ((any rest).holds w choice subject scope)).either _
    rw [ih, Chance.either_assoc]

theorem holds_all_append (cs ds : List Condition) :
    (all (cs ++ ds)).holds w choice subject scope =
      ((all cs).holds w choice subject scope).both ((all ds).holds w choice subject scope) := by
  induction cs with
  | nil => rfl
  | cons c rest ih =>
    show (c.holds w choice subject scope).both ((all (rest ++ ds)).holds w choice subject scope) =
      ((c.holds w choice subject scope).both ((all rest).holds w choice subject scope)).both _
    rw [ih, Chance.both_assoc]

theorem holds_any_singleton (c : Condition) :
    (any [c]).holds w choice subject scope = c.holds w choice subject scope :=
  Chance.either_false _

theorem holds_all_singleton (c : Condition) :
    (all [c]).holds w choice subject scope = c.holds w choice subject scope :=
  Chance.both_true _

end Condition

/-! ### Conditions without certain marks -/

section

variable (w : World n) (choice : Option Int) (subject : Seat n) (scope : Scope)

theorem evaluateCondition_of_no_or {t : Text} (h : topOccurrences ['|', '|'] t = []) :
    evaluateCondition w choice subject scope t =
      (Condition.readAll t).holds w choice subject scope := by
  rw [evaluateCondition, Condition.read_eq, splitTop_of_topOccurrences_eq_nil h]
  exact Condition.holds_any_singleton _

/-- A text without marks at the top level is a single clause. -/
theorem evaluateCondition_of_no_marks {t : Text} (hor : topOccurrences ['|', '|'] t = [])
    (hand : topOccurrences ['&', '&'] t = []) :
    evaluateCondition w choice subject scope t =
      (Condition.readClause t).holds w choice subject scope := by
  rw [evaluateCondition_of_no_or w choice subject scope hor, Condition.readAll,
    splitTop_of_topOccurrences_eq_nil hand]
  exact Condition.holds_all_singleton _

/-! ### One equation for each form -/

theorem evaluateCondition_either {a : Text} (ha : a.IsBalanced) (hlast : a.getLast? ≠ some '|')
    (b : Text) :
    evaluateCondition w choice subject scope (a ++ (['|', '|'] ++ b)) =
      (evaluateCondition w choice subject scope a).either
        (evaluateCondition w choice subject scope b) := by
  have hcut : ∀ c ∈ a.getLast?, c ∉ (['|', '|'] : Text).dropLast := by
    intro c hc hmem
    obtain rfl := List.mem_singleton.mp hmem
    exact hlast hc
  rw [evaluateCondition, Condition.read_eq,
    splitTop_append (by simp) (List.all_eq_true.mp rfl) ha.isClosed hcut, List.map_append,
    Condition.holds_any_append, ← Condition.read_eq, ← Condition.read_eq]
  rfl

/-- Texts without `||` have none when `&&` joins them. -/
theorem topOccurrences_or_join {a b : Text} (ha : a.IsBalanced)
    (hora : topOccurrences ['|', '|'] a = []) (horb : topOccurrences ['|', '|'] b = []) :
    topOccurrences ['|', '|'] (a ++ (['&', '&'] ++ b)) = [] := by
  have hclosed : (((Nesting.start.read a).step '&').step '&').IsClosed :=
    (ha.isClosed.step (by decide)).step (by decide)
  rw [topOccurrences] at hora
  show topOccurrencesFrom ['|', '|'] .start 0 (a ++ '&' :: ([] ++ '&' :: b)) = []
  rw [topOccurrencesFrom_append_cons (by simp) (by decide), hora,
    topOccurrencesFrom_append_cons (by simp) (by decide)]
  exact topOccurrencesFrom_eq_nil hclosed horb _

theorem evaluateCondition_both {a b : Text} (ha : a.IsBalanced) (hlast : a.getLast? ≠ some '&')
    (hora : topOccurrences ['|', '|'] a = []) (horb : topOccurrences ['|', '|'] b = []) :
    evaluateCondition w choice subject scope (a ++ (['&', '&'] ++ b)) =
      (evaluateCondition w choice subject scope a).both
        (evaluateCondition w choice subject scope b) := by
  have hcut : ∀ c ∈ a.getLast?, c ∉ (['&', '&'] : Text).dropLast := by
    intro c hc hmem
    obtain rfl := List.mem_singleton.mp hmem
    exact hlast hc
  rw [evaluateCondition_of_no_or w choice subject scope (topOccurrences_or_join ha hora horb),
    evaluateCondition_of_no_or w choice subject scope hora,
    evaluateCondition_of_no_or w choice subject scope horb, Condition.readAll,
    splitTop_append (by simp) (List.all_eq_true.mp rfl) ha.isClosed hcut, List.map_append,
    Condition.holds_all_append]
  rfl

theorem evaluateCondition_wrap {a : Text} (ha : a.IsBalanced) :
    evaluateCondition w choice subject scope a.wrap =
      evaluateCondition w choice subject scope a := by
  have hread : Clause.read a.wrap = .group a := by
    rw [Clause.read, unwrap?_wrap ha]
    rfl
  rw [evaluateCondition_of_no_marks w choice subject scope
    (topOccurrences_wrap ha (by decide) (by decide) _)
    (topOccurrences_wrap ha (by decide) (by decide) _), Condition.readClause, Text.trim_wrap, hread]
  rfl

/-- What asks for some character has no mark at the top level. -/
theorem topOccurrences_someone {a : Text} (ha : a.IsBalanced) {x : Char}
    (hx : x ∉ Clause.someoneWord) (hopen : x ≠ '(') (hclose : x ≠ ')') (more : Text) :
    topOccurrences (x :: more) (Clause.someoneWord ++ a.wrap) = [] := by
  have hclosed : (Nesting.start.read Clause.someoneWord).IsClosed :=
    Nesting.isClosed_start.read (List.all_eq_true.mp rfl)
  rw [topOccurrences, topOccurrencesFrom_append_of_notMem hx]
  exact topOccurrencesFrom_wrap ha hclosed hopen hclose more _

theorem Clause.read_someone {a : Text} (ha : a.IsBalanced) :
    Clause.read (Text.trim (Clause.someoneWord ++ a.wrap)) = .someone a := by
  have htrim : Text.trim (Clause.someoneWord ++ a.wrap) = Clause.someoneWord ++ a.wrap := by
    refine Text.trim_eq_self ?_ ?_
    · intro c hc
      obtain rfl := Option.some.inj hc
      rfl
    · intro c hc
      obtain rfl := Option.some.inj ((Text.getLast?_append_wrap _ a).symm.trans hc)
      rfl
  have hunwrap : unwrap? (Clause.someoneWord ++ a.wrap) = none := by
    rw [unwrap?, htrim]
    rfl
  rw [htrim, Clause.read, hunwrap]
  show Clause.readOpen (Clause.someoneWord ++ a.wrap) = _
  have hstarts : Text.after? Clause.someoneWord (Clause.someoneWord ++ a.wrap) = some a.wrap :=
    Text.after?_eq_some_iff.mpr rfl
  simp only [Clause.readOpen, hstarts, unwrap?_wrap ha]

theorem evaluateCondition_someone {a : Text} (ha : a.IsBalanced) :
    evaluateCondition w choice subject scope (Clause.someoneWord ++ a.wrap) =
      w.seats.anyM fun i => evaluateCondition w choice i
        (scope.put Condition.outerVariable (.reference (w.reference subject))) a := by
  rw [evaluateCondition_of_no_marks w choice subject scope
    (topOccurrences_someone ha (by decide) (by decide) (by decide) _)
    (topOccurrences_someone ha (by decide) (by decide) (by decide) _), Condition.readClause,
    Clause.read_someone ha]
  rfl

/-- White space around a condition makes no difference. -/
theorem evaluateCondition_trim (t : Text) :
    evaluateCondition w choice subject scope t.trim =
      evaluateCondition w choice subject scope t := by
  rw [evaluateCondition, Condition.read_trim]
  rfl

/-- A blank condition holds. -/
theorem evaluateCondition_blank {t : Text} (h : t.trim = []) :
    evaluateCondition w choice subject scope t = pure true := by
  rw [← evaluateCondition_trim, h, evaluateCondition_of_no_marks w choice subject scope rfl rfl]
  rfl

/-- A question for some character inside of another one refers to the character that the outer
one has come to. -/
theorem evaluateCondition_someone_someone {a : Text} (ha : a.IsBalanced) :
    evaluateCondition w choice subject scope
        (Clause.someoneWord ++ Text.wrap (Clause.someoneWord ++ a.wrap)) =
      w.seats.anyM fun i => w.seats.anyM fun j => evaluateCondition w choice j
        (scope.put Condition.outerVariable (.reference (w.reference i))) a := by
  have hinner : Text.IsBalanced (Clause.someoneWord ++ a.wrap) :=
    (Text.isBalanced_of_isPlain (List.all_eq_true.mp rfl)).append ha.wrap
  rw [evaluateCondition_someone w choice subject scope hinner]
  congr 1
  funext i
  rw [evaluateCondition_someone w choice i _ ha, Mapping.put_put]

/-- A part joined by `&&` before `||`. -/
theorem evaluateCondition_both_either {a b : Text} (ha : a.IsBalanced) (hb : b.IsBalanced)
    (hora : topOccurrences ['|', '|'] a = []) (horb : topOccurrences ['|', '|'] b = [])
    (hlast : a.getLast? ≠ some '&') (hlast' : b.getLast? ≠ some '|') (c : Text) :
    evaluateCondition w choice subject scope (a ++ (['&', '&'] ++ b) ++ (['|', '|'] ++ c)) =
      ((evaluateCondition w choice subject scope a).both
        (evaluateCondition w choice subject scope b)).either
          (evaluateCondition w choice subject scope c) := by
  have hjoined : Text.IsBalanced (a ++ (['&', '&'] ++ b)) :=
    ha.append ((Text.isBalanced_of_isPlain (List.all_eq_true.mp rfl)).append hb)
  have hend : (a ++ (['&', '&'] ++ b)).getLast? ≠ some '|' := by
    rw [List.getLast?_append, List.getLast?_append]
    cases hd : b.getLast? with
    | none =>
      show some '&' ≠ some '|'
      decide
    | some d =>
      rw [hd] at hlast'
      exact hlast'
  rw [evaluateCondition_either w choice subject scope hjoined hend,
    evaluateCondition_both w choice subject scope ha hlast hora horb]

/-- A part joined by `&&` behind `||`. -/
theorem evaluateCondition_either_both {a b c : Text} (ha : a.IsBalanced) (hb : b.IsBalanced)
    (horb : topOccurrences ['|', '|'] b = []) (horc : topOccurrences ['|', '|'] c = [])
    (hlast : a.getLast? ≠ some '|') (hlast' : b.getLast? ≠ some '&') :
    evaluateCondition w choice subject scope (a ++ (['|', '|'] ++ (b ++ (['&', '&'] ++ c)))) =
      (evaluateCondition w choice subject scope a).either
        ((evaluateCondition w choice subject scope b).both
          (evaluateCondition w choice subject scope c)) := by
  rw [evaluateCondition_either w choice subject scope ha hlast,
    evaluateCondition_both w choice subject scope hb hlast' horb horc]

end

/-- Conditions are compositional: what a condition means, and which dice it rolls, follows from
what its parts mean. White space makes no difference, a blank part holds, and `&&` binds tighter
than `||`. -/
theorem conditions_are_compositional (w : World n) (choice : Option Int) (subject : Seat n)
    (scope : Scope) :
    (∀ t : Text, evaluateCondition w choice subject scope t.trim =
      evaluateCondition w choice subject scope t) ∧
    (∀ t : Text, t.trim = [] → evaluateCondition w choice subject scope t = pure true) ∧
    (∀ a b : Text, a.IsBalanced → a.getLast? ≠ some '|' →
      evaluateCondition w choice subject scope (a ++ (['|', '|'] ++ b)) =
        (evaluateCondition w choice subject scope a).either
          (evaluateCondition w choice subject scope b)) ∧
    (∀ a b : Text, a.IsBalanced → a.getLast? ≠ some '&' →
      topOccurrences ['|', '|'] a = [] → topOccurrences ['|', '|'] b = [] →
      evaluateCondition w choice subject scope (a ++ (['&', '&'] ++ b)) =
        (evaluateCondition w choice subject scope a).both
          (evaluateCondition w choice subject scope b)) ∧
    (∀ a : Text, a.IsBalanced → evaluateCondition w choice subject scope a.wrap =
      evaluateCondition w choice subject scope a) ∧
    (∀ a : Text, a.IsBalanced →
      evaluateCondition w choice subject scope (Clause.someoneWord ++ a.wrap) =
        w.seats.anyM fun i => evaluateCondition w choice i
          (scope.put Condition.outerVariable (.reference (w.reference subject))) a) ∧
    (∀ a : Text, a.IsBalanced →
      evaluateCondition w choice subject scope
          (Clause.someoneWord ++ Text.wrap (Clause.someoneWord ++ a.wrap)) =
        w.seats.anyM fun i => w.seats.anyM fun j => evaluateCondition w choice j
          (scope.put Condition.outerVariable (.reference (w.reference i))) a) ∧
    (∀ a b c : Text, a.IsBalanced → b.IsBalanced →
      topOccurrences ['|', '|'] a = [] → topOccurrences ['|', '|'] b = [] →
      a.getLast? ≠ some '&' → b.getLast? ≠ some '|' →
      evaluateCondition w choice subject scope (a ++ (['&', '&'] ++ b) ++ (['|', '|'] ++ c)) =
        ((evaluateCondition w choice subject scope a).both
          (evaluateCondition w choice subject scope b)).either
            (evaluateCondition w choice subject scope c)) ∧
    ∀ a b c : Text, a.IsBalanced → b.IsBalanced →
      topOccurrences ['|', '|'] b = [] → topOccurrences ['|', '|'] c = [] →
      a.getLast? ≠ some '|' → b.getLast? ≠ some '&' →
      evaluateCondition w choice subject scope (a ++ (['|', '|'] ++ (b ++ (['&', '&'] ++ c)))) =
        (evaluateCondition w choice subject scope a).either
          ((evaluateCondition w choice subject scope b).both
            (evaluateCondition w choice subject scope c)) := by
  refine ⟨evaluateCondition_trim w choice subject scope, ?_, ?_, ?_, ?_, ?_, ?_, ?_, ?_⟩
  · intro t h
    exact evaluateCondition_blank w choice subject scope h
  · intro a b ha hlast
    exact evaluateCondition_either w choice subject scope ha hlast b
  · intro a b ha hlast hora horb
    exact evaluateCondition_both w choice subject scope ha hlast hora horb
  · intro a ha
    exact evaluateCondition_wrap w choice subject scope ha
  · intro a ha
    exact evaluateCondition_someone w choice subject scope ha
  · intro a ha
    exact evaluateCondition_someone_someone w choice subject scope ha
  · intro a b c ha hb hora horb hlast hlast'
    exact evaluateCondition_both_either w choice subject scope ha hb hora horb hlast hlast' c
  · intro a b c ha hb horb horc hlast hlast'
    exact evaluateCondition_either_both w choice subject scope ha hb horb horc hlast hlast'

/-- The world of a trainer without companions. -/
def trainerWorld : World 1 :=
  ⟨.singleton (.plain "p1" "训练员" "甲"), 1, Settings.standard⟩

/-- A trainer with a strength of a hundred needs luck: a die is rolled, and only four or more
will do. -/
theorem strength_or_luck :
    Text.IsBalanced "属性.体力 > 100 ".toList ∧
    (∀ face : Fin 6,
      ((evaluateCondition trainerWorld none 0 .empty "属性.体力 > 100 || 随机(1, 6) > 3".toList).run
        (.fresh fun _ => face)).1 = decide (3 ≤ face.val)) ∧
    ((evaluateCondition trainerWorld none 0 .empty "属性.体力 > 100 || 随机(1, 6) > 3".toList).run
      (.fresh fun _ => 0)).2.rolls = #[.between 1 6] ∧
    ((evaluateCondition trainerWorld none 0 .empty "属性.体力 > 99 || 随机(1, 6) > 3".toList).run
      (.fresh fun _ => 0)).2.rolls = #[] := by
  have hbalanced : Text.IsBalanced "属性.体力 > 100 ".toList := by decide
  have hbalanced' : Text.IsBalanced "属性.体力 > 99 ".toList := by decide
  obtain ⟨-, -, heither, -⟩ := conditions_are_compositional trainerWorld none 0 .empty
  have hluck := heither "属性.体力 > 100 ".toList " 随机(1, 6) > 3".toList hbalanced (by decide)
  have hstrength := heither "属性.体力 > 99 ".toList " 随机(1, 6) > 3".toList hbalanced' (by decide)
  have htext : "属性.体力 > 100 || 随机(1, 6) > 3".toList =
      "属性.体力 > 100 ".toList ++ (['|', '|'] ++ " 随机(1, 6) > 3".toList) := rfl
  have htext' : "属性.体力 > 99 || 随机(1, 6) > 3".toList =
      "属性.体力 > 99 ".toList ++ (['|', '|'] ++ " 随机(1, 6) > 3".toList) := rfl
  rw [htext, htext', hluck, hstrength]
  exact ⟨hbalanced, by decide +kernel, by decide +kernel, by decide +kernel⟩

end EventScript
