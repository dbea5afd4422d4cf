/-
How deep interpretation goes.

Quantities, conditions, passages and scripts go into texts inside of their own: the bounds of a
random number, what stands in brackets, the passage that a slot chooses, the body of a list
operation.  Brackets bound how often.  Whatever the text, each text that is gone into opens fewer
brackets, except that one of several conditions joined by `||` may open as many; such a condition
has no `||` of its own at the top level, so that the next step inside has to open a bracket.  The
length is no such bound, since a body may be longer than its statement.

* `topOccurrences_of_mem_splitTop` — the parts of a text do not have the separator any more;
* `Descends` — a function on texts follows from what it does with the texts that it goes into, and
  those lie lower;
* `Descends.nested_eq`, `Descends.length_le` — such a function needs no more nested calls than the
  text is high, and every chain of texts, each gone into from the one before, ends by then;
* `Quantity.descends`, `Condition.descends`, `Passage.descends`, `Script.descends`;
* `interpretation_descends` — all four, and what bounds them.
-/
import EventScript.Proofs.Piece
import EventScript.Proofs.Rendering
import EventScript.Proofs.Sequence

namespace EventScript

variable {n : Nat}

/-! ### Parts without the separator -/

section Parts

variable {separator t p : Text} {s : Nesting}

/-- The separator does not occur in the first part, which goes on from `s`, and not in the others,
before which nothing is open. -/
theorem exists_splitTopFrom_eq (hne : separator ≠ []) (hplain : ∀ c ∈ separator, isPlain c)
    (s : Nesting) (skip : Nat) (t : Text) :
    ∃ first rest, splitTopFrom separator s skip t = first :: rest ∧ first <+: t.drop skip ∧
      topOccurrencesFrom separator (s.read (t.take skip)) 0 first = [] ∧
      ∀ p ∈ rest, topOccurrences separator p = [] := by
  induction t generalizing s skip with
  | nil =>
    refine ⟨[], [], by rw [splitTopFrom], List.nil_prefix, rfl, ?_⟩
    simp
  | cons c rest ih =>
    cases skip with
    | succ skip => exact ih (s.step c) skip
    | zero =>
      by_cases h : s.isTop c && separator.isPrefixOf (c :: rest)
      · obtain ⟨x, more, rfl⟩ := List.exists_cons_of_ne_nil hne
        obtain ⟨htop, hprefix⟩ := Bool.and_eq_true_iff.mp h
        obtain ⟨u, hu⟩ := List.isPrefixOf_iff_prefix.mp hprefix
        obtain ⟨rfl, rfl⟩ := List.cons.inj hu
        obtain ⟨hx, hmore⟩ := List.forall_mem_cons.mp hplain
        obtain ⟨first, parts, hparts, -, hfirst, hrest⟩ := ih (s.step x) more.length
        have hclosed : ((s.step x).read more).IsClosed :=
          ((Nesting.isClosed_of_isTop htop hx).step hx).read hmore
        rw [List.append_eq, List.take_left, topOccurrencesFrom_of_isClosed hclosed,
          List.map_eq_nil_iff] at hfirst
        refine ⟨[], first :: parts, ?_, List.nil_prefix, rfl, ?_⟩
        · rw [splitTopFrom_of_occurrence h]
          exact congrArg _ hparts
        · exact List.forall_mem_cons.mpr ⟨hfirst, hrest⟩
      · obtain ⟨first, parts, hparts, hprefix, hfirst, hrest⟩ := ih (s.step c) 0
        have hbegins : ¬ (s.isTop c && separator.isPrefixOf (c :: first)) := by
          rw [Bool.and_eq_true, List.isPrefixOf_iff_prefix] at h ⊢
          exact fun hhere => h ⟨hhere.1, hhere.2.trans (List.cons_prefix_cons.mpr ⟨rfl, hprefix⟩)⟩
        refine ⟨c :: first, parts, ?_, List.cons_prefix_cons.mpr ⟨rfl, hprefix⟩, ?_, hrest⟩
        · rw [splitTopFrom_of_not h, hparts]
          rfl
        · show topOccurrencesFrom separator s 0 (c :: first) = []
          rw [topOccurrencesFrom, if_neg hbegins, topOccurrencesFrom_add, List.map_eq_nil_iff]
          exact hfirst

/-- The parts of a text do not have the separator at the top level any more. -/
theorem topOccurrences_of_mem_splitTop (hne : separator ≠ [])
    (hplain : ∀ c ∈ separator, isPlain c) (hp : p ∈ splitTop separator t) :
    topOccurrences separator p = [] := by
  obtain ⟨first, rest, heq, -, hfirst, hrest⟩ :=
    exists_splitTopFrom_eq hne hplain .start 0 t
  rw [splitTop, heq, List.mem_cons] at hp
  rcases hp with rfl | hp
  · exact hfirst
  · exact hrest p hp

/-- A text has several parts exactly if the separator occurs in it. -/
theorem one_lt_length_splitTop_iff (hne : separator ≠ []) :
    1 < (splitTop separator t).length ↔ topOccurrences separator t ≠ [] := by
  constructor
  · intro h hnone
    rw [splitTop_of_topOccurrences_eq_nil hnone] at h
    exact absurd h (by simp)
  · -- positions are counted by the search only, so neither start can be fixed
    have key : ∀ (s : Nesting) (i : Nat), topOccurrencesFrom separator s i t ≠ [] →
        1 < (splitTopFrom separator s 0 t).length := by
      induction t with
      | nil => exact fun _ _ h => absurd rfl h
      | cons c rest ih =>
        intro s i h
        by_cases hc : s.isTop c && separator.isPrefixOf (c :: rest)
        · obtain ⟨x, more, rfl⟩ := List.exists_cons_of_ne_nil hne
          rw [splitTopFrom_of_occurrence hc, List.length_cons]
          exact Nat.succ_lt_succ (List.length_pos_of_ne_nil (splitTopFrom_ne_nil _ _ _ _))
        · rw [topOccurrencesFrom, if_neg hc] at h
          have hrest := ih _ _ h
          obtain ⟨first, parts, heq⟩ :=
            List.exists_cons_of_ne_nil (splitTopFrom_ne_nil separator (s.step c) 0 rest)
          rw [heq] at hrest
          rw [splitTopFrom_of_not hc, heq]
          exact hrest
    exact key _ _

end Parts

theorem openers_le_of_isInfix {t u : Text} (h : t <:+: u) : openers t ≤ openers u :=
  openers_le_of_sublist h.sublist

/-! ### Functions that go down -/

/-- A function on texts does what `body` says. The body may ask the function for other texts, and
asks for those only that the text goes into; each of them lies lower than the text. -/
structure Descends {α : Type} (f : Text → α) (body : (Text → α) → Text → α)
    (GoesInto : Text → Text → Prop) (height : Text → Nat) : Prop where
  unfolds : ∀ t, body f t = f t
  asks : ∀ {g h : Text → α} {t : Text}, (∀ u, GoesInto t u → g u = h u) → body g t = body h t
  falls : ∀ {t u : Text}, GoesInto t u → height u < height t

/-- What the body gives if it is nested `depth` times, and `beyond` answers deeper down. -/
def nested {α : Type} (body : (Text → α) → Text → α) (beyond : Text → α) : Nat → Text → α
  | 0 => beyond
  | depth + 1 => body (nested body beyond depth)

namespace Descends

variable {α : Type} {f : Text → α} {body : (Text → α) → Text → α}
  {GoesInto : Text → Text → Prop} {height : Text → Nat}

/-- Nesting the body once more than the text is high gives the function, whatever would be
answered deeper down: that is never asked. -/
theorem nested_eq (h : Descends f body GoesInto height) (beyond : Text → α) {depth : Nat}
    {t : Text} (hdepth : height t < depth) : nested body beyond depth t = f t := by
  induction depth generalizing t with
  | zero => exact absurd hdepth (Nat.not_lt_zero _)
  | succ depth ih =>
    have hinside : ∀ u, GoesInto t u → nested body beyond depth u = f u := by
      intro u hu
      have hlower := h.falls hu
      exact ih (by omega)
    exact (h.asks hinside).trans (h.unfolds t)

/-- Texts that are gone into, each from the one before, are no more than the first one is high. -/
theorem length_le (h : Descends f body GoesInto height) {t : Text} {us : List Text}
    (hchain : (t :: us).IsChain GoesInto) : us.length ≤ height t := by
  induction us generalizing t with
  | nil => exact Nat.zero_le _
  | cons u us ih =>
    obtain ⟨hu, hrest⟩ := List.isChain_cons_cons.mp hchain
    have hlower := h.falls hu
    have hlength := ih hrest
    rw [List.length_cons]
    omega

end Descends

/-! ### Quantities -/

namespace Quantity

/-- What a quantity goes into: the bounds of a random number. -/
def GoesInto (t u : Text) : Prop :=
  ∃ a b, randomBounds? t.trim = some (a, b) ∧ (u = a ∨ u = b)

/-- Both bounds of a random number stand in its brackets. -/
theorem openers_lt_of_randomBounds? {t a b : Text} (h : randomBounds? t = some (a, b)) :
    openers a < openers t ∧ openers b < openers t := by
  have hargument : ∀ {args : List Text} {c : Text}, callArguments? randomWord t = some args →
      c ∈ args → openers c < openers t := by
    intro args c hargs hc
    obtain ⟨rest, hrest, hinside⟩ := Option.bind_eq_some_iff.mp hargs
    have hc' := openers_le_of_sublist (List.sublist_flatten_of_mem hc)
    have hflatten := Statement.openers_arguments_lt hinside
    have hrest' := openers_le_of_sublist (Text.after?_sublist hrest)
    have htrim := openers_trim_le t
    omega
  unfold randomBounds? at h
  split at h
  · rename_i c d hargs
    obtain ⟨rfl, rfl⟩ := mem_of_bothPresent? h
    exact ⟨hargument hargs (by simp), hargument hargs (by simp)⟩
  · rename_i c hargs
    split at h
    · rename_i d e hparts
      obtain ⟨rfl, rfl⟩ := mem_of_bothPresent? h
      have hc := hargument hargs (List.mem_singleton_self c)
      have hpiece : ∀ d ∈ [a, b], openers d ≤ openers c := by
        rw [← hparts]
        exact fun d hd => openers_le_of_isInfix (infix_of_mem_map_trim hd)
      exact ⟨Nat.lt_of_le_of_lt (hpiece a (by simp)) hc,
        Nat.lt_of_le_of_lt (hpiece b (by simp)) hc⟩
    · cases h
  · cases h

theorem openers_lt {t u : Text} (h : GoesInto t u) : openers u < openers t := by
  obtain ⟨a, b, hbounds, hu⟩ := h
  have hlt := openers_lt_of_randomBounds? hbounds
  have htrim := openers_trim_le t
  rcases hu with rfl | rfl <;> omega

variable (w : World n) (subject : Seat n) (scope : Scope)

/-- Evaluates a quantity, where `self` evaluates the bounds of a random number. -/
def evaluateBy (self : Text → Chance Int) (t : Text) : Chance Int :=
  let text := t.trim
  if text.isEmpty then pure 0
  else if variableMark.isPrefixOf text then
    pure (Value.ofVariable scope (String.ofList (variableKey text))).toInt
  else if text = "队伍人数".toList then pure w.teamSize
  else if (randomWord ++ ['(']).isPrefixOf text then
    match randomBounds? text with
    | some (a, b) => do
      let low ← self a
      let high ← self b
      Dice.rollBetween low high
    | none => (readSimple text).value w subject scope
  else (readSimple text).value w subject scope

theorem descends : Descends (evaluateQuantity w subject scope) (evaluateBy w subject scope)
    GoesInto openers where
  unfolds t := by
    rw [evaluateBy, evaluateQuantity, read]
    split
    · rfl
    split
    · rfl
    split
    · rfl
    split
    · -- the bounds are found twice, here and when the quantity is read
      split
      · rename_i a b hbounds
        split
        · rename_i c d hread
          obtain ⟨rfl, rfl⟩ := Prod.mk.inj (Option.some.inj (hbounds.symm.trans hread))
          rfl
        · rename_i hnone
          cases hbounds.symm.trans hnone
      · rename_i hnone
        split
        · rename_i a b hread
          cases hnone.symm.trans hread
        · rfl
    · rfl
  asks {g h t} hsame := by
    rw [evaluateBy, evaluateBy]
    cases hbounds : randomBounds? t.trim with
    | none => rfl
    | some bounds =>
      obtain ⟨a, b⟩ := bounds
      have hlow := hsame a ⟨a, b, hbounds, .inl rfl⟩
      have hhigh := hsame b ⟨a, b, hbounds, .inr rfl⟩
      dsimp only
      rw [hlow, hhigh]
  falls := openers_lt

end Quantity

/-! ### Conditions -/

namespace Chance

variable {α : Type} {f g : α → Chance Bool} {xs : List α}

theorem anyM_congr (h : ∀ x ∈ xs, f x = g x) : xs.anyM f = xs.anyM g := by
  induction xs with
  | nil => rfl
  | cons x rest ih =>
    obtain ⟨hx, hrest⟩ := List.forall_mem_cons.mp h
    rw [List.anyM, List.anyM, hx, ih hrest]

theorem allM_congr (h : ∀ x ∈ xs, f x = g x) : xs.allM f = xs.allM g := by
  induction xs with
  | nil => rfl
  | cons x rest ih =>
    obtain ⟨hx, hrest⟩ := List.forall_mem_cons.mp h
    rw [List.allM, List.allM, hx, ih hrest]

end Chance

namespace Condition

/-- What a condition goes into: the parts that `||` joins, if there are several, and the conditions
in the brackets of a clause. -/
inductive GoesInto (t : Text) : Text → Prop where
  | operand {u : Text} : topOccurrences ['|', '|'] t ≠ [] →
      u ∈ splitTop ['|', '|'] t.trim → GoesInto t u
  | group {clause inside : Text} : clause ∈ splitTop ['&', '&'] t.trim →
      Clause.read clause.trim = .group inside → GoesInto t inside
  | someone {clause inside : Text} : clause ∈ splitTop ['&', '&'] t.trim →
      Clause.read clause.trim = .someone inside → GoesInto t inside

theorem openers_lt_of_clause {t clause inside : Text}
    (hclause : clause ∈ splitTop ['&', '&'] t.trim)
    (h : Clause.read clause.trim = .group inside ∨ Clause.read clause.trim = .someone inside) :
    openers inside < openers t :=
  Nat.lt_of_lt_of_le (Clause.openers_lt h) (openers_le_of_isInfix
    (((Text.isInfix_trim clause).trans (infix_of_mem_splitTop hclause)).trans
      (Text.isInfix_trim t)))

/-- A text that a condition goes into opens fewer brackets, or has lost the `||`. -/
theorem openers_lt_or {t u : Text} (h : GoesInto t u) :
    openers u < openers t ∨
      openers u ≤ openers t ∧ topOccurrences ['|', '|'] u = [] ∧
        topOccurrences ['|', '|'] t ≠ [] := by
  cases h with
  | operand hseveral hu =>
    refine .inr ⟨openers_le_of_isInfix ((infix_of_mem_splitTop hu).trans (Text.isInfix_trim t)),
      ?_, hseveral⟩
    exact topOccurrences_of_mem_splitTop (List.cons_ne_nil _ _) (by decide) hu
  | group hclause hread => exact .inl (openers_lt_of_clause hclause (.inl hread))
  | someone hclause hread => exact .inl (openers_lt_of_clause hclause (.inr hread))

/-- Twice the brackets, and one step more for `||`. -/
def height (t : Text) : Nat :=
  2 * openers t + if topOccurrences ['|', '|'] t = [] then 0 else 1

variable (w : World n) (choice : Option Int)

/-- Asks a clause, where `self` asks the condition inside of it. -/
def askClause (self : Text → Seat n → Scope → Chance Bool) (subject : Seat n) (scope : Scope) :
    Clause → Chance Bool
  | .constant b => pure b
  | .group inside => self inside subject scope
  | .someone inside => w.seats.anyM fun i =>
      self inside i (scope.put outerVariable (.reference (w.reference subject)))
  | .predicate p => p.holds w choice subject scope

/-- Asks a condition, where `self` asks the parts that `||` joins and the conditions in
brackets. -/
def askBy (self : Text → Seat n → Scope → Chance Bool) (t : Text) (subject : Seat n)
    (scope : Scope) : Chance Bool :=
  let text := t.trim
  if text.isEmpty then pure true
  else if 1 < (splitTop ['|', '|'] text).length then
    (splitTop ['|', '|'] text).anyM fun operand => self operand subject scope
  else
    (splitTop ['&', '&'] text).allM fun clause =>
      askClause w choice self subject scope (Clause.read clause.trim)

variable {w choice} {subject : Seat n} {scope : Scope}

theorem holds_any_map {α : Type} (f : α → Condition) (xs : List α) :
    (any (xs.map f)).holds w choice subject scope =
      xs.anyM fun x => (f x).holds w choice subject scope := by
  induction xs with
  | nil => rfl
  | cons x rest ih =>
    rw [List.map_cons, any, holds, ih, List.anyM]
    refine bind_congr fun first => ?_
    cases first with
    | true => rfl
    | false => rfl

theorem holds_all_map {α : Type} (f : α → Condition) (xs : List α) :
    (all (xs.map f)).holds w choice subject scope =
      xs.allM fun x => (f x).holds w choice subject scope := by
  induction xs with
  | nil => rfl
  | cons x rest ih =>
    rw [List.map_cons, all, holds, ih, List.allM]
    refine bind_congr fun first => ?_
    cases first with
    | true => rfl
    | false => rfl

variable (w choice)

/-- A clause asks the condition inside of it, if it has one. -/
theorem holds_readClause (t : Text) :
    (readClause t).holds w choice subject scope =
      askClause w choice (fun u i σ => evaluateCondition w choice i σ u) subject scope
        (Clause.read t.trim) := by
  rw [readClause]
  cases Clause.read t.trim with
  | _ => rfl

theorem descends : Descends (fun t subject scope => evaluateCondition w choice subject scope t)
    (askBy w choice) GoesInto height where
  unfolds t := by
    funext subject scope
    rw [askBy, ← evaluateCondition_trim]
    split
    · rename_i hblank
      rw [List.isEmpty_iff.mp hblank, evaluateCondition_blank w choice subject scope rfl]
    split
    · -- a part without `||` is read as a part
      have hpart : ∀ operand ∈ splitTop ['|', '|'] t.trim,
          evaluateCondition w choice subject scope operand =
            (readAll operand).holds w choice subject scope :=
        fun operand hoperand => evaluateCondition_of_no_or w choice subject scope
          (topOccurrences_of_mem_splitTop (List.cons_ne_nil _ _) (by decide) hoperand)
      rw [Chance.anyM_congr hpart, ← holds_any_map, ← read_eq]
      rfl
    · rename_i hsingle
      rw [one_lt_length_splitTop_iff (List.cons_ne_nil _ _), ne_eq, Classical.not_not] at hsingle
      rw [evaluateCondition_of_no_or w choice subject scope hsingle, readAll, holds_all_map]
      exact Chance.allM_congr fun clause _ => (holds_readClause w choice clause).symm
  asks {_ _ t} hsame := by
    funext subject scope
    rw [askBy, askBy]
    split
    · rfl
    split
    · rename_i hseveral
      refine Chance.anyM_congr fun operand hoperand => ?_
      have htop : topOccurrences ['|', '|'] t ≠ [] := fun hnone =>
        (one_lt_length_splitTop_iff (List.cons_ne_nil _ _)).mp hseveral (topOccurrences_trim hnone)
      rw [hsame operand (.operand htop hoperand)]
    · refine Chance.allM_congr fun clause hclause => ?_
      cases hread : Clause.read clause.trim with
      | constant b => rfl
      | group inside => rw [askClause, askClause, hsame inside (.group hclause hread)]
      | someone inside => rw [askClause, askClause, hsame inside (.someone hclause hread)]
      | predicate p => rfl
  falls {t u} h := by
    rw [height, height]
    rcases openers_lt_or h with hlt | ⟨hle, hnone, hsome⟩
    · split <;> split <;> omega
    · rw [if_pos hnone, if_neg hsome]
      omega

end Condition

/-! ### Passages -/

namespace Slot

theorem infix_of_unquote (t : Text) : unquote t <:+: t := by
  refine List.IsInfix.trans ?_ (Text.isInfix_trim t)
  unfold unquote
  split
  · rename_i q c rest heq
    rw [heq]
    split
    · exact (List.dropLast_prefix _).isInfix.trans (List.suffix_cons q _).isInfix
    · exact List.infix_rfl
  · exact List.infix_rfl

theorem infix_of_breakTop? {token t a b : Text} (h : breakTop? token t = some (a, b)) :
    a <:+: t ∧ b <:+: t := by
  obtain ⟨i, -, h⟩ := Option.map_eq_some_iff.mp h
  obtain ⟨rfl, rfl⟩ := Prod.mk.inj h
  exact ⟨(List.take_prefix _ _).isInfix, (List.drop_suffix _ _).isInfix⟩

/-- The passages of a slot. -/
def passages : Slot → List Text
  | choose _ yes no => [yes, no]
  | draw options => options
  | _ => []

theorem passages_readMention (t : Text) : (readMention t).passages = [] := by
  unfold readMention
  dsimp only
  split <;> rfl

/-- The passages of a slot are pieces of it. -/
theorem infix_of_mem_passages {t u : Text} (h : u ∈ (read t).passages) : u <:+: t := by
  unfold read at h
  split at h
  · rename_i condition yes no hternary
    obtain ⟨⟨c, rest⟩, hquestion, hternary⟩ := Option.bind_eq_some_iff.mp hternary
    obtain ⟨⟨y, o⟩, hcolon, hternary⟩ := Option.map_eq_some_iff.mp hternary
    obtain ⟨rfl, rfl, rfl⟩ : c = condition ∧ y = yes ∧ o = no := by simpa using hternary
    have hrest := (infix_of_breakTop? hquestion).2
    obtain ⟨hyes, hno⟩ := infix_of_breakTop? hcolon
    rcases List.mem_pair.mp h with rfl | rfl
    · exact ((infix_of_unquote y).trans hyes).trans hrest
    · exact ((infix_of_unquote o).trans hno).trans hrest
  · dsimp only at h
    split at h
    · rename_i inside hdrawn
      obtain ⟨option, hoption, rfl⟩ := List.mem_map.mp h
      obtain ⟨rest, hafter, hdrawn⟩ := Option.bind_eq_some_iff.mp hdrawn
      split at hdrawn
      · obtain rfl := Option.some.inj hdrawn
        have hpart := infix_of_mem_splitTop (List.mem_filter.mp hoption).1
        have hinside :=
          (List.dropLast_prefix rest).isInfix.trans (Text.isSuffix_after? hafter).isInfix
        exact ((infix_of_unquote option).trans hpart).trans
          (hinside.trans (Text.isInfix_trim t))
      · cases hdrawn
    · cases h
    · rw [passages_readMention] at h
      cases h

end Slot

namespace Passage

/-- What a passage goes into: the passages of its slots. -/
def GoesInto (t u : Text) : Prop :=
  ∃ content, .slot content ∈ parts t ∧ u ∈ (Slot.read content).passages

theorem openers_lt {t u : Text} (h : GoesInto t u) : openers u < openers t := by
  obtain ⟨content, hcontent, hu⟩ := h
  have hinside := openers_le_of_isInfix (Slot.infix_of_mem_passages hu)
  have hslot : ((Part.slot content).text).Sublist t := by
    rw [← flatMap_text_parts t]
    exact List.sublist_flatten_of_mem (List.mem_map_of_mem hcontent)
  have hle := openers_le_of_sublist hslot
  have hbrace : openers (Part.slot content).text = openers content + 1 := by
    simp [openers, Part.text, isOpener]
  omega

variable (w : World n) (subject : Seat n) (scope : Scope)

/-- Renders a passage, where `self` renders the passages of its slots. -/
def renderBy (self : Text → Chance Text) (t : Text) : Chance Text :=
  fillParts (fun content => fillSlot w subject scope self (Slot.read content)) (parts t)

theorem fillParts_congr {f g : Text → Chance Text} {ps : List Part}
    (h : ∀ content, .slot content ∈ ps → f content = g content) :
    fillParts f ps = fillParts g ps := by
  induction ps with
  | nil => rfl
  | cons part rest ih =>
    have hrest := ih fun content hcontent => h content (List.mem_cons_of_mem part hcontent)
    cases part with
    | letter c => rw [fillParts, fillParts, hrest]
    | slot content => rw [fillParts, fillParts, hrest, h content List.mem_cons_self]

theorem fillSlot_congr {g h : Text → Chance Text} {slot : Slot}
    (hsame : ∀ u ∈ slot.passages, g u = h u) :
    fillSlot w subject scope g slot = fillSlot w subject scope h slot := by
  cases slot with
  | choose condition yes no =>
    rw [fillSlot, fillSlot, hsame yes (by simp [Slot.passages]), hsame no (by simp [Slot.passages])]
  | draw options =>
    cases options with
    | nil => rfl
    | cons option rest => exact (Chance.Ensures.pick option rest).bind_congr hsame
  | _ => rfl

theorem descends : Descends (renderPassage w subject scope) (renderBy w subject scope)
    GoesInto openers where
  unfolds t := (renderPassage_eq_fillParts w subject scope t).symm
  asks hsame :=
    fillParts_congr fun content hcontent => fillSlot_congr w subject scope fun u hu =>
      hsame u ⟨content, hcontent, hu⟩
  falls := openers_lt

end Passage

/-! ### Scripts -/

namespace Script

/-- What a command goes into: the bodies of its list operations. -/
def GoesInto (t u : Text) : Prop :=
  ∃ raw ∈ splitStatements t, ∃ list, (Statement.read raw).operation = .forEach list u

theorem openers_lt {t u : Text} (h : GoesInto t u) : openers u < openers t := by
  obtain ⟨raw, hraw, list, hbody⟩ := h
  exact Nat.lt_of_lt_of_le (Statement.openers_body_lt hbody)
    (openers_le_of_mem_splitStatements hraw)

/-- What an operation carries out for each member of a list, as `self` carries out commands. -/
def loopBy (self : Text → Seat n → Progress n → Chance (Progress n)) :
    Operation → Seat n → Progress n → Chance (Progress n)
  | .forEach _ body => self body
  | _ => fun _ p => pure p

/-- Carries out statements one after another. -/
def runEach (self : Text → Seat n → Progress n → Chance (Progress n)) :
    List Text → Seat n → Progress n → Chance (Progress n)
  | [], _, p => pure p
  | raw :: rest, subject, p => do
    let s := Statement.read raw
    let a ← s.attempt subject (loopBy self s.operation) p
    runEach self rest subject (a.progress.record ⟨raw, s, a.skipped⟩)

/-- Carries out a command, where `self` carries out the bodies of its list operations. -/
def runBy (self : Text → Seat n → Progress n → Chance (Progress n)) (t : Text) :
    Seat n → Progress n → Chance (Progress n) :=
  runEach self (splitStatements t)

theorem runEach_congr {g h : Text → Seat n → Progress n → Chance (Progress n)} {raws : List Text}
    (hsame : ∀ raw ∈ raws, ∀ list body, (Statement.read raw).operation = .forEach list body →
      g body = h body) : runEach g raws = runEach h raws := by
  induction raws with
  | nil => rfl
  | cons raw rest ih =>
    obtain ⟨hraw, hrest⟩ := List.forall_mem_cons.mp hsame
    have hloop : loopBy g (Statement.read raw).operation =
        loopBy h (Statement.read raw).operation := by
      cases hop : (Statement.read raw).operation with
      | forEach list body => exact hraw list body hop
      | _ => rfl
    funext subject p
    rw [runEach, runEach, hloop, ih hrest]

/-- A step carries out the body that its operation has, if any. -/
theorem attempt_read (raw : Text) (subject : Seat n) (p : Progress n) :
    (Step.read raw).attempt subject p = (Statement.read raw).attempt subject
      (loopBy (fun body => run (read body)) (Statement.read raw).operation) p := by
  have hnothing : (fun (i : Seat n) q => run [] i q) = fun _ q => pure q := by
    funext i q
    rw [run]
  rw [Step.read]
  split
  · rename_i list body hop
    rw [Step.attempt, hop]
    rfl
  · rename_i hother
    have hloop : loopBy (n := n) (fun body => run (read body)) (Statement.read raw).operation =
        fun _ q => pure q := by
      cases hop : (Statement.read raw).operation with
      | forEach list body => exact absurd hop (hother list body)
      | _ => rfl
    rw [Step.attempt, hnothing, hloop]

theorem run_map_read (raws : List Text) (subject : Seat n) (p : Progress n) :
    run (raws.map Step.read) subject p =
      runEach (fun body => run (read body)) raws subject p := by
  induction raws generalizing p with
  | nil => rw [List.map_nil, run, runEach]
  | cons raw rest ih =>
    rw [List.map_cons, run, runEach, attempt_read]
    refine bind_congr fun a => ?_
    have houtcome : (Step.read raw).outcome a.skipped = ⟨raw, Statement.read raw, a.skipped⟩ := by
      rw [Step.read]
      split <;> rfl
    rw [houtcome, ih]

/-- A body may be longer than its statement: commas get spaces when it is put together again. -/
theorem exists_length_lt : ∃ t u : Text, GoesInto t u ∧ t.length < u.length := by
  let t : Text := "列表执行(L,a,b,c,d,e,f,g,h,i,j)".toList
  let u : Text := "a, b, c, d, e, f, g, h, i, j".toList
  have hstatement : t ∈ splitStatements t := by decide
  have hoperation : (Statement.read t).operation = .forEach "L".toList u := by decide
  exact ⟨t, u, ⟨t, hstatement, "L".toList, hoperation⟩, by decide⟩

theorem descends :
    Descends (fun t (i : Seat n) p => run (read t) i p) runBy GoesInto openers where
  unfolds t := by
    funext subject p
    rw [runBy, read_eq, run_map_read]
  asks hsame :=
    runEach_congr fun raw hraw list body hop => hsame body ⟨raw, hraw, list, hop⟩
  falls := openers_lt

end Script

/-! ### All of them -/

/-- Interpretation of every text ends, and brackets bound how deep it goes. Quantities, conditions,
passages and scripts follow from what they do with the texts that they go into. Each such text opens
fewer brackets, unless it is one of several conditions joined by `||`; that one may open as many,
but has no `||` at the top level any more. So it is enough to nest each of them once more than there
are brackets (twice as often for conditions, because of `||`), whatever would be answered deeper
down, and no chain of texts that are gone into is longer. All this although the body of a list
operation may be longer than its statement. -/
theorem interpretation_descends (w : World n) (choice : Option Int) (subject : Seat n)
    (scope : Scope) :
    (Descends (evaluateQuantity w subject scope) (Quantity.evaluateBy w subject scope)
        Quantity.GoesInto openers ∧
      Descends (fun t i σ => evaluateCondition w choice i σ t) (Condition.askBy w choice)
        Condition.GoesInto Condition.height ∧
      Descends (renderPassage w subject scope) (Passage.renderBy w subject scope)
        Passage.GoesInto openers ∧
      Descends (fun t (i : Seat n) p => Script.run (Script.read t) i p) Script.runBy
        Script.GoesInto openers) ∧
    (∀ t u : Text,
      (Quantity.GoesInto t u ∨ Passage.GoesInto t u ∨ Script.GoesInto t u →
        openers u < openers t) ∧
      (Condition.GoesInto t u → openers u < openers t ∨
        openers u ≤ openers t ∧ topOccurrences ['|', '|'] u = [] ∧
          topOccurrences ['|', '|'] t ≠ [])) ∧
    (∀ (t : Text) (depth : Nat),
      (openers t < depth →
        (∀ beyond, nested (Quantity.evaluateBy w subject scope) beyond depth t =
          evaluateQuantity w subject scope t) ∧
        (∀ beyond, nested (Passage.renderBy w subject scope) beyond depth t =
          renderPassage w subject scope t) ∧
        ∀ beyond, nested Script.runBy beyond depth t subject (.start w scope) =
          execute w subject scope t) ∧
      (2 * openers t + 1 < depth →
        ∀ beyond, nested (Condition.askBy w choice) beyond depth t subject scope =
          evaluateCondition w choice subject scope t)) ∧
    (∀ (t : Text) (us : List Text),
      ((t :: us).IsChain Quantity.GoesInto ∨ (t :: us).IsChain Passage.GoesInto ∨
        (t :: us).IsChain Script.GoesInto → us.length ≤ openers t) ∧
      ((t :: us).IsChain Condition.GoesInto → us.length ≤ 2 * openers t + 1)) ∧
    ∃ t u : Text, Script.GoesInto t u ∧ t.length < u.length := by
  have hquantity := Quantity.descends w subject scope
  have hcondition := Condition.descends w choice
  have hpassage := Passage.descends w subject scope
  have hscript : Descends (fun t (i : Seat n) p => Script.run (Script.read t) i p) Script.runBy
      Script.GoesInto openers := Script.descends
  have hheight : ∀ t, Condition.height t ≤ 2 * openers t + 1 := by
    intro t
    rw [Condition.height]
    split <;> omega
  refine ⟨⟨hquantity, hcondition, hpassage, hscript⟩, ?_, ?_, ?_, ?_⟩
  · intro t u
    refine ⟨?_, Condition.openers_lt_or⟩
    rintro (h | h | h)
    · exact hquantity.falls h
    · exact hpassage.falls h
    · exact hscript.falls h
  · intro t depth
    refine ⟨fun hdepth => ⟨?_, ?_, ?_⟩, fun hdepth beyond => ?_⟩
    · exact fun beyond => hquantity.nested_eq beyond hdepth
    · exact fun beyond => hpassage.nested_eq beyond hdepth
    · exact fun beyond => congrFun (congrFun (hscript.nested_eq beyond hdepth) subject) _
    · have hlower := Nat.lt_of_le_of_lt (hheight t) hdepth
      exact congrFun (congrFun (hcondition.nested_eq beyond hlower) subject) scope
  · intro t us
    refine ⟨?_, fun h => Nat.le_trans (hcondition.length_le h) (hheight t)⟩
    rintro (h | h | h)
    · exact hquantity.length_le h
    · exact hpassage.length_le h
    · exact hscript.length_le h
  · exact Script.exists_length_lt

/-- A list operation inside of another one. -/
def innerLoop : Text :=
  "列表执行(乙, 跳转 e1)".toList

/-- A list operation with another one inside. -/
def outerLoop : Text :=
  "列表执行(甲, 列表执行(乙, 跳转 e1))".toList

theorem loops_in_loops_end :
    (openers outerLoop < 3 ∧ [outerLoop, innerLoop, "跳转 e1".toList].IsChain Script.GoesInto) ∧
    nested Script.runBy (fun _ _ p => pure p) 3 outerLoop 0 (.start trainerWorld .empty) =
      execute trainerWorld 0 .empty outerLoop ∧
    2 ≤ openers outerLoop := by
  have hdepth : openers outerLoop < 3 := by decide
  have hinner : (Statement.read outerLoop).operation = .forEach "甲".toList innerLoop := by decide
  have hjump : (Statement.read innerLoop).operation = .forEach "乙".toList "跳转 e1".toList := by
    decide
  have hchain : [outerLoop, innerLoop, "跳转 e1".toList].IsChain Script.GoesInto := by
    refine List.isChain_cons_cons.mpr ⟨⟨outerLoop, by decide, _, hinner⟩, ?_⟩
    exact List.isChain_cons_cons.mpr ⟨⟨innerLoop, by decide, _, hjump⟩, .singleton _⟩
  obtain ⟨-, -, hends, hbounds, -⟩ := interpretation_descends trainerWorld none 0 .empty
  exact ⟨⟨hdepth, hchain⟩, ((hends outerLoop 3).1 hdepth).2.2 _,
    (hbounds outerLoop _).1 (.inr (.inr hchain))⟩

end EventScript
