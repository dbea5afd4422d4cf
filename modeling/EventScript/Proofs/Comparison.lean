/-
Comparisons of accessors.

A condition may compare an accessor with a quantity, as in `训练员.属性.魅力 >= 随机(1, 6)`.  Such
a text is nothing else but that comparison, whatever the words in the accessor are:

* `Comparison.readThen?_against`, `Comparison.readThen?_eq_none` — where operators are read;
* `Trait.read?_text`, `Predicate.read?_comparison`, `Clause.read_comparison` — how each reader
  finds the comparison;
* `Condition.readClause_comparison` — what is read in the end.
-/
import EventScript.Proofs.Accessor
import EventScript.Proofs.Composition

namespace EventScript

/-! ### Operators -/

namespace Comparison

/-- The end of a comparison: the operator and what is compared with, after single spaces. -/
def against (c : Comparison) (t : Text) : Text :=
  ' ' :: (c.symbol ++ ' ' :: t)

theorem append_against (start : Text) (c : Comparison) (t : Text) :
    start ++ c.against t = start ++ ' ' :: (c.symbol ++ [' ']) ++ t := by
  simp [against]

theorem getLast?_append_against (start : Text) (c : Comparison) {t : Text} (ht : t ≠ []) :
    (start ++ c.against t).getLast? = t.getLast? := by
  rw [append_against, List.getLast?_append_of_ne_nil _ ht]

/-- No operator is read where something else stands. -/
theorem readThen?_eq_none {β : Type} (accept : Text → Option β) {d : Char}
    (hblank : isBlank d = false) (hd : d ∉ ['<', '>', '=', '!']) (rest : Text) :
    readThen? accept (d :: rest) = none := by
  rw [readThen?, Text.trimStart_cons hblank]
  show all.findSome? _ = none
  rw [List.findSome?_eq_none_iff]
  intro c _
  obtain ⟨x, more, hsymbol, hx⟩ : ∃ x more, c.symbol = x :: more ∧ x ∈ ['<', '>', '=', '!'] := by
    cases c <;> exact ⟨_, _, rfl, by decide⟩
  have hne : x ≠ d := by
    rintro rfl
    exact hd hx
  rw [hsymbol, Text.after?, if_neg hne]
  rfl

/-- An operator between spaces is read, and what follows it. -/
theorem readThen?_against {β : Type} (accept : Text → Option β) (c : Comparison) {t : Text} {b : β}
    (h : accept t.trimStart = some b) :
    readThen? accept (c.against t) = some (c, b) := by
  have hstart : Text.trimStart (c.against t) = c.symbol ++ ' ' :: t := by
    cases c <;> rfl
  have hspace : Text.trimStart (' ' :: t) = t.trimStart := rfl
  rw [readThen?, hstart]
  cases c <;> simp [all, List.findSome?, symbol, Text.after?, hspace, h]

end Comparison

/-- The comparison with a quantity that stands at the end of a line. -/
theorem readComparison?_against (c : Comparison) {t : Text} (hline : '\n' ∉ t)
    (ht : t.trimStart ≠ []) :
    readComparison? (c.against t) = some (c, Quantity.read t.trimStart) := by
  have hone : Comparison.oneLine? t.trimStart = some t.trimStart := by
    have hcontains : t.trimStart.contains '\n' = false := by
      rw [← Bool.not_eq_true, List.contains_iff_mem]
      exact fun hmem => hline ((List.dropWhile_sublist _).subset hmem)
    rw [Comparison.oneLine?, List.isEmpty_eq_false_iff.mpr ht, hcontains]
    rfl
  rw [readComparison?, Comparison.read?, Comparison.readThen?_against _ c hone]
  rfl

/-! ### Traits -/

/-- The first form that fits is taken. -/
theorem findSome?_append_cons {α β : Type} {f : α → Option β} (before : List α) {after : List α}
    {x : α} {b : β} (hbefore : ∀ y ∈ before, f y = none) (h : f x = some b) :
    (before ++ x :: after).findSome? f = some b := by
  rw [List.findSome?_append, List.findSome?_eq_none_iff.mpr hbefore, Option.none_or,
    List.findSome?_cons, h]

/-- A word in brackets is the shortest body that they can have. -/
theorem shortestBody?_word {β : Type} {accept : Text → Option β} {tail : Text} {b : β}
    (hend : accept (')' :: tail) = some b)
    (hword : ∀ c rest, isWord c → accept (c :: rest) = none) {t : Text} (ht : t.IsWord) :
    shortestBody? accept (t ++ ')' :: tail) = some (t, b) := by
  obtain ⟨hne, hall⟩ := ht
  induction t with
  | nil => exact absurd rfl hne
  | cons c rest ih =>
    obtain ⟨hc, hrest⟩ := List.forall_mem_cons.mp hall
    have hline : c ≠ '\n' := by
      rintro rfl
      exact absurd hc (by decide)
    rw [List.cons_append, shortestBody?, if_neg hline]
    -- the body goes on as long as word characters follow
    cases rest with
    | nil =>
      rw [List.nil_append, hend]
    | cons d more =>
      rw [ih (List.cons_ne_nil d more) hrest, List.cons_append,
        hword d _ (hrest d List.mem_cons_self)]
      rfl

theorem bracketBody?_word {β : Type} {accept : Text → Option β} {tail : Text} {b : β}
    (hend : accept (')' :: tail) = some b)
    (hword : ∀ c rest, isWord c → accept (c :: rest) = none) {t : Text} (ht : t.IsWord) :
    bracketBody? accept (t ++ ')' :: tail) = some (t, b) := by
  have hblanks : ((t ++ ')' :: tail).takeWhile isBlank).length = 0 := by
    obtain ⟨c, rest, rfl, hc⟩ := ht.exists_cons
    rw [List.cons_append, List.takeWhile_cons_of_neg]
    · rfl
    · rw [isBlank_eq_false_of_isWord hc]
      exact Bool.false_ne_true
  have hrange : (List.range (0 + 1)).reverse = [0] := rfl
  rw [bracketBody?, hblanks, hrange, List.findSome?_singleton, List.drop_zero,
    shortestBody?_word hend hword ht]

/-- The trait that compares a reading with a quantity. -/
def Reading.compared (c : Comparison) (q : Quantity) : Reading → Trait
  | stat name => .stat name c q
  | layers tag => .layers tag c q
  | relation object kind => .relation object kind c q

namespace Trait

variable {c : Comparison} {t : Text}

theorem attribute?_against (hline : '\n' ∉ t) (ht : t.trimStart ≠ []) {name : Text}
    (hname : name.IsWord) :
    attribute? (name ++ c.against t) = some (.stat name c (Quantity.read t.trimStart)) := by
  have hspace : isWord ' ' = false := by decide
  rw [attribute?, Comparison.against, takeWhile_append_mark hname.all hspace,
    dropWhile_append_mark hname.all hspace, ← Comparison.against,
    readComparison?_against c hline ht]
  show (if name.isEmpty then none else _) = _
  rw [List.isEmpty_eq_false_iff.mpr hname.ne_nil]
  rfl

theorem layers?_against (hline : '\n' ∉ t) (ht : t.trimStart ≠ []) {tag : Text}
    (htag : tag.IsWord) :
    layers? (tag ++ ')' :: (".层数".toList ++ c.against t)) =
      some (.layers tag c (Quantity.read t.trimStart)) := by
  have hword : ∀ d rest, isWord d →
      (afterBlanks? ").层数".toList (d :: rest)).bind readComparison? = none := by
    intro d rest hd
    have hne : ')' ≠ d := by
      rintro rfl
      exact absurd hd (by decide)
    rw [afterBlanks?, Text.trimStart_cons (isBlank_eq_false_of_isWord hd)]
    show (Text.after? (')' :: _) (d :: rest)).bind _ = none
    rw [Text.after?, if_neg hne]
    rfl
  have hend : (afterBlanks? ").层数".toList (')' :: (".层数".toList ++ c.against t))).bind
      readComparison? = some (c, Quantity.read t.trimStart) :=
    readComparison?_against c hline ht
  rw [layers?, bracketBody?_word hend hword htag]
  rfl

theorem relationKind?_against (hline : '\n' ∉ t) (ht : t.trimStart ≠ []) (object : Text)
    (kind : RelationKind) :
    relationKind? object (kind.name.toList ++ c.against t) =
      some (.relation object kind c (Quantity.read t.trimStart)) := by
  have hfits : ((Text.after? kind.name.toList (kind.name.toList ++ c.against t)).bind fun rest =>
      (readComparison? rest).map fun compared => relation object kind compared.1 compared.2) =
        some (.relation object kind c (Quantity.read t.trimStart)) := by
    rw [Text.after?_eq_some_iff.mpr rfl, Option.bind_some, readComparison?_against c hline ht]
    rfl
  cases kind with
  | friendship => exact findSome?_append_cons [] (List.forall_mem_nil _) hfits
  | romance =>
    exact findSome?_append_cons [RelationKind.friendship] (List.forall_mem_singleton.mpr rfl) hfits

theorem relation?_against (hline : '\n' ∉ t) (ht : t.trimStart ≠ []) {object : Text}
    (hobject : object.IsWord) (kind : RelationKind) :
    relation? (object ++ '.' :: (kind.name.toList ++ c.against t)) =
      some (.relation object kind c (Quantity.read t.trimStart)) := by
  have hdot : isWord '.' = false := by decide
  rw [relation?, takeWhile_append_mark hobject.all hdot, dropWhile_append_mark hobject.all hdot]
  show (if object.isEmpty then none else _) = _
  rw [List.isEmpty_eq_false_iff.mpr hobject.ne_nil, relationKind?_against hline ht]
  rfl

/-- A reading that is compared with a quantity is read as such. -/
theorem read?_text (hline : '\n' ∉ t) (ht : t.trimStart ≠ []) {r : Reading} (h : r.word.IsWord) :
    read? (r.text ++ c.against t) = some (r.compared c (Quantity.read t.trimStart)) := by
  cases r with
  | stat name =>
    exact findSome?_append_cons (forms.take 2)
      (List.forall_mem_cons.mpr ⟨rfl, List.forall_mem_singleton.mpr rfl⟩)
      (attribute?_against hline ht h)
  | layers tag =>
    have htext : (Reading.layers tag).text ++ c.against t =
        "标签组(".toList ++ (tag ++ ')' :: (".层数".toList ++ c.against t)) := by
      simp [Reading.text, Text.wrap]
    rw [htext]
    exact findSome?_append_cons [] (List.forall_mem_nil _) (layers?_against hline ht h)
  | relation object kind =>
    have hbefore : ∀ form ∈ forms.take 4, (Text.after? form.1
        ((Reading.relation object kind).text ++ c.against t)).bind form.2 = none := by
      refine List.forall_mem_cons.mpr ⟨rfl, List.forall_mem_cons.mpr ⟨rfl, ?_⟩⟩
      exact List.forall_mem_cons.mpr ⟨rfl, List.forall_mem_singleton.mpr rfl⟩
    have htext : (Reading.relation object kind).text ++ c.against t =
        "关系.".toList ++ (object ++ '.' :: (kind.name.toList ++ c.against t)) := by
      simp [Reading.text]
    refine findSome?_append_cons (forms.take 4) hbefore ?_
    rw [htext]
    exact relation?_against hline ht h kind

end Trait

/-! ### Predicates -/

theorem readQuotedEquality?_eq_none {d : Char} (hblank : isBlank d = false)
    (hd : d ∉ ['<', '>', '=', '!']) (rest : Text) : readQuotedEquality? (d :: rest) = none := by
  have hafter : ∀ x ∈ ['<', '>', '=', '!'], ∀ more, Text.after? (x :: more) (d :: rest) = none := by
    intro x hx more
    rw [Text.after?, if_neg]
    rintro rfl
    exact hd hx
  rw [readQuotedEquality?, readEquality?, Text.trimStart_cons hblank]
  simp only [hafter '=' (by decide), hafter '!' (by decide)]
  rfl

namespace Predicate

variable {a : Accessor}

theorem variableSet?_eq_none {d : Char} (hblank : isBlank d = false) (rest : Text) :
    variableSet? (d :: rest) = none := by
  rw [variableSet?, Text.trimStart_cons hblank]
  simp

/-- No form of predicates about the moment fits an accessor. -/
theorem form_eq_none (h : a.IsNamed) (tail : Text) {x : Char} {more : Text}
    (hx : x ∉ ['属', '标', '关']) (hdot : '.' ∉ x :: more) {go : Text → Option Predicate}
    (hgo : ∀ d rest, isBlank d = false → d ∉ ['<', '>', '=', '!'] → go (d :: rest) = none) :
    (Text.after? (x :: more) (a.text ++ tail)).bind go = none := by
  cases hafter : Text.after? (x :: more) (a.text ++ tail) with
  | none => rfl
  | some rest =>
    have htext := Text.after?_eq_some_iff.mp hafter
    obtain ⟨key, hkey, key', rfl⟩ := Accessor.exists_holder_of_begins hx hdot ⟨rest, htext.symm⟩
    have hword := h.holder _ hkey
    obtain ⟨holder, reading⟩ := a
    obtain rfl : holder = _ := hkey
    rw [Accessor.text_append] at htext
    -- behind the form the rest of the selector goes on, or its point comes
    have hrest : rest = key' ++ '.' :: (reading.text ++ tail) :=
      List.append_cancel_left (htext.symm.trans (List.append_assoc (x :: more) key' _))
    cases key' with
    | nil =>
      rw [hrest]
      exact hgo '.' _ rfl (by decide)
    | cons d rest' =>
      have hd : isWord d := hword.all d (List.mem_append_right _ List.mem_cons_self)
      rw [hrest]
      exact hgo d _ (isBlank_eq_false_of_isWord hd) (notMem_of_all_not hd (by decide))

/-- An accessor asks nothing about the moment. -/
theorem forms_eq_none (h : a.IsNamed) (tail : Text) :
    (forms.findSome? fun (start, go) => (Text.after? start (a.text ++ tail)).bind go) = none := by
  have hdigits : ∀ (make : Comparison → Int → Predicate) d rest, isBlank d = false →
      d ∉ ['<', '>', '=', '!'] → readDigits? make (d :: rest) = none := by
    intro make d rest hblank hd
    rw [readDigits?, Comparison.readThen?_eq_none _ hblank hd]
    rfl
  have hperiod : ∀ (make : Bool × Text → Predicate) d rest, isBlank d = false →
      d ∉ ['<', '>', '=', '!'] → (readQuotedEquality? (d :: rest)).map make = none := by
    intro make d rest hblank hd
    rw [readQuotedEquality?_eq_none hblank hd]
    rfl
  have hteam : ∀ (make : Comparison × Quantity → Predicate) d rest, isBlank d = false →
      d ∉ ['<', '>', '=', '!'] → (readComparison? (d :: rest)).map make = none := by
    intro make d rest hblank hd
    rw [readComparison?, Comparison.read?, Comparison.readThen?_eq_none _ hblank hd]
    rfl
  have hset : ∀ d rest, isBlank d = false → d ∉ ['<', '>', '=', '!'] →
      variableSet? (d :: rest) = none := by
    intro d rest hblank _
    exact variableSet?_eq_none hblank rest
  have hvariable : (Text.after? variableMark (a.text ++ tail)).bind variableIs? = none := by
    rw [Text.after?_eq_none (Accessor.not_variable h _)]
    rfl
  rw [List.findSome?_eq_none_iff]
  refine List.forall_mem_cons.mpr ⟨form_eq_none h _ (by decide) (by decide) (hdigits _), ?_⟩
  refine List.forall_mem_cons.mpr ⟨form_eq_none h _ (by decide) (by decide) (hdigits _), ?_⟩
  refine List.forall_mem_cons.mpr ⟨form_eq_none h _ (by decide) (by decide) (hdigits _), ?_⟩
  refine List.forall_mem_cons.mpr ⟨form_eq_none h _ (by decide) (by decide) (hperiod _), ?_⟩
  refine List.forall_mem_cons.mpr ⟨form_eq_none h _ (by decide) (by decide) (hteam _), ?_⟩
  refine List.forall_mem_cons.mpr ⟨form_eq_none h _ (by decide) (by decide) hset, ?_⟩
  exact List.forall_mem_singleton.mpr hvariable

variable {c : Comparison} {t : Text}

theorem trait?_comparison (h : a.IsNamed) (hline : '\n' ∉ t) (ht : t.trimStart ≠ [])
    (hend : ∀ d ∈ t.getLast?, isBlank d = false) :
    trait? (a.text ++ c.against t) =
      some (.trait a.holder (a.reading.compared c (Quantity.read t.trimStart))) := by
  have hne : t ≠ [] := by
    rintro rfl
    exact ht rfl
  rw [← Comparison.getLast?_append_against a.reading.text c hne] at hend
  rw [trait?, Accessor.splitSelector_text h _ hend]
  show Option.map _ (Trait.read? (a.reading.text ++ c.against t)) = _
  rw [Trait.read?_text hline ht h.word]
  rfl

/-- The predicate that an accessor makes with a comparison. -/
theorem read?_comparison (h : a.IsNamed) (hline : '\n' ∉ t) (ht : t.trimStart ≠ [])
    (hend : ∀ d ∈ t.getLast?, isBlank d = false) :
    read? (a.text ++ c.against t) =
      some (.trait a.holder (a.reading.compared c (Quantity.read t.trimStart))) := by
  have hrandom : random? (a.text ++ c.against t) = none := by
    rw [random?, if_neg]
    rw [List.isPrefixOf_iff_prefix]
    exact Accessor.not_random h _
  rw [read?, forms_eq_none h, hrandom, trait?_comparison h hline ht hend]
  rfl

end Predicate

/-! ### Conditions -/

section

variable {a : Accessor} {c : Comparison} {t : Text}

/-- What joins conditions at the top level of a comparison stands in what is compared with. -/
theorem topOccurrences_comparison (h : a.IsNamed) {x : Char} (hx : x = '|' ∨ x = '&') {more : Text}
    (ht : topOccurrences (x :: more) t = []) :
    topOccurrences (x :: more) (a.text ++ c.against t) = [] := by
  have hmark : ∀ y : Char, y = '|' ∨ y = '&' → isWord y = false ∧ y ∉ ['.', '(', ')'] := by
    rintro y (rfl | rfl) <;> decide
  have hoperator : x ∉ ' ' :: (c.symbol ++ [' ']) := by
    rcases hx with rfl | rfl <;> cases c <;> decide
  have hbalanced : Text.IsBalanced (a.text ++ ' ' :: (c.symbol ++ [' '])) := by
    refine (Accessor.isBalanced_text h).append (Text.isBalanced_of_isPlain (List.all_eq_true.mp ?_))
    cases c <;> rfl
  rw [Comparison.append_against, topOccurrences, topOccurrencesFrom_append_of_notMem
    (List.not_mem_append (Accessor.notMem_text h (hmark x hx).1 (hmark x hx).2) hoperator)]
  exact topOccurrencesFrom_eq_nil hbalanced.isClosed ht _

theorem Clause.read_comparison (h : a.IsPlain) (hline : '\n' ∉ t) (ht : t.trimStart ≠ [])
    (hend : ∀ d ∈ t.getLast?, isBlank d = false) :
    read (a.text ++ c.against t) =
      .predicate (.trait a.holder (a.reading.compared c (Quantity.read t.trimStart))) := by
  have hne : t ≠ [] := by
    rintro rfl
    exact ht rfl
  have hpoint : '.' ∈ a.text ++ c.against t := List.mem_append_left _ a.point_mem_text
  have hempty : (a.text ++ c.against t).isEmpty = false :=
    List.isEmpty_eq_false_iff.mpr (List.ne_nil_of_mem hpoint)
  -- the text is none of the things that are tried before predicates
  have hfixed : ∀ word : Text, '.' ∉ word → a.text ++ c.against t ≠ word := by
    rintro word hword rfl
    exact hword hpoint
  have hunwrap : unwrap? (a.text ++ c.against t) = none := by
    refine unwrap?_eq_none fun hhead => ?_
    have hlast := Comparison.getLast?_append_against a.text c hne ▸ hend
    rw [Accessor.trim_text_append h.isNamed hlast] at hhead
    exact absurd (Accessor.head?_text h.isNamed _ '(' hhead) (by decide)
  have hsomeone : Text.after? someoneWord (a.text ++ c.against t) = none := by
    refine Text.after?_eq_none fun hbegins => ?_
    obtain ⟨key, hkey, hin⟩ := Accessor.exists_holder_of_begins (by decide) (by decide) hbegins
    exact h.holder_not_someone key hkey hin
  rw [read, hempty, hunwrap, if_neg Bool.false_ne_true, if_neg (hfixed _ (by decide)),
    if_neg (hfixed _ (by decide))]
  show readOpen _ = _
  rw [readOpen, hsomeone, Predicate.read?_comparison h.isNamed hline ht hend]

theorem Quantity.read_congr {t u : Text} (h : t.trim = u.trim) : read t = read u := by
  rw [read, read]
  simp only [h]
  generalize t.trim = v at h ⊢
  subst h
  rfl

/-- White space at the end of a comparison does not matter. -/
theorem Comparison.trim_append_against (start : Text) (c : Comparison) (t : Text) :
    Text.trim (start ++ c.against t.trimEnd) = Text.trim (start ++ c.against t) := by
  refine Text.apply_trimEnd (f := fun u => Text.trim (start ++ c.against u)) ?_ t
  intro d hd u
  show Text.trim (start ++ c.against (u ++ [d])) = Text.trim (start ++ c.against u)
  rw [append_against, append_against, ← List.append_assoc, Text.trim_concat hd]

/-- A condition that compares an accessor with a quantity is that comparison. -/
theorem Condition.readClause_comparison (h : a.IsPlain) (hline : '\n' ∉ t) (ht : t.trim ≠ []) :
    readClause (a.text ++ c.against t) =
      .predicate (.trait a.holder (a.reading.compared c (Quantity.read t))) := by
  have htrim : t.trimEnd.trimStart.trim = t.trim :=
    (Text.apply_trimStart Text.trim_cons _).trans (Text.apply_trimEnd Text.trim_concat t)
  -- trimming the whole text trims what is compared with at its end only
  have hstart : t.trimEnd.trimStart ≠ [] := by
    intro hnil
    rw [hnil] at htrim
    exact ht htrim.symm
  have hne : t.trimEnd ≠ [] := by
    intro hnil
    rw [hnil] at hstart
    exact hstart rfl
  have hline' : '\n' ∉ t.trimEnd := fun hmem => hline ((Text.trimEnd_sublist t).subset hmem)
  have hend := Text.getLast?_trimEnd t
  rw [readClause, ← Comparison.trim_append_against,
    Accessor.trim_text_append h.isNamed (Comparison.getLast?_append_against _ c hne ▸ hend),
    Clause.read_comparison h hline' hstart hend, Quantity.read_congr htrim]
  rfl

end

end EventScript
