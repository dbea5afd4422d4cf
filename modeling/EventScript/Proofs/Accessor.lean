/-
Accessors as they are written.

An accessor is a reading of a character, such as `属性.体力` or `关系.玩家.友情`, with or without
a selector before it.  Where all its names are words it can be told from anything else that
texts may begin with, and whoever reads it finds again what was written:

* `Accessor.exists_holder_of_begins` — what else can begin like an accessor;
* `Accessor.splitSelector_text` — the selector comes off;
* `Accessor.read?_text`, `Quantity.read_text` — the text of an accessor is read as that accessor;
* `Accessor.isBalanced_text`, `Accessor.notMem_text` — accessors leave nothing open, and no marks
  but points and brackets stand in them.
-/
import EventScript.Proofs.Word
import EventScript.Script.Condition

namespace EventScript

/-! ### Written accessors -/

namespace Reading

/-- How a reading is written. -/
def text : Reading → Text
  | stat name => "属性.".toList ++ name
  | layers tag => "标签组".toList ++ (tag.wrap ++ ".层数".toList)
  | relation object kind => "关系.".toList ++ (object ++ '.' :: kind.name.toList)

/-- The word that a reading has in it. -/
def word : Reading → Text
  | stat name => name
  | layers tag => tag
  | relation object _ => object

end Reading

namespace Accessor

/-- How an accessor is written. -/
def text (a : Accessor) : Text :=
  match a.holder with
  | none => a.reading.text
  | some key => key ++ '.' :: a.reading.text

/-- Everything in an accessor is a word, and its selector is none of the words that readings and
variables begin with. -/
structure IsNamed (a : Accessor) : Prop where
  word : a.reading.word.IsWord
  holder : ∀ key ∈ a.holder, key.IsWord
  holder_notMem : ∀ key ∈ a.holder, key ∉ expressionHeads

/-- Everything in an accessor is a word, and nothing else begins like it. -/
structure IsPlain (a : Accessor) : Prop where
  word : a.reading.word.IsWord
  holder : ∀ key ∈ a.holder, key.IsWord
  holder_notMem : ∀ key ∈ a.holder, key ∉ expressionHeads
  holder_not_someone : ∀ key ∈ a.holder, ¬ Clause.someoneWord <+: key

theorem IsPlain.isNamed {a : Accessor} (h : a.IsPlain) : a.IsNamed :=
  ⟨h.word, h.holder, h.holder_notMem⟩

end Accessor

/-! ### Quantities -/

theorem RelationKind.ofName?_name (kind : RelationKind) : ofName? kind.name = some kind := by
  cases kind <;> decide

namespace Reading

theorem read?_text {r : Reading} (h : r.word.IsWord) : read? r.text = some r := by
  cases r with
  | stat name =>
    have hname : name.IsWord := h
    show attribute? name = _
    rw [attribute?, if_pos]
    rw [Bool.and_eq_true, Bool.not_eq_true', List.isEmpty_eq_false_iff, List.all_eq_true]
    exact ⟨hname.ne_nil, hname.all⟩
  | layers tag =>
    have htag : tag.IsWord := h
    have hstop : ∀ c ∈ tag, (c != ')') = true := by
      intro c hc
      rw [bne_iff_ne]
      rintro rfl
      exact htag.notMem (by decide) hc
    have hbetween : tagBetween? tag = some tag := by
      have hne := List.isEmpty_eq_false_iff.mpr htag.ne_nil
      simp only [tagBetween?, htag.trim_eq, hne, Bool.false_eq_true, if_false]
    show layers? ((tag ++ [')']) ++ ".层数".toList) = _
    rw [List.append_assoc, List.singleton_append, layers?,
      dropWhile_append_mark (p := (· != ')')) hstop rfl,
      takeWhile_append_mark (p := (· != ')')) hstop rfl, hbetween]
    rfl
  | relation object kind =>
    have hobject : object.IsWord := h
    have hdot : isWord '.' = false := by decide
    show relation? (object ++ '.' :: kind.name.toList) = _
    rw [relation?, takeWhile_append_mark hobject.all hdot, dropWhile_append_mark hobject.all hdot]
    show (if object.isEmpty then none else _) = _
    rw [List.isEmpty_eq_false_iff.mpr hobject.ne_nil, String.ofList_toList,
      RelationKind.ofName?_name]
    rfl

theorem head?_text (r : Reading) (tail : Text) : ∀ c ∈ (r.text ++ tail).head?, isWord c := by
  intro c hc
  cases r <;> (obtain rfl := Option.some.inj hc; decide +kernel)

theorem getLast?_text {r : Reading} (h : r.word.IsWord) :
    ∀ c ∈ r.text.getLast?, isBlank c = false := by
  intro c hc
  cases r with
  | stat name =>
    have hname : name.IsWord := h
    have hlast : (stat name).text.getLast? = name.getLast? :=
      List.getLast?_append_of_ne_nil _ hname.ne_nil
    rw [hlast] at hc
    exact isBlank_eq_false_of_isWord (hname.all c (List.mem_of_mem_getLast? hc))
  | layers tag =>
    rw [text, ← List.append_assoc, List.getLast?_append_of_ne_nil _ (by decide)] at hc
    obtain rfl := Option.some.inj hc
    decide
  | relation object kind =>
    rw [text, List.getLast?_append_of_ne_nil _ (List.append_ne_nil_of_right_ne_nil _
      (List.cons_ne_nil _ _)), List.getLast?_append_of_ne_nil _ (List.cons_ne_nil _ _)] at hc
    cases kind <;> (obtain rfl := Option.some.inj hc; decide)

/-- A reading does not begin with anything else that texts may begin with. -/
theorem not_prefix_text {x : Char} (hx : x ∉ ['属', '标', '关']) (more : Text) (r : Reading)
    (tail : Text) : ¬ x :: more <+: r.text ++ tail := by
  intro h
  cases r <;> exact hx ((List.cons_prefix_cons.mp h).1 ▸ by decide)

theorem text_ne_nil (r : Reading) (tail : Text) : r.text ++ tail ≠ [] := by
  cases r <;> exact List.cons_ne_nil _ _

/-- A reading begins with a word that is no selector. -/
theorem splitSelector_text (r : Reading) (tail : Text)
    (hend : ∀ c ∈ (r.text ++ tail).getLast?, isBlank c = false) :
    splitSelector (r.text ++ tail) = (none, r.text ++ tail) := by
  have htrim := Text.trim_eq_self
    (fun c hc => isBlank_eq_false_of_isWord (r.head?_text tail c hc)) hend
  -- the word is followed by a mark, which is a point or an opening bracket
  have hhead : ∀ (head : Text) (d : Char) (rest : Text), r.text ++ tail = head ++ d :: rest →
      (∀ c ∈ head, isSelectorPart c) → isSelectorPart d = false → head ∈ expressionHeads →
      splitSelector (r.text ++ tail) = (none, r.text ++ tail) := by
    intro head d rest htext hword hmark hmem
    have hcontains : expressionHeads.contains head = true := List.contains_iff_mem.mpr hmem
    rw [splitSelector, htrim]
    simp only [htext, takeWhile_append_mark hword hmark, dropWhile_append_mark hword hmark,
      hcontains, Bool.or_true, if_true]
    split <;> rfl
  cases r with
  | stat name =>
    exact hhead "属性".toList '.' _ rfl (List.all_eq_true.mp rfl) (by decide) (by decide)
  | layers tag =>
    exact hhead "标签组".toList '(' _ rfl (List.all_eq_true.mp rfl) (by decide) (by decide)
  | relation object kind =>
    exact hhead "关系".toList '.' _ rfl (List.all_eq_true.mp rfl) (by decide) (by decide)

end Reading

namespace Accessor

variable {a : Accessor}

theorem text_append (holder : Option Text) (reading : Reading) (tail : Text) :
    text ⟨holder, reading⟩ ++ tail =
      match holder with
      | none => reading.text ++ tail
      | some key => key ++ '.' :: (reading.text ++ tail) := by
  cases holder with
  | none => rfl
  | some key => exact List.append_assoc key ('.' :: reading.text) tail

/-- An accessor begins with a word. -/
theorem head?_text (h : a.IsNamed) (tail : Text) : ∀ c ∈ (a.text ++ tail).head?, isWord c := by
  obtain ⟨holder, reading⟩ := a
  cases holder with
  | none => exact reading.head?_text tail
  | some key =>
    intro c hc
    obtain ⟨k, more, rfl, hk⟩ := (h.holder key rfl).exists_cons
    obtain rfl := Option.some.inj hc
    exact hk

theorem trim_text_append (h : a.IsNamed) {tail : Text}
    (hend : ∀ c ∈ (a.text ++ tail).getLast?, isBlank c = false) :
    Text.trim (a.text ++ tail) = a.text ++ tail :=
  Text.trim_eq_self (fun c hc => isBlank_eq_false_of_isWord (head?_text h tail c hc)) hend

theorem getLast?_text (a : Accessor) (tail : Text) :
    (a.text ++ tail).getLast? = (a.reading.text ++ tail).getLast? := by
  obtain ⟨holder, reading⟩ := a
  cases holder with
  | none => rfl
  | some key =>
    obtain ⟨c, rest, hrest⟩ := List.exists_cons_of_ne_nil (reading.text_ne_nil tail)
    rw [text_append]
    show (key ++ '.' :: (reading.text ++ tail)).getLast? = (reading.text ++ tail).getLast?
    rw [List.getLast?_append_cons, hrest, List.getLast?_cons_cons]

theorem splitSelector_text (h : a.IsNamed) (tail : Text)
    (hend : ∀ c ∈ (a.reading.text ++ tail).getLast?, isBlank c = false) :
    splitSelector (a.text ++ tail) = (a.holder, a.reading.text ++ tail) := by
  obtain ⟨holder, reading⟩ := a
  cases holder with
  | none => exact reading.splitSelector_text tail hend
  | some key =>
    have hkey : key.IsWord := h.holder key rfl
    have hcontains : expressionHeads.contains key = false := by
      rw [← Bool.not_eq_true, List.contains_iff_mem]
      exact h.holder_notMem key rfl
    obtain ⟨c, rest, hrest⟩ := List.exists_cons_of_ne_nil (reading.text_ne_nil tail)
    have htrim := trim_text_append h (getLast?_text ⟨some key, reading⟩ tail ▸ hend)
    have hword : ∀ c ∈ key, isSelectorPart c := fun c hc => isSelectorPart_of_isWord (hkey.all c hc)
    have hpoint : isSelectorPart '.' = false := by decide
    rw [splitSelector, htrim, text_append]
    simp only [takeWhile_append_mark hword hpoint, dropWhile_append_mark hword hpoint, hcontains,
      List.isEmpty_eq_false_iff.mpr hkey.ne_nil, hrest, Bool.or_false, Bool.false_eq_true, if_false]
    rw [← hrest, Text.trim_eq_self
      (fun c hc => isBlank_eq_false_of_isWord (reading.head?_text tail c hc)) hend]

/-- What begins an accessor and has no point in it begins its selector, unless a reading may
begin like that. -/
theorem exists_holder_of_begins {x : Char} {more : Text} (hx : x ∉ ['属', '标', '关'])
    (hdot : '.' ∉ x :: more) {tail : Text} (hbegins : x :: more <+: a.text ++ tail) :
    ∃ key ∈ a.holder, x :: more <+: key := by
  obtain ⟨holder, reading⟩ := a
  cases holder with
  | none => exact absurd hbegins (Reading.not_prefix_text hx more reading tail)
  | some key =>
    -- it ends before the point behind the selector
    rw [text_append, ← List.isPrefixOf_iff_prefix] at hbegins
    have hcut := (isPrefixOf_append_cons hdot key (reading.text ++ tail)).symm.trans hbegins
    exact ⟨key, rfl, List.isPrefixOf_iff_prefix.mp hcut⟩

/-- An accessor is no variable. -/
theorem not_variable (h : a.IsNamed) (tail : Text) : ¬ variableMark <+: a.text ++ tail := by
  obtain ⟨holder, reading⟩ := a
  cases holder with
  | none => exact Reading.not_prefix_text (by decide) _ reading tail
  | some key =>
    rintro ⟨rest, hrest⟩
    rw [text_append] at hrest
    have hdot : isWord '.' = false := by decide
    -- the word before the first point would be a selector and the word for variables
    have hcut : ("变量".toList ++ '.' :: rest).takeWhile isWord =
        (key ++ '.' :: (reading.text ++ tail)).takeWhile isWord :=
      congrArg (List.takeWhile isWord) hrest
    have hvariable : Text.IsWord "变量".toList := by decide +kernel
    rw [takeWhile_append_mark hvariable.all hdot,
      takeWhile_append_mark (h.holder key rfl).all hdot] at hcut
    exact h.holder_notMem key rfl (hcut ▸ by decide)

/-- An accessor is no random number. -/
theorem not_random (h : a.IsNamed) (tail : Text) : ¬ randomWord ++ ['('] <+: a.text ++ tail := by
  intro hbegins
  obtain ⟨key, hkey, hin⟩ := exists_holder_of_begins (by decide) (by decide) hbegins
  exact (h.holder key hkey).notMem (by decide) (hin.subset (by decide : '(' ∈ randomWord ++ ['(']))

theorem trim_text (h : a.IsNamed) : a.text.trim = a.text := by
  have hend : ∀ c ∈ (a.text ++ []).getLast?, isBlank c = false := by
    rw [getLast?_text, List.append_nil]
    exact Reading.getLast?_text h.word
  have htrim := trim_text_append h hend
  rwa [List.append_nil] at htrim

theorem point_mem_text (a : Accessor) : '.' ∈ a.text := by
  obtain ⟨holder, reading⟩ := a
  cases holder with
  | none =>
    cases reading with
    | stat name => exact List.mem_append_left _ (by decide)
    | layers tag => exact List.mem_append_right _ (List.mem_append_right _ (by decide))
    | relation object kind => exact List.mem_append_left _ (by decide)
  | some key => exact List.mem_append_right key List.mem_cons_self

theorem read?_text (h : a.IsNamed) : read? a.text = some a := by
  have hend : ∀ c ∈ (a.reading.text ++ []).getLast?, isBlank c = false := by
    rw [List.append_nil]
    exact Reading.getLast?_text h.word
  have hsplit := splitSelector_text h [] hend
  rw [List.append_nil, List.append_nil] at hsplit
  rw [read?, hsplit]
  show Option.map _ (Reading.read? a.reading.text) = _
  rw [Reading.read?_text h.word]
  rfl

end Accessor

namespace Quantity

/-- What the text of an accessor stands for is the accessor. -/
theorem read_text {a : Accessor} (h : a.IsNamed) : read a.text = .accessor a := by
  have htrim : a.text.trim = a.text := Accessor.trim_text h
  have hempty : a.text.isEmpty = false :=
    List.isEmpty_eq_false_iff.mpr (List.ne_nil_of_mem a.point_mem_text)
  have hvariable : variableMark.isPrefixOf a.text = false := by
    rw [← Bool.not_eq_true, List.isPrefixOf_iff_prefix, ← List.append_nil a.text]
    exact Accessor.not_variable h []
  have hrandom : (randomWord ++ ['(']).isPrefixOf a.text = false := by
    rw [← Bool.not_eq_true, List.isPrefixOf_iff_prefix, ← List.append_nil a.text]
    exact Accessor.not_random h []
  have hteam : a.text ≠ "队伍人数".toList := by
    intro heq
    exact absurd (heq ▸ a.point_mem_text) (by decide)
  rw [read]
  simp only [htrim, hempty, hvariable, hrandom, hteam, if_false, Bool.false_eq_true]
  rw [readSimple, Accessor.read?_text h]

end Quantity

/-! ### Marks -/

/-- An accessor closes what it opens. -/
theorem Accessor.isBalanced_text {a : Accessor} (h : a.IsNamed) : a.text.IsBalanced := by
  have hword : ∀ {t : Text}, t.IsWord → t.IsBalanced :=
    fun ht => Text.isBalanced_of_isPlain fun c hc => isPlain_of_isWord (ht.all c hc)
  have hplain : ∀ {t : Text}, (t.all isPlain) → t.IsBalanced :=
    fun ht => Text.isBalanced_of_isPlain (List.all_eq_true.mp ht)
  have hreading : a.reading.text.IsBalanced := by
    obtain ⟨holder, reading⟩ := a
    have hreading := hword h.word
    cases reading with
    | stat name => exact (hplain rfl).append hreading
    | layers tag => exact (hplain rfl).append (hreading.wrap.append (hplain rfl))
    | relation object kind =>
      have hkind : Text.IsBalanced ('.' :: kind.name.toList) := by
        cases kind <;> exact hplain rfl
      exact (hplain rfl).append (hreading.append hkind)
  obtain ⟨holder, reading⟩ := a
  cases holder with
  | none => exact hreading
  | some key =>
    have hpoint : Text.IsBalanced ['.'] := hplain rfl
    exact (hword (h.holder key rfl)).append (hpoint.append hreading)

/-- What stands in an accessor besides words. -/
theorem Accessor.parts {a : Accessor} (h : a.IsNamed) :
    ∀ c ∈ a.text, isWord c ∨ c ∈ ['.', '(', ')'] := by
  have hword : ∀ {t : Text}, t.IsWord → ∀ c ∈ t, isWord c ∨ c ∈ ['.', '(', ')'] :=
    fun ht c hc => .inl (ht.all c hc)
  have hfixed : ∀ {t : Text}, (t.all fun c => isWord c || ['.', '(', ')'].contains c) →
      ∀ c ∈ t, isWord c ∨ c ∈ ['.', '(', ')'] := by
    intro t ht c hc
    simpa using List.all_eq_true.mp ht c hc
  have hreading : ∀ c ∈ a.reading.text, isWord c ∨ c ∈ ['.', '(', ')'] := by
    obtain ⟨holder, reading⟩ := a
    have hreading := hword h.word
    cases reading with
    | stat name => exact List.forall_mem_append.mpr ⟨hfixed (by decide +kernel), hreading⟩
    | layers tag =>
      refine List.forall_mem_append.mpr ⟨hfixed (by decide +kernel), ?_⟩
      refine List.forall_mem_append.mpr ⟨?_, hfixed (by decide +kernel)⟩
      refine List.forall_mem_cons.mpr ⟨.inr (by decide), ?_⟩
      exact List.forall_mem_append.mpr ⟨hreading, hfixed (by decide +kernel)⟩
    | relation object kind =>
      have hkind : ∀ c ∈ '.' :: kind.name.toList, isWord c ∨ c ∈ ['.', '(', ')'] := by
        cases kind <;> exact hfixed (by decide +kernel)
      refine List.forall_mem_append.mpr ⟨hfixed (by decide +kernel), ?_⟩
      exact List.forall_mem_append.mpr ⟨hreading, hkind⟩
  obtain ⟨holder, reading⟩ := a
  cases holder with
  | none => exact hreading
  | some key =>
    refine List.forall_mem_append.mpr ⟨hword (h.holder key rfl), ?_⟩
    exact List.forall_mem_cons.mpr ⟨.inr (by decide), hreading⟩

/-- Other marks do not stand in accessors. -/
theorem Accessor.notMem_text {a : Accessor} (h : a.IsNamed) {x : Char} (hword : isWord x = false)
    (hx : x ∉ ['.', '(', ')']) : x ∉ a.text := by
  intro hmem
  rcases Accessor.parts h x hmem with hin | hin
  · rw [hword] at hin
    cases hin
  · exact hx hin

end EventScript
