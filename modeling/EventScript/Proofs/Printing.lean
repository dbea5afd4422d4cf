/-
Operations written out.

An operation is written as its verb and its arguments: words after single spaces, or arguments
between round brackets after commas.  Arguments that have nothing in them that could be taken for
these marks come apart again as they were put together:

* `Operation.IsAdmissible` — what the arguments of each operation may be;
* `words_joinWords`, `arguments?_wrap`, `nameAndValue?_joinWords`, `readKey?_untyped`,
  `readKey?_typed` — each form of arguments is read as what was written;
* `Operation.read_spelling` — so is every operation.

A variable may be written with its mark or without; the operation read is the same.
-/
import EventScript.Proofs.Word
import EventScript.Script.Statement
import Mathlib.Data.List.TakeWhile

namespace EventScript

/-! ### Fields -/

namespace Text

/-- What can be written into a statement as it is: something without white space around it that
closes what it opens, and nothing else. -/
structure IsField (t : Text) : Prop where
  ne_nil : t ≠ []
  trim_eq : t.trim = t
  isBalanced : t.IsBalanced

/-- A field without white space. -/
structure IsSolid (t : Text) : Prop extends t.IsField where
  solid : ∀ c ∈ t, isBlank c = false

/-- A field for the inside of brackets, where commas separate. -/
structure IsArgument (t : Text) : Prop extends t.IsField where
  noComma : topOccurrences [','] t = []

/-- The key of a list between brackets, without the mark of variables. -/
structure IsListKey (t : Text) : Prop extends t.IsArgument where
  unmarked : ¬ variableMark <+: t

/-- The key of a variable on the left of a sign, without the mark of variables. -/
structure IsKey (t : Text) : Prop extends t.IsSolid where
  noEquals : '=' ∉ t
  unmarked : ¬ variableMark <+: t

/-- At least one character, and no white space. -/
structure IsRun (w : Text) : Prop where
  ne_nil : w ≠ []
  solid : ∀ c ∈ w, isBlank c = false

/-- A field of runs with a single space between each two. -/
structure IsSpaced (t : Text) : Prop extends t.IsField where
  spaced : ∃ ws : List Text, (∀ w ∈ ws, w.IsRun) ∧ t = Operation.joinWords ws

instance (t : Text) : Decidable t.IsField :=
  decidable_of_iff (t ≠ [] ∧ t.trim = t ∧ t.IsBalanced)
    ⟨fun ⟨hne, htrim, hbalanced⟩ => ⟨hne, htrim, hbalanced⟩,
      fun h => ⟨h.ne_nil, h.trim_eq, h.isBalanced⟩⟩

instance (t : Text) : Decidable t.IsSolid :=
  decidable_of_iff (t.IsField ∧ ∀ c ∈ t, isBlank c = false)
    ⟨fun ⟨hfield, hsolid⟩ => ⟨hfield, hsolid⟩, fun h => ⟨h.toIsField, h.solid⟩⟩

instance (t : Text) : Decidable t.IsArgument :=
  decidable_of_iff (t.IsField ∧ topOccurrences [','] t = [])
    ⟨fun ⟨hfield, hcomma⟩ => ⟨hfield, hcomma⟩, fun h => ⟨h.toIsField, h.noComma⟩⟩

section Field

variable {t : Text}

theorem IsField.head?_eq (h : t.IsField) : ∀ c ∈ t.head?, isBlank c = false := by
  rw [← h.trim_eq]
  exact head?_trim t

theorem IsSolid.isRun (h : t.IsSolid) : t.IsRun :=
  ⟨h.ne_nil, h.solid⟩

theorem IsWord.isField (h : t.IsWord) : t.IsField :=
  ⟨h.ne_nil, h.trim_eq, isBalanced_of_isPlain fun c hc => isPlain_of_isWord (h.all c hc)⟩

theorem IsWord.isSolid (h : t.IsWord) : t.IsSolid :=
  ⟨h.isField, fun c hc => isBlank_eq_false_of_isWord (h.all c hc)⟩

/-- A word can be a key: the mark of variables has a point. -/
theorem IsWord.isKey (h : t.IsWord) : t.IsKey :=
  ⟨h.isSolid, h.notMem (by decide), fun hbegins =>
    h.notMem (by decide : isWord '.' = false) (hbegins.subset (by decide))⟩

theorem IsField.getLast?_eq (h : t.IsField) : ∀ c ∈ t.getLast?, isBlank c = false := by
  rw [← h.trim_eq]
  exact getLast?_trimEnd _

/-- Fields with one character between them make a field, unless the character opens or closes
something. -/
theorem IsField.append {a b : Text} (ha : a.IsField) (hb : b.IsField) {between : Text}
    (hbetween : ∀ c ∈ between, isPlain c) : (a ++ (between ++ b)).IsField := by
  refine ⟨List.append_ne_nil_of_left_ne_nil ha.ne_nil _, ?_, ?_⟩
  · exact trim_between ha.trim_eq ha.ne_nil hb.trim_eq hb.ne_nil between
  · exact ha.isBalanced.append ((isBalanced_of_isPlain hbetween).append hb.isBalanced)

end Field

end Text

/-! ### Operations as they are written -/

/-- The arguments of an operation: words, or arguments between brackets. -/
inductive Spelling where
  | words (ws : List Text)
  | call (args : List Text)

namespace Spelling

def text : Spelling → Text
  | words ws => ' ' :: Operation.joinWords ws
  | call args => (Operation.joinArguments args).wrap

/-- There is something to write, and nothing in it that could be taken for a separator of
arguments. -/
def IsFit : Spelling → Prop
  | words ws => ws ≠ [] ∧ ∀ w ∈ ws, w.IsField
  | call args => args ≠ [] ∧ ∀ a ∈ args, a.IsArgument

end Spelling

namespace Operation

/-- How a variable is written, with its mark or without. -/
def keyText (marked : Bool) (key : Text) : Text :=
  if marked then variableMark ++ key else key

/-- The sign of a computation. -/
def sign (negative : Bool) : Char :=
  if negative then '-' else '+'

/-- The verb of an operation. -/
def verb : Operation → Text
  | changeAttribute .. => "属性变更".toList
  | changeRelation .. => "关系变更".toList
  | changePlayerRelation .. => "关系变更".toList
  | changeMutualRelation .. => "双向关系变更".toList
  | changeGroupRelation .. => "双向关系变更".toList
  | grantTag .. => "获得标签".toList
  | adjustTag .. => "标签变更".toList
  | removeTag .. => "移除标签".toList
  | assign .. => "设置变量".toList
  | compute .. => "变量计算".toList
  | jump _ pause => if pause then "继续".toList else "跳转".toList
  | chanceJump .. => "概率跳转".toList
  | filterList .. => "列表筛选".toList
  | excludeFromList .. => "列表排除".toList
  | truncateList .. => "列表截取".toList
  | appendToList .. => "列表添加".toList
  | forEach .. => "列表执行".toList
  | joinTeam .. => "让角色入队".toList
  | pair .. => "同房".toList
  | unknown verb => verb
  | malformed verb => verb

/-- The arguments of an operation as they are written. -/
def spelling (marked : Bool) : Operation → Spelling
  | changeAttribute name value => .words [name, value]
  | changeRelation kind holder object value => .call [kind, holder, object, value]
  | changePlayerRelation kind value => .words [kind, value]
  | changeMutualRelation kind first second value => .call [kind, first ++ ('/' :: second), value]
  | changeGroupRelation kind list value => .call [kind, keyText marked list, value]
  | grantTag tag layers => .words [tag, layers]
  | adjustTag tag delta => .words [tag, delta]
  | removeTag tag => .words [tag]
  | assign none key value => .words [keyText marked key, ['='], value]
  | assign (some type) key value => .words [type.word, keyText marked key, ['='], value]
  | compute key negative value => .words [keyText marked key, [sign negative], value]
  | jump event _ => .words [event]
  | chanceJump chance event none => .words [chance, event]
  | chanceJump chance event (some other) => .words [chance, event, other]
  | filterList list condition => .call [keyText marked list, condition]
  | excludeFromList list target => .call [keyText marked list, target]
  | truncateList list count => .call [keyText marked list, count]
  | appendToList list target => .call [keyText marked list, target]
  | forEach list command => .call [keyText marked list, command]
  | joinTeam target => .call [target]
  | pair first second => .call [first, second]
  | unknown _ => .words []
  | malformed _ => .words []

/-- How an operation is written. -/
def text (marked : Bool) (op : Operation) : Text :=
  op.verb ++ (op.spelling marked).text

/-- What the arguments of an operation may be so that it can be told from its text. -/
def IsAdmissible : Operation → Prop
  | changeAttribute name value => name.IsSolid ∧ value.IsField
  | changeRelation kind holder object value =>
    kind.IsArgument ∧ holder.IsArgument ∧ object.IsArgument ∧ value.IsArgument
  | changePlayerRelation kind value => (kind.IsSolid ∧ kind.head? ≠ some '(') ∧ value.IsField
  | changeMutualRelation kind first second value =>
    kind.IsArgument ∧ (first.IsArgument ∧ '/' ∉ first) ∧ second.IsArgument ∧ value.IsArgument
  | changeGroupRelation kind list value =>
    kind.IsArgument ∧ (list.IsListKey ∧ '/' ∉ list) ∧ value.IsArgument
  | grantTag tag layers => tag.IsSolid ∧ layers.IsSpaced
  | adjustTag tag delta => tag.IsSolid ∧ delta.IsSpaced
  | removeTag tag => tag.IsSolid
  | assign _ key value => key.IsKey ∧ value.IsField
  | compute key _ value => (key.IsKey ∧ '+' ∉ key ∧ '-' ∉ key) ∧ value.IsField
  | jump event _ => event.IsSolid
  | chanceJump chance event otherwise =>
    chance.IsSolid ∧ event.IsSolid ∧ ∀ other ∈ otherwise, other.IsSolid
  | filterList list condition => list.IsListKey ∧ condition.IsArgument
  | excludeFromList list target => list.IsListKey ∧ target.IsArgument
  | truncateList list count => list.IsListKey ∧ count.IsArgument
  | appendToList list target => list.IsListKey ∧ target.IsArgument
  | forEach list command => list.IsListKey ∧ command.IsArgument
  | joinTeam target => target.IsArgument
  | pair first second => first.IsArgument ∧ second.IsArgument
  | unknown _ => False
  | malformed _ => False

end Operation

/-! ### Words -/

section Words

theorem foldr_addToWords {w : Text} (hw : ∀ c ∈ w, isBlank c = false) (u : Text)
    (ws : List Text) : w.foldr Text.addToWords (u :: ws) = (w ++ u) :: ws := by
  induction w with
  | nil => rfl
  | cons c rest ih =>
    obtain ⟨hc, hrest⟩ := List.forall_mem_cons.mp hw
    rw [List.foldr_cons, ih hrest, Text.addToWords, hc]
    rfl

theorem words_of_isRun {w : Text} (hw : w.IsRun) : Text.words w = [w] := by
  rw [Text.words, foldr_addToWords hw.solid, List.append_nil]
  simp [hw.ne_nil]

/-- Even of nothing there is a first word, though an empty one. -/
theorem foldr_addToWords_ne_nil (t : Text) : t.foldr Text.addToWords [[]] ≠ [] := by
  have hadd : ∀ c ws, Text.addToWords c ws ≠ [] := by
    intro c ws
    cases ws with
    | nil => rw [Text.addToWords]; split <;> exact List.cons_ne_nil _ _
    | cons u us => rw [Text.addToWords]; split <;> exact List.cons_ne_nil _ _
  cases t with
  | nil => exact List.cons_ne_nil _ _
  | cons c rest => exact hadd c _

/-- A space ends a word. -/
theorem words_append_space {w : Text} (hw : w.IsRun) (t : Text) :
    Text.words (w ++ ' ' :: t) = w :: Text.words t := by
  obtain ⟨u, us, hws⟩ := List.exists_cons_of_ne_nil (foldr_addToWords_ne_nil t)
  have hspace : Text.addToWords ' ' (u :: us) = [] :: u :: us := rfl
  rw [Text.words, List.foldr_append, List.foldr_cons, hws, hspace,
    foldr_addToWords hw.solid, List.append_nil, List.filter_cons_of_pos (by simp [hw.ne_nil]),
    ← hws]
  rfl

namespace Operation

theorem joinWords_singleton (w : Text) : joinWords [w] = w :=
  List.append_nil w

theorem joinWords_cons_cons (w v : Text) (ws : List Text) :
    joinWords (w :: v :: ws) = w ++ ' ' :: joinWords (v :: ws) := by
  rw [joinWords, Text.joinWith, List.intercalate_cons_cons, List.append_assoc]
  rfl

theorem joinArguments_singleton (a : Text) : joinArguments [a] = a :=
  List.append_nil a

theorem joinArguments_cons_cons (a b : Text) (args : List Text) :
    joinArguments (a :: b :: args) = a ++ (',' :: ' ' :: joinArguments (b :: args)) := by
  rw [joinArguments, Text.joinWith, List.intercalate_cons_cons, List.append_assoc]
  rfl

theorem words_joinWords {ws : List Text} (h : ∀ w ∈ ws, w.IsRun) :
    Text.words (joinWords ws) = ws := by
  induction ws with
  | nil => rfl
  | cons w rest ih =>
    obtain ⟨hw, hrest⟩ := List.forall_mem_cons.mp h
    cases rest with
    | nil => rw [joinWords_singleton, words_of_isRun hw]
    | cons v more => rw [joinWords_cons_cons, words_append_space hw, ih hrest]

end Operation

end Words

/-! ### Arguments between brackets -/

section Brackets

open Operation (joinArguments)

/-- What holds of arguments holds of them together, if it holds of commas and is kept when texts are
put together. -/
theorem joinArguments_of_append {P : Text → Prop}
    (hplain : ∀ {t : Text}, (∀ c ∈ t, isPlain c) → P t)
    (happend : ∀ {a b : Text}, P a → P b → P (a ++ b)) {args : List Text} (h : ∀ a ∈ args, P a) :
    P (joinArguments args) := by
  induction args with
  | nil => exact hplain (List.forall_mem_nil _)
  | cons a rest ih =>
    obtain ⟨ha, hrest⟩ := List.forall_mem_cons.mp h
    cases rest with
    | nil => rwa [Operation.joinArguments_singleton]
    | cons b more =>
      rw [Operation.joinArguments_cons_cons]
      have hcomma : P [',', ' '] := hplain (by decide)
      exact happend ha (happend hcomma (ih hrest))

theorem isBalanced_joinArguments {args : List Text} (h : ∀ a ∈ args, a.IsBalanced) :
    (joinArguments args).IsBalanced :=
  joinArguments_of_append Text.isBalanced_of_isPlain Text.IsBalanced.append h

/-- Joined arguments are split again where they were joined. -/
theorem splitTop_joinArguments {args : List Text} (hne : args ≠ [])
    (h : ∀ a ∈ args, a.IsArgument) :
    (splitTop [','] (joinArguments args)).map Text.trim = args := by
  induction args with
  | nil => exact absurd rfl hne
  | cons a rest ih =>
    obtain ⟨ha, hrest⟩ := List.forall_mem_cons.mp h
    have halone : splitTop [','] a = [a] := splitTop_of_topOccurrences_eq_nil ha.noComma
    cases rest with
    | nil => rw [Operation.joinArguments_singleton, halone, List.map_singleton, ha.trim_eq]
    | cons b more =>
      have hsplit : splitTop [','] (a ++ (',' :: ' ' :: joinArguments (b :: more))) =
          splitTop [','] a ++ splitTop [','] (' ' :: joinArguments (b :: more)) :=
        splitTop_append (List.cons_ne_nil _ _) (by decide) ha.isBalanced.isClosed (by simp) _
      have hspace := map_splitTop_cons (f := Text.trim) (x := ',')
        (fun p => Text.trim_cons (c := ' ') (by decide) p) (by decide) (by decide) []
        (joinArguments (b :: more))
      rw [Operation.joinArguments_cons_cons, hsplit, List.map_append, hspace, halone,
        ih (List.cons_ne_nil _ _) hrest, List.map_singleton, ha.trim_eq]
      rfl

theorem arguments?_wrap {args : List Text} (hne : args ≠ []) (h : ∀ a ∈ args, a.IsArgument) :
    arguments? (joinArguments args).wrap = some args := by
  have hbalanced := isBalanced_joinArguments fun a ha => (h a ha).isBalanced
  rw [arguments?, unwrap?_wrap hbalanced, Option.map_some, splitTop_joinArguments hne h]

end Brackets

/-! ### Names, values and keys -/

section Keys

variable {name value key : Text}

theorem nameAndValue?_joinWords (hname : name.IsSolid) (hvalue : value.IsField) :
    Operation.nameAndValue? (Operation.joinWords [name, value]) = some (name, value) := by
  have hspace := forall_bne_of_notMem fun hc => absurd (hname.solid ' ' hc) (by decide)
  rw [Operation.joinWords_cons_cons, Operation.joinWords_singleton, Operation.nameAndValue?,
    takeWhile_append_mark (p := (· != ' ')) hspace rfl,
    dropWhile_append_mark (p := (· != ' ')) hspace rfl,
    Text.trim_cons (c := ' ') (by decide), hvalue.trim_eq]
  simp [hname.ne_nil, hvalue.ne_nil]

theorem notMem_keyText {d : Char} (hmark : d ∉ variableMark) (hkey : d ∉ key) (marked : Bool) :
    d ∉ Operation.keyText marked key := by
  cases marked with
  | false => exact hkey
  | true =>
    intro hmem
    rcases List.mem_append.mp hmem with hmem | hmem
    · exact hmark hmem
    · exact hkey hmem

theorem isField_keyText (h : key.IsField) (marked : Bool) :
    (Operation.keyText marked key).IsField := by
  cases marked with
  | false => exact h
  | true =>
    have hmark : Text.IsField variableMark := by decide
    exact hmark.append h (List.forall_mem_nil _)

theorem solid_keyText (h : key.IsSolid) (marked : Bool) :
    ∀ c ∈ Operation.keyText marked key, isBlank c = false := by
  cases marked with
  | false => exact h.solid
  | true =>
    have hmark : ∀ c ∈ variableMark, isBlank c = false := by decide
    intro c hc
    rcases List.mem_append.mp hc with hc | hc
    · exact hmark c hc
    · exact h.solid c hc

theorem isArgument_keyText (h : key.IsListKey) (marked : Bool) :
    (Operation.keyText marked key).IsArgument := by
  refine ⟨isField_keyText h.toIsField marked, ?_⟩
  cases marked with
  | false => exact h.noComma
  | true =>
    have hsplit := topOccurrencesFrom_append_of_notMem (x := ',') (a := variableMark) (by decide) []
      Nesting.start 0 key
    have hclosed : (Nesting.start.read variableMark).IsClosed := ⟨by decide, by decide⟩
    show topOccurrences [','] (variableMark ++ key) = []
    rw [topOccurrences, hsplit, topOccurrencesFrom_eq_nil hclosed h.noComma]

/-- The mark of a variable comes off its key. -/
theorem variableKey_keyText (h : key.IsField) (hkey : ¬ variableMark <+: key) (marked : Bool) :
    variableKey (Operation.keyText marked key) = key := by
  rw [variableKey]
  show (Text.after? variableMark (Operation.keyText marked key).trim).getD
    (Operation.keyText marked key).trim = key
  rw [(isField_keyText h marked).trim_eq]
  cases marked with
  | false =>
    show (Text.after? variableMark key).getD key = key
    rw [Text.after?_eq_none hkey]
    rfl
  | true =>
    have hafter : Text.after? variableMark (variableMark ++ key) = some key :=
      Text.after?_eq_some_iff.mpr rfl
    show (Text.after? variableMark (variableMark ++ key)).getD (variableMark ++ key) = key
    rw [hafter]
    rfl

theorem variableKey_concat (t : Text) : variableKey (t ++ [' ']) = variableKey t := by
  rw [variableKey, variableKey, Text.trim_concat (by decide)]

/-- In front of one blank, no solid text states a type. -/
theorem readKey?_untyped {t : Text} (hsolid : ∀ c ∈ t, isBlank c = false) :
    Operation.readKey? (t ++ [' ']) = some (none, variableKey t) := by
  have hnone : (VariableType.all.findSome? fun type =>
      (Text.after? type.word (t ++ [' '])).bind fun rest =>
        let key := Text.trimStart rest
        if key.length < rest.length && (!key.isEmpty || 2 ≤ rest.length) then
          some (some type, key)
        else none) = none := by
    rw [List.findSome?_eq_none_iff]
    intro type _
    rw [Option.bind_eq_none_iff]
    intro rest hrest
    have hcut : t ++ [' '] = type.word ++ rest := Text.after?_eq_some_iff.mp hrest
    cases rest with
    | nil => rfl
    | cons c more =>
      cases more with
      | nil =>
        -- nothing but the one blank is left
        have hlast := congrArg List.getLast? hcut
        rw [List.getLast?_concat, List.getLast?_concat] at hlast
        obtain rfl : ' ' = c := Option.some.inj hlast
        rfl
      | cons d more =>
        -- what is left begins inside the solid text
        have hinside := congrArg List.dropLast hcut
        rw [List.dropLast_concat, List.dropLast_append_of_ne_nil (List.cons_ne_nil _ _)] at hinside
        have hc : c ∈ t := by
          rw [hinside]
          exact List.mem_append_right _ List.mem_cons_self
        dsimp only
        rw [Text.trimStart_cons (hsolid c hc)]
        simp
  rw [Operation.readKey?]
  dsimp only
  rw [hnone, variableKey_concat]
  simp

/-- A type with a blank behind it is stated, whatever key follows. -/
theorem readKey?_typed (type : VariableType) {t : Text} (ht : t.IsField) :
    Operation.readKey? (type.word ++ ' ' :: (t ++ [' '])) = some (some type, variableKey t) := by
  have hstart : Text.trimStart (' ' :: (t ++ [' '])) = t ++ [' '] := by
    rw [Text.trimStart, List.dropWhile_cons_of_pos (by decide)]
    refine Text.trimStart_eq_self ?_
    rw [List.head?_append_of_ne_nil _ ht.ne_nil]
    exact ht.head?_eq
  have hfound : (VariableType.all.findSome? fun other =>
      (Text.after? other.word (type.word ++ ' ' :: (t ++ [' ']))).bind fun rest =>
        let key := Text.trimStart rest
        if key.length < rest.length && (!key.isEmpty || 2 ≤ rest.length) then
          some (some other, key)
        else none) = some (some type, t ++ [' ']) := by
    -- the words for the types begin with different characters
    cases type <;> simp [VariableType.all, VariableType.word, Text.after?, hstart]
  rw [Operation.readKey?]
  dsimp only
  rw [hfound, ← variableKey_concat t]

end Keys

/-! ### Reading what is written -/

namespace Operation

variable {marked : Bool}

theorem isFit_listCall {list argument : Text} (hlist : list.IsListKey)
    (hargument : argument.IsArgument) (marked : Bool) :
    (Spelling.call [keyText marked list, argument]).IsFit :=
  ⟨List.cons_ne_nil _ _, by simp [isArgument_keyText hlist marked, hargument]⟩

/-- What admissible operations are written with is fit to be written. -/
theorem isFit_spelling {op : Operation} (h : op.IsAdmissible) (marked : Bool) :
    (op.spelling marked).IsFit := by
  have hslash : ∀ c ∈ ['/'], isPlain c := by decide
  cases op with
  | changeAttribute name value =>
    obtain ⟨hname, hvalue⟩ := h
    exact ⟨List.cons_ne_nil _ _, by simp [hname.toIsField, hvalue]⟩
  | changeRelation kind holder object value =>
    obtain ⟨hkind, hholder, hobject, hvalue⟩ := h
    exact ⟨List.cons_ne_nil _ _, by simp [hkind, hholder, hobject, hvalue]⟩
  | changePlayerRelation kind value =>
    obtain ⟨⟨hkind, -⟩, hvalue⟩ := h
    exact ⟨List.cons_ne_nil _ _, by simp [hkind.toIsField, hvalue]⟩
  | changeMutualRelation kind first second value =>
    obtain ⟨hkind, ⟨hfirst, -⟩, hsecond, hvalue⟩ := h
    have hpair : Text.IsArgument (first ++ ('/' :: second)) := by
      refine ⟨hfirst.toIsField.append hsecond.toIsField hslash, ?_⟩
      have hclosed := hfirst.isBalanced.isClosed.step (c := '/') (by decide)
      rw [topOccurrences, topOccurrencesFrom_append_cons (List.cons_ne_nil _ _) (by decide),
        topOccurrencesFrom_eq_nil hclosed hsecond.noComma, List.append_nil]
      exact hfirst.noComma
    exact ⟨List.cons_ne_nil _ _, by simp [hkind, hpair, hvalue]⟩
  | changeGroupRelation kind list value =>
    obtain ⟨hkind, ⟨hlist, -⟩, hvalue⟩ := h
    exact ⟨List.cons_ne_nil _ _, by simp [hkind, isArgument_keyText hlist marked, hvalue]⟩
  | grantTag tag layers =>
    obtain ⟨htag, hlayers⟩ := h
    exact ⟨List.cons_ne_nil _ _, by simp [htag.toIsField, hlayers.toIsField]⟩
  | adjustTag tag delta =>
    obtain ⟨htag, hdelta⟩ := h
    exact ⟨List.cons_ne_nil _ _, by simp [htag.toIsField, hdelta.toIsField]⟩
  | removeTag tag => exact ⟨List.cons_ne_nil _ _, by simpa using Text.IsSolid.toIsField h⟩
  | assign type key value =>
    obtain ⟨hkey, hvalue⟩ := h
    have hequals : Text.IsField ['='] := by decide
    cases type with
    | none =>
      exact ⟨List.cons_ne_nil _ _, by simp [isField_keyText hkey.toIsField marked, hequals, hvalue]⟩
    | some type =>
      have htype : Text.IsField type.word := by cases type <;> decide
      exact ⟨List.cons_ne_nil _ _,
        by simp [htype, isField_keyText hkey.toIsField marked, hequals, hvalue]⟩
  | compute key negative value =>
    obtain ⟨⟨hkey, -⟩, hvalue⟩ := h
    have hsign : Text.IsField [sign negative] := by cases negative <;> decide
    exact ⟨List.cons_ne_nil _ _, by simp [isField_keyText hkey.toIsField marked, hsign, hvalue]⟩
  | jump event pause => exact ⟨List.cons_ne_nil _ _, by simpa using Text.IsSolid.toIsField h⟩
  | chanceJump chance event otherwise =>
    obtain ⟨hchance, hevent, hother⟩ := h
    cases otherwise with
    | none => exact ⟨List.cons_ne_nil _ _, by simp [hchance.toIsField, hevent.toIsField]⟩
    | some other =>
      have hother := hother other rfl
      exact ⟨List.cons_ne_nil _ _,
        by simp [hchance.toIsField, hevent.toIsField, hother.toIsField]⟩
  | filterList list condition => exact isFit_listCall h.1 h.2 marked
  | excludeFromList list target => exact isFit_listCall h.1 h.2 marked
  | truncateList list count => exact isFit_listCall h.1 h.2 marked
  | appendToList list target => exact isFit_listCall h.1 h.2 marked
  | forEach list command => exact isFit_listCall h.1 h.2 marked
  | joinTeam target =>
    have htarget : target.IsArgument := h
    exact ⟨List.cons_ne_nil _ _, by simpa using htarget⟩
  | pair first second => exact ⟨List.cons_ne_nil _ _, by simp [h.1, h.2]⟩
  | unknown verb => exact h.elim
  | malformed verb => exact h.elim

theorem isField_joinWords {ws : List Text} (hne : ws ≠ []) (h : ∀ w ∈ ws, w.IsField) :
    (joinWords ws).IsField := by
  induction ws with
  | nil => exact absurd rfl hne
  | cons w rest ih =>
    obtain ⟨hw, hrest⟩ := List.forall_mem_cons.mp h
    cases rest with
    | nil => rwa [joinWords_singleton]
    | cons v more =>
      have hspace : ∀ c ∈ [' '], isPlain c := by decide
      rw [joinWords_cons_cons]
      exact hw.append (ih (List.cons_ne_nil _ _) hrest) hspace

theorem find?_key {β : Type} {table : List (Text × β)} (hkeys : (table.map Prod.fst).Nodup)
    {key : Text} {value : β} (h : (key, value) ∈ table) :
    table.find? (fun v => v.1 = key) = some (key, value) := by
  induction table with
  | nil => cases h
  | cons v rest ih =>
    obtain ⟨hv, hrest⟩ := List.nodup_cons.mp hkeys
    rcases List.mem_cons.mp h with rfl | hin
    · exact List.find?_cons_of_pos (by simp)
    · have hne : v.1 ≠ key := by
        rintro heq
        exact hv (heq ▸ List.mem_map_of_mem (f := Prod.fst) hin)
      rw [List.find?_cons_of_neg (by simpa using hne), ih hrest hin]

/-- The verb in each place of the table decides how its operations are read. -/
theorem read_of_verbs (k : Nat) {verb : Text} {go : Text → Text → Operation}
    (h : verbs[k]? = some (verb, go)) (rest : Text) : read verb rest = go verb rest.trim := by
  have hkeys : (verbs.map Prod.fst).Nodup := by decide
  rw [read, find?_key hkeys (List.mem_of_getElem? h)]

theorem read_words (k : Nat) {verb : Text} {go : Text → Text → Operation} {ws : List Text}
    (h : verbs[k]? = some (verb, go)) (hfit : (Spelling.words ws).IsFit) :
    read verb (Spelling.words ws).text = go verb (joinWords ws) := by
  rw [read_of_verbs k h, Spelling.text, Text.trim_cons (by decide),
    (isField_joinWords hfit.1 hfit.2).trim_eq]

theorem read_call (k : Nat) {verb : Text} {go : Text → Text → Operation} (args : List Text)
    (h : verbs[k]? = some (verb, go)) :
    read verb (Spelling.call args).text = go verb (joinArguments args).wrap := by
  rw [read_of_verbs k h, Spelling.text, Text.trim_wrap]

/-- The operations on lists differ in nothing but what they do. -/
theorem read_listCall (k : Nat) {verb list argument : Text} {make : Text → Text → Operation}
    (h : verbs[k]? = some (verb, readListCall make)) (hlist : list.IsListKey)
    (hargument : argument.IsArgument) (marked : Bool) :
    read verb (Spelling.call [keyText marked list, argument]).text = make list argument := by
  have hfit := isFit_listCall hlist hargument marked
  rw [read_call k _ h, readListCall, arguments?_wrap hfit.1 hfit.2]
  dsimp only
  rw [joinArguments_singleton, hargument.trim_eq,
    variableKey_keyText hlist.toIsField hlist.unmarked]
  simp [hargument.ne_nil]

/-- The words of a tag and of what is said about its layers. -/
theorem words_tag {tag layers : Text} (htag : tag.IsSolid) (hlayers : layers.IsSpaced) :
    ∃ w more, layers = joinWords (w :: more) ∧
      Text.words (joinWords [tag, layers]) = tag :: w :: more := by
  obtain ⟨ws, hws, rfl⟩ := hlayers.spaced
  cases ws with
  | nil => exact absurd rfl hlayers.ne_nil
  | cons w more =>
    refine ⟨w, more, rfl, ?_⟩
    rw [joinWords_cons_cons, joinWords_singleton, words_append_space htag.isRun,
      words_joinWords hws]

theorem readAssignment_cut (verb : Text) {t value key : Text} {type : Option VariableType}
    (hvalue : value.IsField) (hread : readKey? t = some (type, key)) (ht : '=' ∉ t) :
    readAssignment verb (t ++ '=' :: ' ' :: value) = assign type key value := by
  have hbefore := forall_bne_of_notMem ht
  rw [readAssignment, takeWhile_append_mark (p := (· != '=')) hbefore rfl,
    dropWhile_append_mark (p := (· != '=')) hbefore rfl, hread]
  dsimp only
  rw [Text.trim_cons (by decide), hvalue.trim_eq]
  simp [hvalue.ne_nil]

theorem readComputation_cut (verb : Text) {t value : Text} (negative : Bool) (hne : t ≠ [])
    (hsolid : ∀ c ∈ t, isBlank c = false) (hplus : '+' ∉ t) (hminus : '-' ∉ t)
    (hvalue : value.IsField) :
    readComputation verb (t ++ ' ' :: sign negative :: ' ' :: value) =
      compute (variableKey t) negative value := by
  have hbefore : ∀ c ∈ t, (!isBlank c && c != '+' && c != '-') = true := by
    intro c hc
    have hp : c ≠ '+' := by
      rintro rfl
      exact hplus hc
    have hm : c ≠ '-' := by
      rintro rfl
      exact hminus hc
    simp [hsolid c hc, hp, hm]
  have hsign : isBlank (sign negative) = false := by cases negative <;> decide
  have hstart : Text.trimStart (' ' :: sign negative :: ' ' :: value) =
      sign negative :: ' ' :: value := by
    rw [Text.trimStart, List.dropWhile_cons_of_pos (by decide)]
    exact Text.trimStart_cons hsign _
  rw [readComputation, takeWhile_append_mark hbefore rfl, dropWhile_append_mark hbefore rfl,
    hstart]
  dsimp only
  rw [Text.trim_cons (by decide), hvalue.trim_eq]
  cases negative <;> simp [sign, hvalue.ne_nil, hne]

/-- Reading gives back what was written. -/
theorem read_spelling {op : Operation} (h : op.IsAdmissible) (marked : Bool) :
    read op.verb (op.spelling marked).text = op := by
  have hfit := isFit_spelling h marked
  cases op with
  | changeAttribute name value =>
    obtain ⟨hname, hvalue⟩ := h
    refine (read_words 0 rfl hfit).trans ?_
    rw [nameAndValue?_joinWords hname hvalue]
  | changeRelation kind holder object value =>
    refine (read_call 1 _ rfl).trans ?_
    show readRelationCall _ _ = _
    rw [readRelationCall, arguments?_wrap hfit.1 hfit.2]
    dsimp only
    rw [joinArguments_singleton]
  | changePlayerRelation kind value =>
    obtain ⟨⟨hkind, hfirst⟩, hvalue⟩ := h
    refine (read_words 1 rfl hfit).trans ?_
    rw [readRelation, nameAndValue?_joinWords hkind hvalue]
    -- brackets would have to begin the kind
    intro rest hbegin
    have hhead := congrArg List.head? hbegin
    rw [joinWords_cons_cons, List.head?_append_of_ne_nil _ hkind.ne_nil] at hhead
    exact hfirst hhead
  | changeMutualRelation kind first second value =>
    obtain ⟨hkind, ⟨hfirst, hslash⟩, hsecond, hvalue⟩ := h
    have hbefore := forall_bne_of_notMem hslash
    refine (read_call 2 _ rfl).trans ?_
    rw [readMutual, arguments?_wrap hfit.1 hfit.2]
    dsimp only
    rw [dropWhile_append_mark (p := (· != '/')) hbefore rfl,
      takeWhile_append_mark (p := (· != '/')) hbefore rfl, joinArguments_singleton]
    dsimp only
    rw [hfirst.trim_eq, hsecond.trim_eq]
  | changeGroupRelation kind list value =>
    obtain ⟨hkind, ⟨hlist, hslash⟩, hvalue⟩ := h
    have hnone : (keyText marked list).dropWhile (· != '/') = [] :=
      List.dropWhile_eq_nil_iff.mpr
        (forall_bne_of_notMem (notMem_keyText (by decide) hslash marked))
    refine (read_call 2 _ rfl).trans ?_
    rw [readMutual, arguments?_wrap hfit.1 hfit.2]
    dsimp only
    rw [hnone, joinArguments_singleton, variableKey_keyText hlist.toIsField hlist.unmarked]
  | grantTag tag layers =>
    obtain ⟨htag, hlayers⟩ := h
    obtain ⟨w, more, rfl, hwords⟩ := words_tag htag hlayers
    refine (read_words 3 rfl hfit).trans ?_
    rw [hwords]
  | adjustTag tag delta =>
    obtain ⟨htag, hdelta⟩ := h
    obtain ⟨w, more, rfl, hwords⟩ := words_tag htag hdelta
    refine (read_words 4 rfl hfit).trans ?_
    rw [hwords]
  | removeTag tag =>
    have htag : tag.IsSolid := h
    refine (read_words 5 rfl hfit).trans ?_
    rw [joinWords_singleton, words_of_isRun htag.isRun]
  | assign type key value =>
    obtain ⟨hkey, hvalue⟩ := h
    have hequals := notMem_keyText (by decide) hkey.noEquals marked
    have hplain := variableKey_keyText hkey.toIsField hkey.unmarked marked
    cases type with
    | none =>
      have hread := readKey?_untyped (solid_keyText hkey.toIsSolid marked)
      have hcut : joinWords [keyText marked key, ['='], value] =
          (keyText marked key ++ [' ']) ++ '=' :: ' ' :: value := by
        simp [joinWords_cons_cons, joinWords_singleton]
      refine (read_words 6 rfl hfit).trans ?_
      rw [hcut, readAssignment_cut _ hvalue hread, hplain]
      simpa using hequals
    | some type =>
      have hread := readKey?_typed type (isField_keyText hkey.toIsField marked)
      have hcut : joinWords [type.word, keyText marked key, ['='], value] =
          (type.word ++ ' ' :: (keyText marked key ++ [' '])) ++ '=' :: ' ' :: value := by
        simp [joinWords_cons_cons, joinWords_singleton]
      have htype : '=' ∉ type.word := by cases type <;> decide
      refine (read_words 6 rfl hfit).trans ?_
      rw [hcut, readAssignment_cut _ hvalue hread, hplain]
      simpa [htype] using hequals
  | compute key negative value =>
    obtain ⟨⟨hkey, hplus, hminus⟩, hvalue⟩ := h
    have hplain := variableKey_keyText hkey.toIsField hkey.unmarked marked
    refine (read_words 7 rfl hfit).trans ?_
    rw [joinWords_cons_cons, joinWords_cons_cons, joinWords_singleton, List.singleton_append,
      readComputation_cut _ negative (isField_keyText hkey.toIsField marked).ne_nil
        (solid_keyText hkey.toIsSolid marked) (notMem_keyText (by decide) hplus marked)
        (notMem_keyText (by decide) hminus marked) hvalue, hplain]
  | jump event pause =>
    have hevent : event.IsSolid := h
    cases pause with
    | true =>
      refine (read_words 9 rfl hfit).trans ?_
      rw [joinWords_singleton, readJump, words_of_isRun hevent.isRun]
    | false =>
      refine (read_words 8 rfl hfit).trans ?_
      rw [joinWords_singleton, readJump, words_of_isRun hevent.isRun]
  | chanceJump chance event otherwise =>
    obtain ⟨hchance, hevent, hother⟩ := h
    cases otherwise with
    | none =>
      have hwords : Text.words (joinWords [chance, event]) = [chance, event] :=
        words_joinWords (by simp [hchance.isRun, hevent.isRun])
      refine (read_words 10 rfl hfit).trans ?_
      rw [hwords]
      rfl
    | some other =>
      have hwords : Text.words (joinWords [chance, event, other]) = [chance, event, other] :=
        words_joinWords (by simp [hchance.isRun, hevent.isRun, (hother other rfl).isRun])
      refine (read_words 10 rfl hfit).trans ?_
      rw [hwords]
      rfl
  | filterList list condition => exact read_listCall 11 rfl h.1 h.2 marked
  | excludeFromList list target => exact read_listCall 12 rfl h.1 h.2 marked
  | truncateList list count => exact read_listCall 13 rfl h.1 h.2 marked
  | appendToList list target => exact read_listCall 14 rfl h.1 h.2 marked
  | forEach list command => exact read_listCall 15 rfl h.1 h.2 marked
  | joinTeam target =>
    have htarget : target.IsArgument := h
    refine (read_call 16 _ rfl).trans ?_
    rw [arguments?_wrap hfit.1 hfit.2]
    dsimp only
    rw [joinArguments_singleton]
    simp [htarget.ne_nil]
  | pair first second =>
    refine (read_call 17 _ rfl).trans ?_
    rw [arguments?_wrap hfit.1 hfit.2]
  | unknown verb => exact h.elim
  | malformed verb => exact h.elim

end Operation

end EventScript
