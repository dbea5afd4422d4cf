/-
Pieces of texts.

Whatever scripts cut out of a text is a piece of it: the parts between separators, the inside of
brackets, words, arguments, values.  Only a few characters are ever added, when arguments are
joined again or a shorthand is written out.  So a word that has none of these characters occurs
in nothing that is read from a text, unless it occurs in the text.

* `infix_of_mem_splitTop`, `infix_of_mem_arguments?`, `infix_of_mem_words` — what is cut out is a
  piece;
* `Text.Lacks.joinWith` — joining brings no word about;
* `Operation.lacks_read` — a word that the arguments of an operation lack, its texts lack;
* `Statement.lacks_read` — a word that a statement lacks, its guard and its operation lack;
* `Statement.isGamble_read` — a statement that names no gamble is none.
-/
import EventScript.Proofs.Splitting
import EventScript.Script.Statement

namespace EventScript

/-! ### Cuts -/

namespace Text

theorem isInfix_trim (t : Text) : trim t <:+: t :=
  (isPrefix_trimEnd _).isInfix.trans (List.dropWhile_suffix _).isInfix

theorem isSuffix_after? {start t rest : Text} (h : after? start t = some rest) : rest <:+ t :=
  ⟨start, (after?_eq_some_iff.mp h).symm⟩

end Text

/-- Pieces of a text, of which the first stands at its start. -/
def IsCut (t : Text) (pieces : List Text) : Prop :=
  ∃ first rest, pieces = first :: rest ∧ first <+: t ∧ ∀ p ∈ rest, p <:+: t

namespace IsCut

variable {t u : Text} {pieces : List Text}

theorem infix_of_mem (h : IsCut t pieces) {p : Text} (hp : p ∈ pieces) : p <:+: t := by
  obtain ⟨first, rest, rfl, hfirst, hrest⟩ := h
  rcases List.mem_cons.mp hp with rfl | hp
  · exact hfirst.isInfix
  · exact hrest p hp

theorem nil : IsCut [] [[]] :=
  ⟨[], [], rfl, List.prefix_rfl, by simp⟩

/-- An empty piece may come before the pieces of a part of the text. -/
theorem cons_nil (h : IsCut u pieces) (hu : u <:+: t) : IsCut t ([] :: pieces) :=
  ⟨[], pieces, rfl, List.nil_prefix, fun _ hp => (h.infix_of_mem hp).trans hu⟩

theorem consFirst (h : IsCut t pieces) (c : Char) : IsCut (c :: t) (consFirst c pieces) := by
  obtain ⟨first, rest, rfl, hfirst, hrest⟩ := h
  refine ⟨c :: first, rest, rfl, ?_, fun p hp => List.infix_cons (hrest p hp)⟩
  exact (List.prefix_cons_inj c).mpr hfirst

end IsCut

theorem isCut_splitTopFrom (separator : Text) (s : Nesting) (skip : Nat) (t : Text) :
    IsCut (t.drop skip) (splitTopFrom separator s skip t) := by
  induction t generalizing s skip with
  | nil =>
    rw [List.drop_nil, splitTopFrom]
    exact .nil
  | cons c rest ih =>
    have hrest : rest <:+: c :: rest := (List.suffix_cons c rest).isInfix
    cases skip with
    | succ skip => exact ih (s.step c) skip
    | zero =>
      unfold splitTopFrom
      split
      · split
        · exact .cons_nil ((ih (s.step c) 0).consFirst c) List.infix_rfl
        · exact .cons_nil (ih (s.step c) _) ((List.drop_suffix _ rest).isInfix.trans hrest)
      · exact (ih (s.step c) 0).consFirst c

theorem infix_of_mem_splitTop {separator t p : Text} (h : p ∈ splitTop separator t) : p <:+: t :=
  (isCut_splitTopFrom separator .start 0 t).infix_of_mem h

theorem infix_of_mem_map_trim {separator t p : Text}
    (h : p ∈ (splitTop separator t).map Text.trim) : p <:+: t := by
  obtain ⟨q, hq, rfl⟩ := List.mem_map.mp h
  exact (Text.isInfix_trim q).trans (infix_of_mem_splitTop hq)

theorem isCut_foldr_addToWords (t : Text) : IsCut t (t.foldr Text.addToWords [[]]) := by
  induction t with
  | nil => exact .nil
  | cons c rest ih =>
    obtain ⟨first, others, heq, -⟩ := id ih
    rw [List.foldr_cons, heq, Text.addToWords, ← heq]
    split
    · exact .cons_nil ih (List.suffix_cons c rest).isInfix
    · have h := ih.consFirst c
      rwa [heq] at h

theorem infix_of_mem_words {t p : Text} (h : p ∈ Text.words t) : p <:+: t :=
  (isCut_foldr_addToWords t).infix_of_mem (List.mem_filter.mp h).1

theorem infix_of_unwrap? {t inside : Text} (h : unwrap? t = some inside) : inside <:+: t := by
  unfold unwrap? at h
  split at h
  · rename_i rest heq
    split at h
    · obtain rfl := Option.some.inj h
      have hrest : rest <:+: t.trim := heq ▸ (List.suffix_cons '(' rest).isInfix
      exact ((List.dropLast_prefix rest).isInfix.trans hrest).trans (Text.isInfix_trim t)
    · cases h
  · cases h

theorem infix_of_mem_arguments? {t a : Text} {args : List Text} (h : arguments? t = some args)
    (ha : a ∈ args) : a <:+: t := by
  obtain ⟨inside, hinside, rfl⟩ := Option.map_eq_some_iff.mp h
  exact (infix_of_mem_map_trim ha).trans (infix_of_unwrap? hinside)

theorem isInfix_variableKey (key : Text) : variableKey key <:+: key := by
  unfold variableKey
  simp only
  cases h : Text.after? variableMark key.trim with
  | none => exact Text.isInfix_trim key
  | some rest => exact (Text.isSuffix_after? h).isInfix.trans (Text.isInfix_trim key)

/-! ### Words that do not occur -/

/-- The characters that reading adds to texts. -/
def addedMarks : List Char := [' ', ',', '.', '1']

/-- A word that has none of the characters that reading adds. -/
structure Text.IsUnmarked (word : Text) : Prop where
  ne_nil : word ≠ []
  notMem : ∀ c ∈ addedMarks, c ∉ word

/-- A word occurs nowhere in a text. -/
def Text.Lacks (word t : Text) : Prop :=
  ¬ word <:+: t

instance (word t : Text) : Decidable (Text.Lacks word t) :=
  inferInstanceAs (Decidable (¬ _))

namespace Text.Lacks

variable {word t u : Text}

theorem of_isInfix (h : Lacks word t) (hu : u <:+: t) : Lacks word u :=
  fun hword => h (hword.trans hu)

/-- A word does not occur across a character that it does not have. -/
theorem append_cons (hne : word ≠ []) {c : Char} (hc : c ∉ word) (ht : Lacks word t)
    (hu : Lacks word u) : Lacks word (t ++ c :: u) := by
  intro hword
  rcases List.infix_append_iff_ne_nil.mp hword with h | h | ⟨l, r, -, hr, rfl, -, hprefix⟩
  · exact ht h
  · rcases List.infix_cons_iff.mp h with hprefix | h
    · obtain ⟨x, rest, rfl⟩ := List.exists_cons_of_ne_nil hne
      obtain rfl := (List.cons_prefix_cons.mp hprefix).1
      exact hc (List.mem_cons_self ..)
    · exact hu h
  · obtain ⟨x, rest, rfl⟩ := List.exists_cons_of_ne_nil hr
    obtain rfl := (List.cons_prefix_cons.mp hprefix).1
    exact hc (List.mem_append_right _ (List.mem_cons_self ..))

theorem nil (hne : word ≠ []) : Lacks word [] :=
  fun h => hne (List.infix_nil.mp h)

/-- Nor does it occur across several of them. -/
theorem append_marks (hne : word ≠ []) {marks : Text} (hmarks : marks ≠ [])
    (hnot : ∀ c ∈ marks, c ∉ word) (ht : Lacks word t) (hu : Lacks word u) :
    Lacks word (t ++ marks ++ u) := by
  induction marks generalizing t with
  | nil => exact absurd rfl hmarks
  | cons c more ih =>
    obtain ⟨hc, hmore⟩ := List.forall_mem_cons.mp hnot
    rw [List.append_assoc, List.cons_append]
    refine append_cons hne hc ht ?_
    cases more with
    | nil => exact hu
    | cons d more => exact ih (List.cons_ne_nil d more) hmore (nil hne)

theorem joinWith (hne : word ≠ []) {separator : Text} (hseparator : separator ≠ [])
    (hnot : ∀ c ∈ separator, c ∉ word) {ts : List Text} (h : ∀ t ∈ ts, Lacks word t) :
    Lacks word (joinWith separator ts) := by
  unfold Text.joinWith
  induction ts with
  | nil => exact nil hne
  | cons a rest ih =>
    obtain ⟨ha, hrest⟩ := List.forall_mem_cons.mp h
    cases rest with
    | nil => simpa using ha
    | cons b rest =>
      rw [List.intercalate_cons_cons]
      exact append_marks hne hseparator hnot ha (ih hrest)

end Text.Lacks

section

variable {word t : Text} (hword : word.IsUnmarked)

include hword

theorem lacks_joinArguments {args : List Text} (h : ∀ a ∈ args, Text.Lacks word a) :
    Text.Lacks word (Operation.joinArguments args) :=
  .joinWith hword.ne_nil (List.cons_ne_nil _ _)
    (List.forall_mem_cons.mpr ⟨hword.notMem ',' (by decide),
      List.forall_mem_singleton.mpr (hword.notMem ' ' (by decide))⟩) h

theorem lacks_joinWords {ws : List Text} (h : ∀ w ∈ ws, Text.Lacks word w) :
    Text.Lacks word (Operation.joinWords ws) :=
  .joinWith hword.ne_nil (List.cons_ne_nil _ _)
    (List.forall_mem_singleton.mpr (hword.notMem ' ' (by decide))) h

theorem lacks_one : Text.Lacks word ['1'] :=
  .append_cons hword.ne_nil (hword.notMem '1' (by decide)) (.nil hword.ne_nil) (.nil hword.ne_nil)

end

/-! ### Operations -/

namespace Operation

/-- The texts that an operation has read. -/
def texts : Operation → List Text
  | changeAttribute name value => [name, value]
  | changeRelation kind holder object value => [kind, holder, object, value]
  | changePlayerRelation kind value => [kind, value]
  | changeMutualRelation kind first second value => [kind, first, second, value]
  | changeGroupRelation kind list value => [kind, list, value]
  | grantTag tag layers => [tag, layers]
  | adjustTag tag delta => [tag, delta]
  | removeTag tag => [tag]
  | assign _ key value => [key, value]
  | compute key _ value => [key, value]
  | jump event _ => [event]
  | chanceJump chance event otherwise => chance :: event :: otherwise.toList
  | filterList list condition => [list, condition]
  | excludeFromList list target => [list, target]
  | truncateList list count => [list, count]
  | appendToList list target => [list, target]
  | forEach list command => [list, command]
  | joinTeam target => [target]
  | pair first second => [first, second]
  | unknown _ => []
  | malformed _ => []

/-- A word occurs in no text of an operation. -/
def Lacks (word : Text) (op : Operation) : Prop :=
  ∀ t ∈ op.texts, Text.Lacks word t

/-- A word occurs in none of the arguments in brackets. -/
theorem forall_lacks_arguments {word rest : Text} {args : List Text} (h : Text.Lacks word rest)
    (hargs : arguments? rest = some args) : ∀ a ∈ args, Text.Lacks word a :=
  fun _ ha => h.of_isInfix (infix_of_mem_arguments? hargs ha)

theorem forall_lacks_words {word rest : Text} (h : Text.Lacks word rest) :
    ∀ w ∈ Text.words rest, Text.Lacks word w :=
  fun _ hw => h.of_isInfix (infix_of_mem_words hw)

theorem lacks_malformed (word verb : Text) : (malformed verb).Lacks word := by
  intro t ht
  cases ht

theorem lacks_nameAndValue {word t name value : Text} (h : Text.Lacks word t)
    (hread : nameAndValue? t = some (name, value)) :
    Text.Lacks word name ∧ Text.Lacks word value := by
  unfold nameAndValue? at hread
  simp only at hread
  split at hread
  · cases hread
  · cases hread
    refine ⟨h.of_isInfix (List.takeWhile_prefix _).isInfix, h.of_isInfix ?_⟩
    exact (Text.isInfix_trim _).trans (List.dropWhile_suffix _).isInfix

/-- A key is a piece of what it is read from, also if a type stands before it. -/
theorem infix_of_readKey? {t key : Text} {type : Option VariableType}
    (h : readKey? t = some (type, key)) : key <:+: t := by
  unfold readKey? at h
  simp only at h
  split at h
  · rename_i type' key' hfind
    cases h
    obtain ⟨type', -, hread⟩ := List.exists_of_findSome?_eq_some hfind
    obtain ⟨u, hu, hread⟩ := Option.bind_eq_some_iff.mp hread
    split at hread
    · cases hread
      exact ((isInfix_variableKey _).trans (List.dropWhile_suffix _).isInfix).trans
        (Text.isSuffix_after? hu).isInfix
    · cases hread
  · split at h
    · cases h
    · cases h
      exact isInfix_variableKey t

section

variable {word rest : Text} (hword : word.IsUnmarked) (h : Text.Lacks word rest) (verb : Text)

include h

theorem lacks_readJump (pause : Bool) : (readJump pause verb rest).Lacks word := by
  unfold readJump
  split
  · rename_i event more hwords
    have hall := forall_lacks_words h
    rw [hwords] at hall
    exact List.forall_mem_singleton.mpr (List.forall_mem_cons.mp hall).1
  · exact lacks_malformed word verb

theorem lacks_readAssignment : (readAssignment verb rest).Lacks word := by
  unfold readAssignment
  split
  · rename_i type key c value hkey hvalue
    simp only
    split
    · exact lacks_malformed word verb
    · have hleft : Text.Lacks word (rest.takeWhile (· != '=')) :=
        h.of_isInfix (List.takeWhile_prefix _).isInfix
      have hright : value <:+: rest :=
        (hvalue ▸ List.suffix_cons c value).isInfix.trans (List.dropWhile_suffix _).isInfix
      exact List.forall_mem_cons.mpr ⟨hleft.of_isInfix (infix_of_readKey? hkey),
        List.forall_mem_singleton.mpr (h.of_isInfix ((Text.isInfix_trim _).trans hright))⟩
  · exact lacks_malformed word verb

theorem lacks_readComputation : (readComputation verb rest).Lacks word := by
  unfold readComputation
  simp only
  split
  · rename_i sign value heq
    split
    · exact lacks_malformed word verb
    · have hsigned : sign :: value <:+ rest := by
        rw [← heq]
        exact (List.dropWhile_suffix _).trans (List.dropWhile_suffix _)
      have hright := ((List.suffix_cons sign value).trans hsigned).isInfix
      refine List.forall_mem_cons.mpr ⟨?_, List.forall_mem_singleton.mpr ?_⟩
      · exact h.of_isInfix ((isInfix_variableKey _).trans (List.takeWhile_prefix _).isInfix)
      · exact h.of_isInfix ((Text.isInfix_trim _).trans hright)
  · exact lacks_malformed word verb

include hword

theorem lacks_readRelationCall : (readRelationCall verb rest).Lacks word := by
  unfold readRelationCall
  split
  · rename_i kind holder object v more hargs
    have hall := forall_lacks_arguments h hargs
    simp only [List.forall_mem_cons] at hall
    obtain ⟨hkind, hholder, hobject, hvalue⟩ := hall
    have hjoined := lacks_joinArguments hword (List.forall_mem_cons.mpr hvalue)
    simp only [Lacks, texts, List.forall_mem_cons]
    exact ⟨hkind, hholder, hobject, hjoined, fun _ ht => nomatch ht⟩
  · exact lacks_malformed word verb

theorem lacks_readRelation : (readRelation verb rest).Lacks word := by
  unfold readRelation
  split
  · exact lacks_readRelationCall hword h verb
  · split
    · rename_i kind value hread
      obtain ⟨hkind, hvalue⟩ := lacks_nameAndValue h hread
      exact List.forall_mem_cons.mpr ⟨hkind, List.forall_mem_singleton.mpr hvalue⟩
    · exact lacks_malformed word verb

theorem lacks_readMutual : (readMutual verb rest).Lacks word := by
  unfold readMutual
  split
  · rename_i kind members v more hargs
    have hall := forall_lacks_arguments h hargs
    simp only [List.forall_mem_cons] at hall
    obtain ⟨hkind, hmembers, hvalue⟩ := hall
    have hjoined := lacks_joinArguments hword (List.forall_mem_cons.mpr hvalue)
    simp only
    split
    · rename_i slash second hsecond
      have hfirst := hmembers.of_isInfix
        ((Text.isInfix_trim _).trans (List.takeWhile_prefix (· != '/')).isInfix)
      have hsuffix : second <:+: members :=
        (hsecond ▸ List.suffix_cons slash second).isInfix.trans (List.dropWhile_suffix _).isInfix
      simp only [Lacks, texts, List.forall_mem_cons]
      exact ⟨hkind, hfirst, hmembers.of_isInfix ((Text.isInfix_trim _).trans hsuffix), hjoined,
        fun _ ht => nomatch ht⟩
    · simp only [Lacks, texts, List.forall_mem_cons]
      exact ⟨hkind, hmembers.of_isInfix (isInfix_variableKey _), hjoined, fun _ ht => nomatch ht⟩
  · exact lacks_malformed word verb

theorem lacks_readListCall {make : Text → Text → Operation}
    (hmake : ∀ a b, (make a b).texts = [a, b]) : (readListCall make verb rest).Lacks word := by
  unfold readListCall
  split
  · rename_i list a more hargs
    obtain ⟨hlist, hmore⟩ := List.forall_mem_cons.mp (forall_lacks_arguments h hargs)
    simp only
    split
    · exact lacks_malformed word verb
    · rw [Lacks, hmake]
      refine List.forall_mem_cons.mpr ⟨hlist.of_isInfix (isInfix_variableKey _), ?_⟩
      refine List.forall_mem_singleton.mpr ?_
      exact (lacks_joinArguments hword hmore).of_isInfix (Text.isInfix_trim _)
  · exact lacks_malformed word verb

/-- A word that the arguments of an operation lack, its texts lack. -/
theorem lacks_read : (read verb rest).Lacks word := by
  unfold read
  split
  · rename_i v go hfind
    have hmem := List.mem_of_find?_eq_some hfind
    have h := h.of_isInfix (Text.isInfix_trim rest)
    generalize Text.trim rest = arguments at h ⊢
    have hwords := forall_lacks_words h
    simp only [verbs, List.mem_cons, Prod.mk.injEq, List.not_mem_nil, or_false] at hmem
    rcases hmem with ⟨-, rfl⟩ | ⟨-, rfl⟩ | ⟨-, rfl⟩ | ⟨-, rfl⟩ | ⟨-, rfl⟩ | ⟨-, rfl⟩ | ⟨-, rfl⟩ |
      ⟨-, rfl⟩ | ⟨-, rfl⟩ | ⟨-, rfl⟩ | ⟨-, rfl⟩ | ⟨-, rfl⟩ | ⟨-, rfl⟩ | ⟨-, rfl⟩ | ⟨-, rfl⟩ |
      ⟨-, rfl⟩ | ⟨-, rfl⟩ | ⟨-, rfl⟩
    · simp only
      split
      · rename_i name value hread
        obtain ⟨hname, hvalue⟩ := lacks_nameAndValue h hread
        exact List.forall_mem_cons.mpr ⟨hname, List.forall_mem_singleton.mpr hvalue⟩
      · exact lacks_malformed word verb
    · exact lacks_readRelation hword h verb
    · exact lacks_readMutual hword h verb
    · simp only
      split
      · rename_i tag heq
        rw [heq] at hwords
        exact List.forall_mem_cons.mpr ⟨(List.forall_mem_cons.mp hwords).1,
          List.forall_mem_singleton.mpr (lacks_one hword)⟩
      · rename_i tag layers _ heq
        rw [heq] at hwords
        obtain ⟨htag, hlayers⟩ := List.forall_mem_cons.mp hwords
        exact List.forall_mem_cons.mpr ⟨htag,
          List.forall_mem_singleton.mpr (lacks_joinWords hword hlayers)⟩
      · exact lacks_malformed word verb
    · simp only
      split
      · rename_i tag d more heq
        rw [heq] at hwords
        obtain ⟨htag, hmore⟩ := List.forall_mem_cons.mp hwords
        exact List.forall_mem_cons.mpr ⟨htag,
          List.forall_mem_singleton.mpr (lacks_joinWords hword hmore)⟩
      · exact lacks_malformed word verb
    · simp only
      split
      · rename_i tag more heq
        rw [heq] at hwords
        exact List.forall_mem_singleton.mpr (List.forall_mem_cons.mp hwords).1
      · exact lacks_malformed word verb
    · exact lacks_readAssignment h verb
    · exact lacks_readComputation h verb
    · exact lacks_readJump h verb false
    · exact lacks_readJump h verb true
    · simp only
      split
      · rename_i chance event more heq
        rw [heq] at hwords
        simp only [List.forall_mem_cons] at hwords
        obtain ⟨hchance, hevent, hmore⟩ := hwords
        simp only [Lacks, texts, List.forall_mem_cons]
        refine ⟨hchance, hevent, fun t ht => hmore t ?_⟩
        exact List.mem_of_mem_head? (Option.mem_toList.mp ht)
      · exact lacks_malformed word verb
    · exact lacks_readListCall hword h verb fun _ _ => rfl
    · exact lacks_readListCall hword h verb fun _ _ => rfl
    · exact lacks_readListCall hword h verb fun _ _ => rfl
    · exact lacks_readListCall hword h verb fun _ _ => rfl
    · exact lacks_readListCall hword h verb fun _ _ => rfl
    · simp only
      split
      · rename_i a more hargs
        split
        · exact lacks_malformed word verb
        · exact List.forall_mem_singleton.mpr
            (lacks_joinArguments hword (forall_lacks_arguments h hargs))
      · exact lacks_malformed word verb
    · simp only
      split
      · rename_i first second hargs
        exact forall_lacks_arguments h hargs
      · exact lacks_malformed word verb
  · intro t ht
    cases ht

end

/-- The verbs of operations that roll dice of their own. -/
def gambles : List Text :=
  ["概率跳转".toList, "同房".toList]

/-- Does an operation roll dice of its own, whatever its texts are? -/
def isGamble : Operation → Bool
  | chanceJump .. => true
  | pair .. => true
  | _ => false

theorem isUnmarked_of_mem_gambles : ∀ word ∈ gambles, word.IsUnmarked := by
  intro word hword
  have hmarks : ∀ g ∈ gambles, g ≠ [] ∧ ∀ c ∈ addedMarks, c ∉ g := by decide
  exact ⟨(hmarks word hword).1, (hmarks word hword).2⟩

/-- Only the verbs of gambles make one. -/
theorem isGamble_read {verb : Text} (hverb : verb ∉ gambles) (rest : Text) :
    (read verb rest).isGamble = false := by
  unfold read
  split
  · rename_i v go hfind
    have hmem := List.mem_of_find?_eq_some hfind
    obtain rfl : v = verb := by simpa using List.find?_some hfind
    simp only [gambles, List.mem_cons, List.not_mem_nil, or_false, not_or] at hverb
    generalize Text.trim rest = arguments
    simp only [verbs, List.mem_cons, Prod.mk.injEq, List.not_mem_nil, or_false] at hmem
    rcases hmem with ⟨-, rfl⟩ | ⟨-, rfl⟩ | ⟨-, rfl⟩ | ⟨-, rfl⟩ | ⟨-, rfl⟩ | ⟨-, rfl⟩ | ⟨-, rfl⟩ |
      ⟨-, rfl⟩ | ⟨-, rfl⟩ | ⟨-, rfl⟩ | ⟨hchance, -⟩ | ⟨-, rfl⟩ | ⟨-, rfl⟩ | ⟨-, rfl⟩ | ⟨-, rfl⟩ |
      ⟨-, rfl⟩ | ⟨-, rfl⟩ | ⟨hpair, -⟩
    case inr.inr.inr.inr.inr.inr.inr.inr.inr.inr.inl => exact absurd hchance hverb.1
    case inr.inr.inr.inr.inr.inr.inr.inr.inr.inr.inr.inr.inr.inr.inr.inr.inr =>
      exact absurd hpair hverb.2
    all_goals
      simp only [readRelation, readRelationCall, readMutual, readAssignment, readComputation,
        readListCall, readJump]
      repeat' split
      all_goals rfl
  · rfl

end Operation

/-! ### Statements -/

namespace Statement

section

variable {word t : Text} (hword : word.IsUnmarked) (h : Text.Lacks word t)

include h

theorem lacks_splitGuard : Text.Lacks word (splitGuard t).1 ∧
    ∀ guard ∈ (splitGuard t).2, Text.Lacks word guard := by
  unfold splitGuard
  split
  · rename_i i _
    refine ⟨h.of_isInfix ((Text.isInfix_trim _).trans (List.take_prefix i t).isInfix), ?_⟩
    intro guard hguard
    simp only at hguard
    split at hguard
    · cases hguard
    · cases hguard
      exact h.of_isInfix ((Text.isInfix_trim _).trans (List.drop_suffix _ t).isInfix)
  · exact ⟨h, fun _ hguard => nomatch hguard⟩

include hword

/-- The point in the longhand stands where the shorthand has none, so it brings no word about. -/
theorem lacks_expand : Text.Lacks word (expand t) := by
  unfold expand
  split
  · rename_i rest hrest
    have ht := Text.after?_eq_some_iff.mp hrest
    have hfirst : "训练员".toList <:+: t := ht ▸ ⟨[], "属性变更".toList ++ rest, rfl⟩
    have hsecond : "属性变更".toList ++ rest <:+: t := ht ▸ ⟨"训练员".toList, [], by simp; rfl⟩
    exact .append_cons hword.ne_nil (hword.notMem '.' (by decide)) (h.of_isInfix hfirst)
      (h.of_isInfix hsecond)
  · exact h

end

theorem infix_of_splitTargetAfter? {mark t target verb rest : Text}
    (h : splitTargetAfter? mark t = some (target, verb, rest)) : verb <:+: t ∧ rest <:+: t := by
  unfold splitTargetAfter? at h
  simp only at h
  split at h
  · rename_i more hmore
    have hsuffix : more <:+: t :=
      (hmore ▸ List.suffix_cons '.' more).isInfix.trans (List.dropWhile_suffix _).isInfix
    split at h
    · cases h
    · cases h
      exact ⟨(List.takeWhile_prefix _).isInfix.trans hsuffix,
        (List.dropWhile_suffix _).isInfix.trans hsuffix⟩
  · cases h

theorem infix_of_splitVerb? {t verb rest : Text} {target : Option Text}
    (h : splitVerb? t = some (target, verb, rest)) : verb <:+: t ∧ rest <:+: t := by
  unfold splitVerb? splitTarget? at h
  split at h
  · rename_i a b c hs
    cases h
    rcases Option.or_eq_some_iff.mp hs with hs | ⟨-, hs⟩
    · obtain ⟨u, hu, hs⟩ := Option.bind_eq_some_iff.mp hs
      obtain ⟨hverb, hrest⟩ := infix_of_splitTargetAfter? hs
      have hsuffix := (Text.isSuffix_after? hu).isInfix
      exact ⟨hverb.trans hsuffix, hrest.trans hsuffix⟩
    · exact infix_of_splitTargetAfter? hs
  · simp only at h
    split at h
    · cases h
    · cases h
      exact ⟨(List.takeWhile_prefix _).isInfix, (List.dropWhile_suffix _).isInfix⟩

/-- A word that a statement lacks, its guard and its operation lack. -/
theorem lacks_read {word raw : Text} (hword : word.IsUnmarked) (h : Text.Lacks word raw) :
    (∀ guard ∈ (read raw).guard, Text.Lacks word guard) ∧ (read raw).operation.Lacks word := by
  have hexpand := lacks_expand hword (h.of_isInfix (Text.isInfix_trim raw))
  obtain ⟨hbody, hguard⟩ := lacks_splitGuard hexpand
  unfold read
  simp only
  split
  · rename_i target verb rest hverb
    have hrest := hbody.of_isInfix (infix_of_splitVerb? hverb).2
    exact ⟨hguard, Operation.lacks_read hword hrest verb⟩
  · exact ⟨fun _ hg => (nomatch hg), Operation.lacks_malformed word []⟩

/-- A statement that names no gamble is none. -/
theorem isGamble_read {raw : Text} (h : ∀ word ∈ Operation.gambles, Text.Lacks word raw) :
    (read raw).operation.isGamble = false := by
  have hverb : ∀ verb rest target,
      splitVerb? (splitGuard (expand raw.trim)).1 = some (target, verb, rest) →
        verb ∉ Operation.gambles := by
    intro verb rest target hsplit hmem
    have hword := Operation.isUnmarked_of_mem_gambles verb hmem
    have hraw := (h verb hmem).of_isInfix (Text.isInfix_trim raw)
    have hlacks := lacks_splitGuard (lacks_expand hword hraw)
    exact hlacks.1 (infix_of_splitVerb? hsplit).1
  unfold read
  simp only
  split
  · rename_i target verb rest hsplit
    exact Operation.isGamble_read (hverb verb rest target hsplit) rest
  · rfl

end Statement

end EventScript
