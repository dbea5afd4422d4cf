/-
Scanning and splitting of texts that are put together from others.

What stands at the top level of a text depends on what was opened before it.  A text that
`IsBalanced` closes whatever it opens and nothing else, so that the text after it reads as if
it stood alone, and brackets around it hide it from every search:

* `Text.exists_eq_trim` — a text is what trimming leaves of it, with white space around;
* `splitTop_append` — parts joined by a separator are split into their own parts;
* `topOccurrencesFrom_append_cons` — a token occurs in texts on both sides of a character that
  it does not have, and nowhere else;
* `topOccurrences_wrap` — at the top level nothing occurs between brackets;
* `unwrap?_wrap` — brackets that were put around a balanced text come off again.
-/
import EventScript.Text.Nesting
import Mathlib.Data.List.Infix
import Mathlib.Data.List.TakeWhile

namespace EventScript

/-- What is said of all characters of a text is decided by a look at the text, not at all
characters that there are. -/
instance (t : Text) (P : Char → Prop) [DecidablePred P] : Decidable (∀ c ∈ t, P c) :=
  List.decidableBAll P t

/-! ### White space at the ends -/

namespace Text

theorem trimStart_eq_self {t : Text} (h : ∀ c ∈ t.head?, isBlank c = false) : trimStart t = t := by
  cases t with
  | nil => rfl
  | cons c rest => rw [trimStart, List.dropWhile_cons_of_neg (by simp [h c rfl])]

theorem trimStart_cons {c : Char} (hc : isBlank c = false) (t : Text) :
    trimStart (c :: t) = c :: t :=
  trimStart_eq_self fun _ hd => Option.some.inj hd ▸ hc

theorem trimEnd_eq_self {t : Text} (h : ∀ c ∈ t.getLast?, isBlank c = false) : trimEnd t = t := by
  have hrev : t.reverse.dropWhile isBlank = t.reverse :=
    trimStart_eq_self fun c hc => h c (List.head?_reverse ▸ hc)
  rw [trimEnd, hrev, List.reverse_reverse]

theorem getLast?_trimEnd (t : Text) : ∀ c ∈ (trimEnd t).getLast?, isBlank c = false := by
  intro c hc
  rw [trimEnd, List.getLast?_reverse] at hc
  have hhead := List.head?_dropWhile_not isBlank t.reverse
  rw [Option.mem_def.mp hc] at hhead
  exact hhead

theorem isPrefix_trimEnd (t : Text) : trimEnd t <+: t := by
  have h := List.dropWhile_suffix isBlank (l := t.reverse)
  rw [← List.reverse_prefix, List.reverse_reverse] at h
  exact h

theorem isPrefix_trim {t : Text} (h : ∀ c ∈ t.head?, isBlank c = false) : trim t <+: t := by
  rw [trim, trimStart_eq_self h]
  exact isPrefix_trimEnd t

/-- A text that neither begins nor ends with white space is trimmed already. -/
theorem trim_eq_self {t : Text} (hfirst : ∀ c ∈ t.head?, isBlank c = false)
    (hlast : ∀ c ∈ t.getLast?, isBlank c = false) : trim t = t := by
  rw [trim, trimStart_eq_self hfirst, trimEnd_eq_self hlast]

end Text

theorem Text.trim_cons {c : Char} (hc : isBlank c) (t : Text) : trim (c :: t) = trim t := by
  rw [trim, trim, trimStart, List.dropWhile_cons_of_pos hc, trimStart]

theorem Text.trimEnd_concat {c : Char} (hc : isBlank c) (t : Text) :
    trimEnd (t ++ [c]) = trimEnd t := by
  rw [trimEnd, trimEnd, List.reverse_concat, List.dropWhile_cons_of_pos hc]

theorem Text.trim_concat {c : Char} (hc : isBlank c) (t : Text) : trim (t ++ [c]) = trim t := by
  induction t with
  | nil => exact trim_cons hc []
  | cons d rest ih =>
    by_cases hd : isBlank d
    · rw [List.cons_append, trim_cons hd, trim_cons hd, ih]
    · have hstart : ∀ u : Text, trimStart (d :: u) = d :: u :=
        fun u => List.dropWhile_cons_of_neg hd
      rw [List.cons_append, trim, trim, hstart, hstart, ← List.cons_append, trimEnd_concat hc]

namespace Text

variable {a b : Text}

theorem trim_append_left (ha : ∀ c ∈ a, isBlank c) (t : Text) : trim (a ++ t) = trim t := by
  induction a with
  | nil => rfl
  | cons c rest ih =>
    obtain ⟨hc, hrest⟩ := List.forall_mem_cons.mp ha
    rw [List.cons_append, trim_cons hc, ih hrest]

theorem trim_append_right (hb : ∀ c ∈ b, isBlank c) (t : Text) : trim (t ++ b) = trim t := by
  induction b using List.reverseRecOn with
  | nil => rw [List.append_nil]
  | append_singleton rest c ih =>
    have hrest : ∀ d ∈ rest, isBlank d := fun d hd => hb d (List.mem_append_left _ hd)
    rw [← List.append_assoc, trim_concat (hb c (by simp)), ih hrest]

theorem head?_trim (t : Text) : ∀ c ∈ (trim t).head?, isBlank c = false := by
  intro c hc
  obtain ⟨rest, hrest⟩ := List.head?_eq_some_iff.mp hc
  obtain ⟨more, hmore⟩ : c :: rest <+: t.trimStart := hrest ▸ isPrefix_trimEnd t.trimStart
  have hhead := List.head?_dropWhile_not isBlank t
  rw [← trimStart, ← hmore] at hhead
  exact hhead

theorem trim_trim (t : Text) : t.trim.trim = t.trim :=
  trim_eq_self (head?_trim t) (getLast?_trimEnd _)

/-- What stands between two trimmed texts does not matter. -/
theorem trim_between (ha : a.trim = a) (hne : a ≠ []) (hb : b.trim = b) (hne' : b ≠ [])
    (between : Text) : trim (a ++ (between ++ b)) = a ++ (between ++ b) := by
  refine trim_eq_self ?_ ?_
  · rw [List.head?_append_of_ne_nil _ hne]
    exact ha ▸ head?_trim a
  · rw [← List.append_assoc, List.getLast?_append_of_ne_nil _ hne']
    exact hb ▸ getLast?_trimEnd _

/-- A text is what trimming leaves of it, with white space at both ends. -/
theorem exists_eq_trim (t : Text) :
    ∃ a b, t = a ++ (t.trim ++ b) ∧ (∀ c ∈ a, isBlank c) ∧ ∀ c ∈ b, isBlank c := by
  have hback : t.trimStart = t.trim ++ (t.trimStart.reverse.takeWhile isBlank).reverse := by
    rw [trim, trimEnd, ← List.reverse_append, List.takeWhile_append_dropWhile,
      List.reverse_reverse]
  refine ⟨t.takeWhile isBlank, (t.trimStart.reverse.takeWhile isBlank).reverse, ?_,
    fun c hc => List.mem_takeWhile_imp hc, ?_⟩
  · rw [← hback, trimStart, List.takeWhile_append_dropWhile]
  · exact fun c hc => List.mem_takeWhile_imp (List.mem_reverse.mp hc)

theorem trim_eq_nil {t : Text} (h : t.trim = []) : ∀ c ∈ t, isBlank c := by
  obtain ⟨a, b, ht, ha, hb⟩ := exists_eq_trim t
  rw [h, List.nil_append] at ht
  rw [ht]
  exact List.forall_mem_append.mpr ⟨ha, hb⟩

/-- Behind something without white space, only the end of a text is trimmed. -/
theorem trim_append_of_solid {a t : Text} (ha : ∀ c ∈ a, isBlank c = false)
    (ht : ∀ c ∈ t.head?, isBlank c = false) : trim (a ++ t) = a ++ trim t := by
  obtain ⟨x, b, ht', hx, hb⟩ := exists_eq_trim t
  obtain rfl : x = [] := by
    cases x with
    | nil => rfl
    | cons c rest =>
      rw [ht'] at ht
      have hnot := ht c rfl
      rw [hx c List.mem_cons_self] at hnot
      cases hnot
  conv_lhs => rw [ht']
  rw [List.nil_append, ← List.append_assoc, trim_append_right hb]
  refine trim_eq_self ?_ ?_
  · intro c hc
    cases a with
    | nil => exact head?_trim t c hc
    | cons d rest =>
      obtain rfl := Option.some.inj hc
      exact ha _ List.mem_cons_self
  · intro c hc
    rw [List.getLast?_append, Option.mem_def, Option.or_eq_some_iff] at hc
    rcases hc with hc | ⟨-, hc⟩
    · exact getLast?_trimEnd _ c hc
    · exact ha c (List.mem_of_mem_getLast? hc)

theorem head?_trim_of_solid {t : Text} (ht : ∀ c ∈ t.head?, isBlank c = false) :
    t.trim.head? = t.head? := by
  cases t with
  | nil => rfl
  | cons c rest =>
    have hne : (trim (c :: rest)) ≠ [] := by
      intro hnil
      have hblank := ht c rfl
      rw [trim_eq_nil hnil c List.mem_cons_self] at hblank
      cases hblank
    have hbegins := isPrefix_trim ht
    obtain ⟨d, more, hmore⟩ := List.exists_cons_of_ne_nil hne
    rw [hmore] at hbegins ⊢
    exact congrArg some (List.cons_prefix_cons.mp hbegins).1

end Text

/-- What white space at the front does not change, trimming the front does not change. -/
theorem Text.apply_trimStart {β : Type} {f : Text → β}
    (hf : ∀ {c}, isBlank c → ∀ t, f (c :: t) = f t) (t : Text) : f t.trimStart = f t := by
  induction t with
  | nil => rfl
  | cons c rest ih =>
    by_cases hc : isBlank c
    · rw [trimStart, List.dropWhile_cons_of_pos hc, hf hc]
      exact ih
    · rw [trimStart, List.dropWhile_cons_of_neg hc]

/-- What white space at the back does not change, trimming the back does not change. -/
theorem Text.apply_trimEnd {β : Type} {f : Text → β}
    (hf : ∀ {c}, isBlank c → ∀ t, f (t ++ [c]) = f t) (t : Text) : f t.trimEnd = f t := by
  induction t using List.reverseRecOn with
  | nil => rfl
  | append_singleton rest c ih =>
    by_cases hc : isBlank c
    · rw [trimEnd_concat hc, hf hc, ih]
    · rw [trimEnd, List.reverse_concat, List.dropWhile_cons_of_neg hc, List.reverse_cons,
        List.reverse_reverse]

/-! ### What is open where -/

/-- Is the character neither a bracket nor a quotation mark? -/
def isPlain (c : Char) : Bool :=
  !isQuote c && !isOpener c && !isCloser c

/-- A character of some class is none of several that the class does not have. -/
theorem notMem_of_all_not {p : Char → Bool} {c : Char} (h : p c) {marks : List Char}
    (hmarks : marks.all (! p ·)) : c ∉ marks := by
  intro hc
  have hnot := List.all_eq_true.mp hmarks c hc
  rw [h] at hnot
  cases hnot

theorem isPlain_of_notMem {c : Char} (h : c ∉ ['"', '\'', '(', '{', ')', '}']) : isPlain c := by
  have hne : ∀ d ∈ ['"', '\'', '(', '{', ')', '}'], (c == d) = false := by
    intro d hd
    rw [beq_eq_false_iff_ne]
    rintro rfl
    exact h hd
  rw [isPlain, isQuote, isOpener, isCloser, hne '"' (by simp), hne '\'' (by simp),
    hne '(' (by simp), hne '{' (by simp), hne ')' (by simp), hne '}' (by simp)]
  rfl

theorem isPlain_of_isBlank {c : Char} (h : isBlank c) : isPlain c :=
  isPlain_of_notMem (notMem_of_all_not h rfl)

namespace Nesting

variable {s : Nesting} {c : Char} {a b t : Text}

theorem read_append (s : Nesting) (a b : Text) : s.read (a ++ b) = (s.read a).read b :=
  List.foldl_append

/-- Nothing is open. -/
structure IsClosed (s : Nesting) : Prop where
  depth_eq : s.depth = 0
  quote_eq : s.quote = none

theorem isClosed_start : start.IsClosed :=
  ⟨rfl, rfl⟩

/-- Where nothing is open, a text goes on as if it began. -/
theorem IsClosed.step_eq (h : s.IsClosed) (c : Char) : s.step c = start.step c := by
  rw [step, step, h.quote_eq, h.depth_eq]
  rfl

theorem IsClosed.isTop_eq (h : s.IsClosed) (c : Char) : s.isTop c = start.isTop c := by
  rw [isTop, isTop, h.quote_eq, h.depth_eq]
  rfl

theorem IsClosed.depth_read (h : s.IsClosed) (t : Text) :
    (s.read t).depth = (start.read t).depth := by
  cases t with
  | nil => exact h.depth_eq
  | cons c rest =>
    show ((s.step c).read rest).depth = ((start.step c).read rest).depth
    rw [h.step_eq]

theorem IsClosed.quote_read (h : s.IsClosed) (t : Text) :
    (s.read t).quote = (start.read t).quote := by
  cases t with
  | nil => exact h.quote_eq
  | cons c rest =>
    show ((s.step c).read rest).quote = ((start.step c).read rest).quote
    rw [h.step_eq]

theorem IsClosed.step (h : s.IsClosed) (hc : isPlain c) : (s.step c).IsClosed := by
  obtain ⟨hq, hclose⟩ := Bool.and_eq_true_iff.mp hc
  obtain ⟨hquote, hopen⟩ := Bool.and_eq_true_iff.mp hq
  rw [h.step_eq, Nesting.step]
  show IsClosed (if isQuote c then _ else _)
  rw [Bool.not_eq_true'] at hquote hopen hclose
  rw [hquote, hopen, hclose]
  exact ⟨rfl, rfl⟩

/-- Characters that are no brackets and no quotation marks open nothing. -/
theorem IsClosed.read (h : s.IsClosed) (ht : ∀ c ∈ t, isPlain c) : (s.read t).IsClosed := by
  induction t generalizing s with
  | nil => exact h
  | cons c rest ih =>
    obtain ⟨hc, hrest⟩ := List.forall_mem_cons.mp ht
    exact ih (h.step hc) hrest

theorem IsClosed.isTop (h : s.IsClosed) (hc : isPlain c) : s.isTop c = true := by
  obtain ⟨hq, hclose⟩ := Bool.and_eq_true_iff.mp hc
  obtain ⟨hquote, -⟩ := Bool.and_eq_true_iff.mp hq
  rw [Bool.not_eq_true'] at hquote hclose
  rw [h.isTop_eq, Nesting.isTop, hquote, hclose]
  rfl

/-- Only where nothing is open, a character that is no bracket stands at the top. -/
theorem isClosed_of_isTop (h : s.isTop c) (hc : isPlain c) : s.IsClosed := by
  obtain ⟨-, hclose⟩ := Bool.and_eq_true_iff.mp hc
  obtain ⟨hquote, hdepth⟩ := Bool.and_eq_true_iff.mp h
  rw [Bool.not_eq_true'] at hclose
  rw [hclose] at hdepth
  exact ⟨beq_iff_eq.mp hdepth, Option.isNone_iff_eq_none.mp (Bool.and_eq_true_iff.mp hquote).1⟩

/-! ### Inside of brackets -/

/-- Some more brackets are open. -/
def deepen (s : Nesting) (k : Int) : Nesting :=
  { s with depth := s.depth + k }

theorem step_deepen (s : Nesting) (k : Int) (c : Char) :
    (s.deepen k).step c = (s.step c).deepen k := by
  obtain ⟨depth, quote, afterBackslash⟩ := s
  cases quote with
  | some q => rfl
  | none =>
    rw [deepen, step, step]
    by_cases hquote : isQuote c
    · simp [deepen, hquote]
    · by_cases hopen : isOpener c
      · simp only [deepen, hquote, hopen, if_true, if_false, Bool.false_eq_true]
        congr 1
        omega
      · by_cases hclose : isCloser c
        · simp only [deepen, hquote, hopen, hclose, if_true, if_false, Bool.false_eq_true]
          congr 1
          omega
        · simp [deepen, hquote, hopen, hclose]

theorem read_deepen (s : Nesting) (k : Int) (t : Text) :
    (s.deepen k).read t = (s.read t).deepen k := by
  induction t generalizing s with
  | nil => rfl
  | cons c rest ih =>
    show ((s.deepen k).step c).read rest = ((s.step c).read rest).deepen k
    rw [step_deepen, ih]

/-- All through a text, and at its end, some bracket stays open. -/
def StaysOpen (s : Nesting) (t : Text) : Prop :=
  ∀ p, p <+: t → 1 ≤ (s.read p).depth

theorem StaysOpen.tail (h : s.StaysOpen (c :: t)) : (s.step c).StaysOpen t :=
  fun p hp => h (c :: p) (List.cons_prefix_cons.mpr ⟨rfl, hp⟩)

/-- Where some bracket stays open, nothing stands at the top level. -/
theorem StaysOpen.isTop_eq_false (h : s.StaysOpen (c :: t)) : s.isTop c = false := by
  obtain ⟨depth, quote, afterBackslash⟩ := s
  cases quote with
  | some q => rfl
  | none =>
    have hbefore : 1 ≤ depth := h [] List.nil_prefix
    have hafter : 1 ≤ (step ⟨depth, none, afterBackslash⟩ c).depth := h.tail [] List.nil_prefix
    show isTop ⟨depth, none, afterBackslash⟩ c = false
    rw [isTop]
    by_cases hquote : isQuote c
    · rw [hquote]
      rfl
    · by_cases hclose : isCloser c
      · -- a closing bracket stands one level higher, which is not the top either
        have hopen : ¬ isOpener c := by
          intro hopen
          rw [isOpener, Bool.or_eq_true, beq_iff_eq, beq_iff_eq] at hopen
          rcases hopen with rfl | rfl <;> exact absurd hclose (by decide)
        rw [step] at hafter
        simp only [hquote, hopen, hclose, if_true, if_false, Bool.false_eq_true] at hafter
        have hdepth : depth - 1 ≠ 0 := by omega
        rw [if_pos hclose, beq_eq_false_iff_ne.mpr hdepth, Bool.and_false]
      · have hdepth : depth ≠ 0 := by omega
        rw [if_neg hclose, beq_eq_false_iff_ne.mpr hdepth, Bool.and_false]

end Nesting

/-- A text that closes its quotations and its brackets, and no brackets that it did not open. -/
structure Text.IsBalanced (t : Text) : Prop where
  isClosed : (Nesting.start.read t).IsClosed
  depth_nonneg : ∀ p, p <+: t → 0 ≤ (Nesting.start.read p).depth

instance (t : Text) : Decidable t.IsBalanced :=
  decidable_of_iff (((Nesting.start.read t).depth = 0 ∧ (Nesting.start.read t).quote = none) ∧
      ∀ p ∈ t.inits, 0 ≤ (Nesting.start.read p).depth)
    ⟨fun h => ⟨⟨h.1.1, h.1.2⟩, fun p hp => h.2 p ((List.mem_inits p t).mpr hp)⟩,
      fun h => ⟨⟨h.isClosed.1, h.isClosed.2⟩, fun p hp =>
        h.depth_nonneg p ((List.mem_inits p t).mp hp)⟩⟩

/-! ### Beginnings -/

section Beginnings

variable {token a : Text}

/-- A text that begins in another one also ends there, unless the last character of the other
one stands before its end. -/
theorem isPrefixOf_append (ha : a ≠ []) (b : Text)
    (hlast : ∀ c ∈ a.getLast?, c ∉ token.dropLast) :
    token.isPrefixOf (a ++ b) = token.isPrefixOf a := by
  rw [Bool.eq_iff_iff, List.isPrefixOf_iff_prefix, List.isPrefixOf_iff_prefix]
  constructor
  · intro h
    rcases List.prefix_or_prefix_of_prefix h (List.prefix_append a b) with hin | hout
    · exact hin
    · obtain ⟨d, rfl⟩ := hout
      by_cases hd : d = []
      · rw [hd, List.append_nil]
      · -- the token goes on behind the last character of `a`
        have hmem : a.getLast ha ∈ (a ++ d).dropLast := by
          rw [List.dropLast_append_of_ne_nil hd]
          exact List.mem_append_left _ (List.getLast_mem ha)
        exact absurd hmem (hlast _ (List.getLast?_eq_some_getLast ha))
  · intro h
    exact h.trans (List.prefix_append a b)

/-- A token that does not have some character begins and ends before it, or not at all. -/
theorem isPrefixOf_append_cons {y : Char} (hy : y ∉ token) (a b : Text) :
    token.isPrefixOf (a ++ y :: b) = token.isPrefixOf a := by
  rw [Bool.eq_iff_iff, List.isPrefixOf_iff_prefix, List.isPrefixOf_iff_prefix]
  constructor
  · intro h
    rcases List.prefix_or_prefix_of_prefix h (List.prefix_append a (y :: b)) with hin | ⟨d, hd⟩
    · exact hin
    · cases d with
      | nil => exact ⟨[], by rw [List.append_nil, ← hd, List.append_nil]⟩
      | cons z d =>
        -- the token would have the character
        rw [← hd] at h
        have hcut := (List.prefix_append_right_inj a).mp h
        obtain rfl : z = y := (List.cons_prefix_cons.mp hcut).1
        exact absurd (hd ▸ List.mem_append_right a List.mem_cons_self) hy
  · intro h
    exact h.trans (List.prefix_append a (y :: b))

theorem Text.after?_eq_none {start t : Text} (h : ¬ start <+: t) : after? start t = none := by
  rw [Option.eq_none_iff_forall_ne_some]
  intro rest hrest
  exact h ⟨rest, (after?_eq_some_iff.mp hrest).symm⟩

end Beginnings

/-! ### Splitting -/

section Separator

variable {separator : Text} {s : Nesting} {a b t : Text}

/-- Where the separator stands at the top level, a part ends. -/
theorem splitTopFrom_of_occurrence {x c : Char} {more : Text}
    (h : s.isTop c && (x :: more).isPrefixOf (c :: t)) :
    splitTopFrom (x :: more) s 0 (c :: t) =
      [] :: splitTopFrom (x :: more) (s.step c) more.length t :=
  if_pos h

/-- Anywhere else, a part goes on. -/
theorem splitTopFrom_of_not {c : Char} (h : ¬ (s.isTop c && separator.isPrefixOf (c :: t))) :
    splitTopFrom separator s 0 (c :: t) = consFirst c (splitTopFrom separator (s.step c) 0 t) :=
  if_neg h

theorem splitTopFrom_ne_nil (separator : Text) (s : Nesting) (skip : Nat) (t : Text) :
    splitTopFrom separator s skip t ≠ [] := by
  have hcons : ∀ (c : Char) (ps : List Text), consFirst c ps ≠ [] := by
    intro c ps
    cases ps <;> exact List.cons_ne_nil _ _
  induction t generalizing s skip with
  | nil => exact List.cons_ne_nil _ _
  | cons c rest ih =>
    cases skip with
    | succ skip => exact ih _ _
    | zero =>
      by_cases h : s.isTop c && separator.isPrefixOf (c :: rest)
      · cases separator with
        | nil =>
          show (if _ then _ else _) ≠ []
          rw [if_pos h]
          exact List.cons_ne_nil _ _
        | cons x more =>
          rw [splitTopFrom_of_occurrence h]
          exact List.cons_ne_nil _ _
      · rw [splitTopFrom_of_not h]
        exact hcons c _

theorem consFirst_append (c : Char) {ps : List Text} (qs : List Text) (h : ps ≠ []) :
    consFirst c (ps ++ qs) = consFirst c ps ++ qs := by
  cases ps with
  | nil => exact absurd rfl h
  | cons p ps => rfl

theorem splitTopFrom_of_isClosed (h : s.IsClosed) (separator : Text) (skip : Nat) (t : Text) :
    splitTopFrom separator s skip t = splitTopFrom separator .start skip t := by
  cases t with
  | nil => cases skip <;> rfl
  | cons c rest =>
    cases skip with
    | zero =>
      show (if s.isTop c && _ then _ else _) = if Nesting.start.isTop c && _ then _ else _
      rw [h.isTop_eq, h.step_eq]
    | succ skip =>
      show splitTopFrom separator (s.step c) skip rest = _
      rw [h.step_eq]
      rfl

/-- A separator is passed over. -/
theorem splitTopFrom_skip (separator : Text) (s : Nesting) (a b : Text) :
    splitTopFrom separator s a.length (a ++ b) = splitTopFrom separator (s.read a) 0 b := by
  induction a generalizing s with
  | nil => rfl
  | cons c rest ih =>
    show splitTopFrom separator (s.step c) rest.length (rest ++ b) = _
    rw [ih]
    rfl

theorem splitTopFrom_append (hne : separator ≠ []) (hplain : ∀ c ∈ separator, isPlain c)
    (skip : Nat) (hskip : skip ≤ a.length) (hclosed : (s.read a).IsClosed)
    (hlast : ∀ c ∈ a.getLast?, c ∉ separator.dropLast) (b : Text) :
    splitTopFrom separator s skip (a ++ (separator ++ b)) =
      splitTopFrom separator s skip a ++ splitTop separator b := by
  -- `s` is what the part of `a` read so far leaves; only at its end has nothing to be open
  induction a generalizing s skip with
  | nil =>
    obtain rfl := Nat.le_zero.mp hskip
    obtain ⟨x, more, rfl⟩ := List.exists_cons_of_ne_nil hne
    obtain ⟨hx, hmore⟩ := List.forall_mem_cons.mp hplain
    have hs : s.IsClosed := hclosed
    have hhere : s.isTop x && (x :: more).isPrefixOf (x :: (more ++ b)) := by
      rw [hs.isTop hx, Bool.true_and, List.isPrefixOf_iff_prefix]
      exact List.prefix_append (x :: more) b
    show splitTopFrom (x :: more) s 0 (x :: (more ++ b)) = [[]] ++ splitTop (x :: more) b
    rw [splitTopFrom_of_occurrence hhere, splitTopFrom_skip,
      splitTopFrom_of_isClosed ((hs.step hx).read hmore)]
    rfl
  | cons c rest ih =>
    have hlast' : ∀ d ∈ rest.getLast?, d ∉ separator.dropLast := by
      intro d hd
      cases rest with
      | nil => cases hd
      | cons e rest =>
        rw [← List.getLast?_cons_cons (a := c)] at hd
        exact hlast d hd
    cases skip with
    | succ skip => exact ih skip (Nat.le_of_succ_le_succ hskip) hclosed hlast'
    | zero =>
      have hbegins : separator.isPrefixOf (c :: (rest ++ (separator ++ b))) =
          separator.isPrefixOf (c :: rest) :=
        isPrefixOf_append (List.cons_ne_nil c rest) _ hlast
      rw [List.cons_append]
      by_cases h : s.isTop c && separator.isPrefixOf (c :: rest)
      · obtain ⟨x, more, rfl⟩ := List.exists_cons_of_ne_nil hne
        rw [splitTopFrom_of_occurrence h, splitTopFrom_of_occurrence (hbegins.symm ▸ h)]
        -- a separator that begins in `a` also ends there
        have hmore : more.length ≤ rest.length := by
          have hlen := (List.isPrefixOf_iff_prefix.mp (Bool.and_eq_true_iff.mp h).2).length_le
          exact Nat.le_of_succ_le_succ hlen
        exact congrArg ([] :: ·) (ih more.length hmore hclosed hlast')
      · rw [splitTopFrom_of_not h, splitTopFrom_of_not (hbegins.symm ▸ h),
          ih 0 (Nat.zero_le _) hclosed hlast']
        exact consFirst_append c _ (splitTopFrom_ne_nil _ _ _ _)

/-- Two texts joined by a separator are split into the parts of both, if the first one closes
what it opens and does not end in the middle of a separator. -/
theorem splitTop_append (hne : separator ≠ []) (hplain : ∀ c ∈ separator, isPlain c)
    (hclosed : (Nesting.start.read a).IsClosed)
    (hlast : ∀ c ∈ a.getLast?, c ∉ separator.dropLast) (b : Text) :
    splitTop separator (a ++ (separator ++ b)) = splitTop separator a ++ splitTop separator b :=
  splitTopFrom_append hne hplain 0 (Nat.zero_le _) hclosed hlast b

/-- A plain character that does not begin the separator goes to the first part. -/
theorem splitTop_cons {x y : Char} (hy : isPlain y) (hxy : x ≠ y) (more t : Text) :
    splitTop (x :: more) (y :: t) = consFirst y (splitTop (x :: more) t) := by
  have hnot : ¬ (Nesting.start.isTop y && (x :: more).isPrefixOf (y :: t)) := by
    rw [List.isPrefixOf, beq_eq_false_iff_ne.mpr hxy, Bool.false_and, Bool.and_false]
    exact Bool.false_ne_true
  rw [splitTop, splitTopFrom_of_not hnot,
    splitTopFrom_of_isClosed (Nesting.isClosed_start.step hy)]
  rfl

theorem map_splitTop_cons {β : Type} {f : Text → β} {x y : Char} (hf : ∀ p, f (y :: p) = f p)
    (hy : isPlain y) (hxy : x ≠ y) (more t : Text) :
    (splitTop (x :: more) (y :: t)).map f = (splitTop (x :: more) t).map f := by
  rw [splitTop_cons hy hxy]
  obtain ⟨p, ps, hps⟩ :=
    List.exists_cons_of_ne_nil (splitTopFrom_ne_nil (x :: more) Nesting.start 0 t)
  rw [splitTop, hps, consFirst, List.map_cons, List.map_cons, hf]

/-- A character that the separator does not have goes to the last part. -/
theorem splitTopFrom_concat {y : Char} (hne : separator ≠ []) (hy : y ∉ separator) (skip : Nat)
    (hskip : skip ≤ t.length) :
    ∃ ps p, splitTopFrom separator s skip t = ps ++ [p] ∧
      splitTopFrom separator s skip (t ++ [y]) = ps ++ [p ++ [y]] := by
  induction t generalizing s skip with
  | nil =>
    obtain rfl := Nat.le_zero.mp hskip
    have hnot : ¬ (s.isTop y && separator.isPrefixOf [y]) := by
      rw [← List.nil_append [y], isPrefixOf_append_cons hy, Bool.and_eq_true,
        List.isPrefixOf_iff_prefix, List.prefix_nil]
      exact fun h => hne h.2
    exact ⟨[], [], rfl, splitTopFrom_of_not hnot⟩
  | cons c rest ih =>
    cases skip with
    | succ skip => exact ih skip (Nat.le_of_succ_le_succ hskip)
    | zero =>
      have hbegins : separator.isPrefixOf (c :: (rest ++ [y])) = separator.isPrefixOf (c :: rest) :=
        isPrefixOf_append_cons hy (c :: rest) []
      rw [List.cons_append]
      by_cases h : s.isTop c && separator.isPrefixOf (c :: rest)
      · obtain ⟨x, more, rfl⟩ := List.exists_cons_of_ne_nil hne
        have hmore : more.length ≤ rest.length := by
          have hlen := (List.isPrefixOf_iff_prefix.mp (Bool.and_eq_true_iff.mp h).2).length_le
          exact Nat.le_of_succ_le_succ hlen
        rw [splitTopFrom_of_occurrence h, splitTopFrom_of_occurrence (hbegins.symm ▸ h)]
        obtain ⟨ps, p, hp, hp'⟩ := ih (s := s.step c) more.length hmore
        exact ⟨[] :: ps, p, by rw [hp, List.cons_append], by rw [hp', List.cons_append]⟩
      · rw [splitTopFrom_of_not h, splitTopFrom_of_not (hbegins.symm ▸ h)]
        obtain ⟨ps, p, hp, hp'⟩ := ih (s := s.step c) 0 (Nat.zero_le _)
        rw [hp, hp']
        cases ps with
        | nil => exact ⟨[], c :: p, rfl, rfl⟩
        | cons q qs => exact ⟨(c :: q) :: qs, p, rfl, rfl⟩

theorem map_splitTop_concat {β : Type} {f : Text → β} {y : Char} (hf : ∀ p, f (p ++ [y]) = f p)
    (hne : separator ≠ []) (hy : y ∉ separator) (t : Text) :
    (splitTop separator (t ++ [y])).map f = (splitTop separator t).map f := by
  obtain ⟨ps, p, hp, hp'⟩ := splitTopFrom_concat (s := .start) hne hy 0 (Nat.zero_le t.length)
  rw [splitTop, splitTop, hp, hp', List.map_append, List.map_append, List.map_singleton,
    List.map_singleton, hf]

end Separator

/-! ### Searching -/

section Token

variable {token : Text} {s : Nesting} {a b t : Text}

theorem topOccurrencesFrom_add (token : Text) (s : Nesting) (i k : Nat) (t : Text) :
    topOccurrencesFrom token s (i + k) t = (topOccurrencesFrom token s i t).map (· + k) := by
  induction t generalizing s i with
  | nil => rfl
  | cons c rest ih =>
    rw [topOccurrencesFrom, topOccurrencesFrom, Nat.add_right_comm, ih]
    by_cases h : s.isTop c && token.isPrefixOf (c :: rest)
    · rw [if_pos h, if_pos h, List.map_cons]
    · rw [if_neg h, if_neg h]

/-- Where nothing is open, the search goes on as if it began. -/
theorem topOccurrencesFrom_of_isClosed (h : s.IsClosed) (token : Text) (i : Nat) (t : Text) :
    topOccurrencesFrom token s i t = (topOccurrences token t).map (· + i) := by
  rw [topOccurrences, ← topOccurrencesFrom_add, Nat.zero_add]
  cases t with
  | nil => rfl
  | cons c rest => rw [topOccurrencesFrom, topOccurrencesFrom, h.isTop_eq, h.step_eq]

theorem topOccurrencesFrom_eq_nil (hs : s.IsClosed) (ht : topOccurrences token t = []) (i : Nat) :
    topOccurrencesFrom token s i t = [] := by
  rw [topOccurrencesFrom_of_isClosed hs, ht, List.map_nil]

/-- A text without a top-level occurrence of a separator is not split. -/
theorem splitTop_of_topOccurrences_eq_nil (h : topOccurrences token t = []) :
    splitTop token t = [t] := by
  -- the search counts positions where splitting does not, so neither start can be fixed
  have key : ∀ (s : Nesting) (i : Nat), topOccurrencesFrom token s i t = [] →
      splitTopFrom token s 0 t = [t] := by
    clear h
    induction t with
    | nil => exact fun _ _ _ => rfl
    | cons c rest ih =>
      intro s i h
      rw [topOccurrencesFrom] at h
      by_cases hc : s.isTop c && token.isPrefixOf (c :: rest)
      · rw [if_pos hc] at h
        cases h
      · rw [if_neg hc] at h
        rw [splitTopFrom_of_not hc, ih _ _ h]
        rfl
  exact key _ _ h

/-- A token that does not have some character occurs before it and behind it only. -/
theorem topOccurrencesFrom_append_cons {y : Char} (hne : token ≠ []) (hy : y ∉ token)
    (s : Nesting) (i : Nat) (a b : Text) :
    topOccurrencesFrom token s i (a ++ y :: b) = topOccurrencesFrom token s i a ++
      topOccurrencesFrom token ((s.read a).step y) (i + a.length + 1) b := by
  induction a generalizing s i with
  | nil =>
    have hhere : token.isPrefixOf (y :: b) = false := by
      rw [← List.nil_append (y :: b), isPrefixOf_append_cons hy, ← Bool.not_eq_true,
        List.isPrefixOf_iff_prefix, List.prefix_nil]
      exact hne
    show topOccurrencesFrom token s i (y :: b) = topOccurrencesFrom token (s.step y) (i + 1) b
    rw [topOccurrencesFrom, hhere, Bool.and_false]
    rfl
  | cons c rest ih =>
    have hbegins : token.isPrefixOf (c :: (rest ++ y :: b)) = token.isPrefixOf (c :: rest) :=
      isPrefixOf_append_cons hy (c :: rest) b
    rw [List.cons_append, topOccurrencesFrom, topOccurrencesFrom, hbegins, ih]
    have hposition : i + (c :: rest).length + 1 = i + 1 + rest.length + 1 := by
      rw [List.length_cons]
      omega
    rw [hposition]
    by_cases h : s.isTop c && token.isPrefixOf (c :: rest)
    · rw [if_pos h, if_pos h]
      rfl
    · rw [if_neg h, if_neg h]
      rfl

/-- What does not occur in a text does not occur in its beginnings. -/
theorem topOccurrencesFrom_of_append {i : Nat}
    (h : topOccurrencesFrom token s i (a ++ b) = []) : topOccurrencesFrom token s i a = [] := by
  induction a generalizing s i with
  | nil => rfl
  | cons c rest ih =>
    rw [List.cons_append, topOccurrencesFrom] at h
    rw [topOccurrencesFrom]
    split at h
    · cases h
    · rename_i hnot
      rw [if_neg]
      · exact ih h
      · rw [Bool.and_eq_true, List.isPrefixOf_iff_prefix] at hnot ⊢
        exact fun hhere => hnot ⟨hhere.1, hhere.2.trans (List.prefix_append (c :: rest) b)⟩

/-- Nor does it occur once the white space at the ends is gone. -/
theorem topOccurrences_trim (h : topOccurrences token t = []) :
    topOccurrences token t.trim = [] := by
  have hstart : topOccurrences token t.trimStart = [] := by
    induction t with
    | nil => exact h
    | cons c rest ih =>
      by_cases hc : isBlank c
      · rw [Text.trimStart, List.dropWhile_cons_of_pos hc]
        refine ih ?_
        rw [topOccurrences, topOccurrencesFrom] at h
        split at h
        · cases h
        · rw [topOccurrencesFrom_of_isClosed
            (Nesting.isClosed_start.step (isPlain_of_isBlank hc)), List.map_eq_nil_iff] at h
          exact h
      · rw [Text.trimStart, List.dropWhile_cons_of_neg hc]
        exact h
  obtain ⟨u, hu⟩ := Text.isPrefix_trimEnd t.trimStart
  rw [← hu] at hstart
  exact topOccurrencesFrom_of_append hstart

/-- A token does not occur among characters other than its first. -/
theorem topOccurrencesFrom_append_of_notMem {x : Char} (hx : x ∉ a) (more : Text) (s : Nesting)
    (i : Nat) (b : Text) :
    topOccurrencesFrom (x :: more) s i (a ++ b) =
      topOccurrencesFrom (x :: more) (s.read a) (i + a.length) b := by
  induction a generalizing s i with
  | nil => rfl
  | cons c rest ih =>
    have hxc : (x == c) = false := beq_eq_false_iff_ne.mpr (List.ne_of_not_mem_cons hx)
    rw [List.cons_append, topOccurrencesFrom, List.isPrefixOf, hxc, Bool.false_and,
      Bool.and_false, ih (List.not_mem_of_not_mem_cons hx), List.length_cons,
      Nat.add_right_comm i 1, Nat.add_assoc i]
    rfl

/-- A single character occurs in each of two texts as it does alone. -/
theorem topOccurrencesFrom_append (x : Char) (s : Nesting) (i : Nat) (a b : Text) :
    topOccurrencesFrom [x] s i (a ++ b) =
      topOccurrencesFrom [x] s i a ++ topOccurrencesFrom [x] (s.read a) (i + a.length) b := by
  induction a generalizing s i with
  | nil => rfl
  | cons c rest ih =>
    have hhere : ∀ t : Text, [x].isPrefixOf (c :: t) = (x == c) := fun _ => Bool.and_true _
    rw [List.cons_append, topOccurrencesFrom, topOccurrencesFrom, hhere, hhere, ih,
      List.length_cons, Nat.add_right_comm i 1, Nat.add_assoc i]
    by_cases h : (s.isTop c && x == c) = true
    · rw [if_pos h, if_pos h]
      rfl
    · rw [if_neg h, if_neg h]
      rfl

theorem topOccurrences_append_eq_nil {x : Char} (hclosed : (Nesting.start.read a).IsClosed)
    (ha : topOccurrences [x] a = []) (hb : topOccurrences [x] b = []) :
    topOccurrences [x] (a ++ b) = [] := by
  have hbefore : topOccurrencesFrom [x] .start 0 a = [] := ha
  rw [topOccurrences, topOccurrencesFrom_append, hbefore, topOccurrencesFrom_eq_nil hclosed hb]
  rfl

/-- Nothing occurs at the top level where some bracket stays open. -/
theorem topOccurrencesFrom_append_of_staysOpen (h : s.StaysOpen a) (token : Text) (i : Nat)
    (b : Text) :
    topOccurrencesFrom token s i (a ++ b) =
      topOccurrencesFrom token (s.read a) (i + a.length) b := by
  induction a generalizing s i with
  | nil => rfl
  | cons c rest ih =>
    rw [List.cons_append, topOccurrencesFrom, h.isTop_eq_false, Bool.false_and, ih h.tail,
      List.length_cons, Nat.add_right_comm i 1, Nat.add_assoc i]
    rfl

/-- A text is broken at the first plain character that was looked for. -/
theorem breakTop?_append {x : Char} (ha : (Nesting.start.read a).IsClosed) (hx : isPlain x)
    (h : topOccurrences [x] a = []) (b : Text) : breakTop? [x] (a ++ x :: b) = some (a, b) := by
  have hhere : (Nesting.start.read a).isTop x && [x].isPrefixOf (x :: b) := by
    rw [ha.isTop hx, Bool.true_and, List.isPrefixOf_iff_prefix]
    exact ⟨b, rfl⟩
  have hfound : topOccurrences [x] (a ++ x :: b) = a.length ::
      topOccurrencesFrom [x] ((Nesting.start.read a).step x) (a.length + 1) b := by
    have hbefore : topOccurrencesFrom [x] .start 0 a = [] := h
    rw [topOccurrences, topOccurrencesFrom_append, hbefore, Nat.zero_add, topOccurrencesFrom,
      if_pos hhere]
    rfl
  rw [breakTop?, findTop?, hfound, List.find?_cons_of_pos (by simp), Option.map_some,
    List.take_left, List.length_singleton, List.drop_append]
  simp

theorem breakTop?_eq_none (h : topOccurrences token t = []) : breakTop? token t = none := by
  rw [breakTop?, findTop?, h]
  rfl

end Token

/-! ### Brackets around a text -/

/-- A text in round brackets. -/
def Text.wrap (t : Text) : Text :=
  '(' :: (t ++ [')'])

theorem Text.getLast?_append_wrap (a t : Text) : (a ++ t.wrap).getLast? = some ')' := by
  rw [wrap, ← List.cons_append, ← List.append_assoc, List.getLast?_concat]

theorem Text.trim_wrap (t : Text) : t.wrap.trim = t.wrap := by
  refine trim_eq_self ?_ ?_
  · intro c hc
    obtain rfl := Option.some.inj hc
    rfl
  · intro c hc
    obtain rfl := Option.some.inj ((getLast?_append_wrap [] t).symm.trans hc)
    rfl

section Wrapped

variable {s : Nesting} {t : Text}

/-- Behind an opening bracket, a balanced text leaves it open. -/
theorem Text.IsBalanced.staysOpen (h : t.IsBalanced) : (Nesting.start.step '(').StaysOpen t := by
  intro p hp
  have hdeep : Nesting.start.step '(' = Nesting.start.deepen 1 := rfl
  have hnonneg := h.depth_nonneg p hp
  rw [hdeep, Nesting.read_deepen]
  show 1 ≤ (Nesting.start.read p).depth + 1
  omega

theorem topOccurrencesFrom_wrap (h : t.IsBalanced) (hs : s.IsClosed) {x : Char}
    (hopen : x ≠ '(') (hclose : x ≠ ')') (more : Text) (i : Nat) :
    topOccurrencesFrom (x :: more) s i t.wrap = [] := by
  have hbracket : ∀ c ∈ ['(', ')'], ∀ rest : Text, (x :: more).isPrefixOf (c :: rest) = false := by
    intro c hc rest
    have hxc : (x == c) = false := by
      rw [beq_eq_false_iff_ne]
      rintro rfl
      simp [hopen, hclose] at hc
    rw [List.isPrefixOf, hxc, Bool.false_and]
  rw [Text.wrap, topOccurrencesFrom, hbracket '(' (by simp), Bool.and_false, hs.step_eq,
    topOccurrencesFrom_append_of_staysOpen h.staysOpen, topOccurrencesFrom, hbracket ')' (by simp),
    Bool.and_false]
  rfl

/-- Nothing occurs at the top level of a text in brackets. -/
theorem topOccurrences_wrap (h : t.IsBalanced) {x : Char} (hopen : x ≠ '(') (hclose : x ≠ ')')
    (more : Text) : topOccurrences (x :: more) t.wrap = [] :=
  topOccurrencesFrom_wrap h Nesting.isClosed_start hopen hclose more 0

theorem closesEarly_append_of_staysOpen (h : s.StaysOpen t) {b : Text} (hb : b ≠ []) :
    closesEarly s (t ++ b) = closesEarly (s.read t) b := by
  induction t generalizing s with
  | nil => rfl
  | cons c rest ih =>
    obtain ⟨d, more, hmore⟩ :=
      List.exists_cons_of_ne_nil (List.append_ne_nil_of_right_ne_nil rest hb)
    rw [List.cons_append, hmore, closesEarly, h.isTop_eq_false, Bool.and_false, Bool.false_or,
      ← hmore, ih h.tail]
    rfl

theorem unwrap?_eq_none {t : Text} (h : t.trim.head? ≠ some '(') : unwrap? t = none := by
  rw [unwrap?]
  split
  · rename_i rest htrim
    rw [htrim] at h
    exact absurd rfl h
  · rfl

/-- Brackets around a balanced text come off again. -/
theorem unwrap?_wrap (h : t.IsBalanced) : unwrap? t.wrap = some t := by
  have hearly : closesEarly .start t.wrap = false := by
    obtain ⟨d, more, hmore⟩ := List.exists_cons_of_ne_nil
      (List.append_ne_nil_of_right_ne_nil t (List.cons_ne_nil ')' []))
    have hrest := closesEarly_append_of_staysOpen h.staysOpen (List.cons_ne_nil ')' [])
    rw [hmore] at hrest
    rw [Text.wrap, hmore, closesEarly, hrest]
    rfl
  rw [unwrap?, Text.trim_wrap, Text.wrap]
  show (if (t ++ [')']).getLast? = some ')' && !closesEarly .start t.wrap then _ else _) = _
  rw [hearly, List.getLast?_concat, List.dropLast_concat]
  rfl

end Wrapped

/-! ### Balanced texts -/

namespace Text

/-- Characters that are no brackets and no quotation marks are balanced. -/
theorem isBalanced_of_isPlain {t : Text} (h : ∀ c ∈ t, isPlain c) : t.IsBalanced := by
  refine ⟨Nesting.isClosed_start.read h, fun p hp => ?_⟩
  have hclosed : (Nesting.start.read p).IsClosed :=
    Nesting.isClosed_start.read fun c hc => h c (hp.subset hc)
  exact Int.le_of_eq hclosed.depth_eq.symm

namespace IsBalanced

variable {a b t : Text}

theorem append (ha : a.IsBalanced) (hb : b.IsBalanced) : (a ++ b).IsBalanced := by
  constructor
  · rw [Nesting.read_append]
    exact ⟨(ha.isClosed.depth_read b).trans hb.isClosed.depth_eq,
      (ha.isClosed.quote_read b).trans hb.isClosed.quote_eq⟩
  · intro p hp
    rcases List.prefix_or_prefix_of_prefix hp (List.prefix_append a b) with hin | ⟨q, rfl⟩
    · exact ha.depth_nonneg p hin
    · rw [Nesting.read_append, ha.isClosed.depth_read]
      exact hb.depth_nonneg q ((List.prefix_append_right_inj a).mp hp)

theorem wrap (h : t.IsBalanced) : t.wrap.IsBalanced := by
  have hclosed : (Nesting.start.read t.wrap).IsClosed := by
    have hopen : Nesting.start.step '(' = Nesting.start.deepen 1 := rfl
    show (((Nesting.start.step '(').read (t ++ [')']))).IsClosed
    rw [hopen, Nesting.read_append, Nesting.read_deepen]
    obtain ⟨hdepth, hquote⟩ := h.isClosed
    show (((Nesting.start.read t).deepen 1).step ')').IsClosed
    rw [Nesting.step, Nesting.deepen, hquote, hdepth]
    exact ⟨rfl, rfl⟩
  refine ⟨hclosed, fun p hp => ?_⟩
  cases p with
  | nil => exact Int.le_refl 0
  | cons c q =>
    obtain ⟨rfl, hq⟩ := List.cons_prefix_cons.mp hp
    rcases List.prefix_concat_iff.mp hq with rfl | hq
    · exact Int.le_of_eq hclosed.depth_eq.symm
    · exact Int.le_trans (by decide) (h.staysOpen q hq)

end IsBalanced

end Text

/-- With white space around it, a mark breaks a text all the same. -/
theorem breakTop?_spaced {a : Text} {x : Char} (ha : a.IsBalanced) (hx : isPlain x) (hne : ' ' ≠ x)
    (h : topOccurrences [x] a = []) (b : Text) :
    breakTop? [x] (a ++ ' ' :: x :: ' ' :: b) = some (a ++ [' '], ' ' :: b) := by
  have hspace : Text.IsBalanced [' '] := Text.isBalanced_of_isPlain (by decide)
  have hnone : topOccurrences [x] [' '] = [] := by
    have hsep : [x].isPrefixOf [' '] = false := by
      rw [List.isPrefixOf, beq_eq_false_iff_ne.mpr (Ne.symm hne), Bool.false_and]
    rw [topOccurrences, topOccurrencesFrom, hsep, Bool.and_false]
    rfl
  have hshape : a ++ ' ' :: x :: ' ' :: b = (a ++ [' ']) ++ x :: ' ' :: b := by
    rw [List.append_assoc]
    rfl
  rw [hshape, breakTop?_append (ha.append hspace).isClosed hx]
  exact topOccurrences_append_eq_nil ha.isClosed h hnone

end EventScript
