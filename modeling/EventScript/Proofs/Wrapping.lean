/-
Round brackets around a whole text.

Round brackets outside quotations match as usual: a closing one matches the last opening one that
is still open.  Taking the brackets off a text asks for less.  It looks for a round bracket before
the last character that closes down to the top level, and counts braces and round brackets
together for that; whether the first bracket is closed in the end is not looked at.

* `Nesting.depth_read` — the depth of a text counts its round brackets and its braces;
* `unwrap?_eq_some_iff` — when the brackets come off, in terms of these two counts;
* `mem_roundPairs_iff` — the first bracket matches the first one that closes it;
* `brackets_come_off_unless_closed_early` — where braces do not interfere, the brackets come off
  if the last character matches the first one, or nothing does.
-/
import EventScript.Proofs.Splitting
import Mathlib.Data.Nat.Find
import Mathlib.Order.Bounds.Basic

namespace EventScript

variable {s : Nesting} {t : Text} {i k m : Nat}

/-! ### Counting brackets -/

namespace Nesting

/-- What a character adds to the number of open brackets of a kind, if it stands outside
quotations. -/
def weight (opener closer : Char) (s : Nesting) (c : Char) : Int :=
  if s.quote ≠ none then 0 else if c = opener then 1 else if c = closer then -1 else 0

/-- By how many the opening brackets of a kind outnumber the closing ones, outside quotations. -/
def balance (opener closer : Char) : Nesting → Text → Int
  | _, [] => 0
  | s, c :: rest => weight opener closer s c + balance opener closer (s.step c) rest

/-- Round brackets that a text leaves open. -/
abbrev rounds (s : Nesting) (t : Text) : Int :=
  balance '(' ')' s t

/-- Braces that a text leaves open. -/
abbrev braces (s : Nesting) (t : Text) : Int :=
  balance '{' '}' s t

theorem depth_step (s : Nesting) (c : Char) :
    (s.step c).depth = s.depth + (weight '(' ')' s c + weight '{' '}' s c) := by
  obtain ⟨depth, quote, afterBackslash⟩ := s
  cases quote with
  | some q => simp [step, weight]
  | none =>
    by_cases hmark : c ∈ ['"', '\'', '(', '{', ')', '}']
    · simp only [List.mem_cons, List.not_mem_nil, or_false] at hmark
      rcases hmark with rfl | rfl | rfl | rfl | rfl | rfl <;> simp [step, weight] <;> rfl
    · -- any other character opens nothing and closes nothing
      have hplain : isPlain c := isPlain_of_notMem hmark
      rw [isPlain, Bool.and_eq_true, Bool.and_eq_true, Bool.not_eq_true', Bool.not_eq_true',
        Bool.not_eq_true'] at hplain
      obtain ⟨⟨hquote, hopen⟩, hclose⟩ := hplain
      simp only [List.mem_cons, List.not_mem_nil, or_false, not_or] at hmark
      simp [step, weight, hquote, hopen, hclose, hmark]

/-- The depth of a text counts its round brackets and its braces. -/
theorem depth_read (s : Nesting) (t : Text) :
    (s.read t).depth = s.depth + (s.rounds t + s.braces t) := by
  induction t generalizing s with
  | nil => exact (Int.add_zero _).symm
  | cons c rest ih =>
    show ((s.step c).read rest).depth = _
    rw [ih, depth_step, rounds, rounds, braces, braces, balance, balance]
    omega

end Nesting

/-! ### Matching brackets -/

/-- Goes on with `Text.roundPairs` from the middle of a text: `stack` holds the positions of the
brackets that are open, the last one first, and `i` is the position of the next character. -/
def roundPairsFrom : Nesting → List Nat → Nat → Text → List (Nat × Nat)
  | _, _, _, [] => []
  | s, stack, i, c :: rest =>
    if s.quote = none ∧ c = '(' then roundPairsFrom (s.step c) (i :: stack) (i + 1) rest
    else if s.quote = none ∧ c = ')' then
      match stack with
      | [] => roundPairsFrom (s.step c) [] (i + 1) rest
      | j :: stack => (j, i) :: roundPairsFrom (s.step c) stack (i + 1) rest
    else roundPairsFrom (s.step c) stack (i + 1) rest

/-- The round brackets outside quotations that match, as pairs of positions: a closing one matches
the last opening one that is still open, if there is any. -/
def Text.roundPairs (t : Text) : List (Nat × Nat) :=
  roundPairsFrom .start [] 0 t

/-- After `s` and with some round brackets open, a round bracket of the text closes the last one
of them. -/
structure Nesting.ClosesAt (s : Nesting) (level : Int) (t : Text) (k : Nat) : Prop where
  bracket : t[k]? = some ')'
  outside : (s.read (t.take k)).quote = none
  level_eq : level + s.rounds (t.take k) = 1

namespace Nesting.ClosesAt

variable {level : Int} {c : Char} {rest : Text}

theorem zero_iff : s.ClosesAt level (c :: rest) 0 ↔ (s.quote = none ∧ c = ')') ∧ level = 1 := by
  constructor
  · rintro ⟨hbracket, houtside, hlevel⟩
    exact ⟨⟨houtside, Option.some.inj hbracket⟩, (Int.add_zero level).symm.trans hlevel⟩
  · rintro ⟨⟨houtside, rfl⟩, hlevel⟩
    exact ⟨rfl, houtside, (Int.add_zero level).trans hlevel⟩

theorem succ_iff : s.ClosesAt level (c :: rest) (k + 1) ↔
    (s.step c).ClosesAt (level + weight '(' ')' s c) rest k := by
  have hlevel : level + s.rounds ((c :: rest).take (k + 1)) =
      level + weight '(' ')' s c + (s.step c).rounds (rest.take k) := by
    rw [List.take_succ_cons, rounds, balance, Int.add_assoc]
  exact ⟨fun h => ⟨h.bracket, h.outside, hlevel ▸ h.level_eq⟩,
    fun h => ⟨h.bracket, h.outside, hlevel.symm ▸ h.level_eq⟩⟩

theorem lt_length (h : s.ClosesAt level t k) : k < t.length :=
  (List.getElem?_eq_some_iff.mp h.bracket).1

/-- Before no bracket is open any more, the last one is closed. -/
theorem exists_of_nonpos (hlevel : 1 ≤ level) (h : level + s.rounds (t.take k) ≤ 0) :
    ∃ j < k, s.ClosesAt level t j := by
  induction t generalizing s level k with
  | nil =>
    rw [List.take_nil, rounds, balance] at h
    omega
  | cons c rest ih =>
    cases k with
    | zero =>
      rw [List.take_zero, rounds, balance] at h
      omega
    | succ k =>
      by_cases hhere : s.ClosesAt level (c :: rest) 0
      · exact ⟨0, k.succ_pos, hhere⟩
      · have hrest : 1 ≤ level + weight '(' ')' s c := by
          rw [zero_iff, not_and'] at hhere
          rw [weight]
          split
          · omega
          · rename_i hquote
            split
            · omega
            · split
              · rename_i hc
                have hmore : level ≠ 1 := fun hone => hhere hone ⟨not_not.mp hquote, hc⟩
                omega
              · omega
        rw [List.take_succ_cons, rounds, balance, ← Int.add_assoc] at h
        obtain ⟨j, hj, hcloses⟩ := ih hrest h
        exact ⟨j + 1, Nat.succ_lt_succ hj, succ_iff.mpr hcloses⟩

/-- If the first character does not close the last bracket, the first one to do so is found in the
rest of the text. -/
theorem isLeast_succ_iff (h : ¬s.ClosesAt level (c :: rest) 0) :
    IsLeast {k | s.ClosesAt level (c :: rest) k} m ↔
      ∃ k, m = k + 1 ∧
        IsLeast {k | (s.step c).ClosesAt (level + weight '(' ')' s c) rest k} k := by
  constructor
  · rintro ⟨hcloses, hleast⟩
    cases m with
    | zero => exact absurd hcloses h
    | succ k =>
      exact ⟨k, rfl, succ_iff.mp hcloses, fun j hj =>
        Nat.le_of_succ_le_succ (hleast (succ_iff.mpr hj))⟩
  · rintro ⟨k, rfl, hcloses, hleast⟩
    refine ⟨succ_iff.mpr hcloses, fun j hj => ?_⟩
    cases j with
    | zero => exact absurd hj h
    | succ j => exact Nat.succ_le_succ (hleast (succ_iff.mp hj))

end Nesting.ClosesAt

/-- A bracket that is not open is not closed any more. -/
theorem notMem_roundPairsFrom {stack : List Nat} (hstack : 0 ∉ stack) (hi : 0 < i) :
    (0, m) ∉ roundPairsFrom s stack i t := by
  induction t generalizing s stack i with
  | nil => exact List.not_mem_nil
  | cons c rest ih =>
    unfold roundPairsFrom
    split
    · exact ih (List.not_mem_cons_of_ne_of_not_mem hi.ne hstack) i.succ_pos
    · split
      · split
        · exact ih hstack i.succ_pos
        · rename_i j stack
          obtain ⟨hj, hstack⟩ := List.ne_and_not_mem_of_not_mem_cons hstack
          rw [List.mem_cons, Prod.mk.injEq, not_or]
          exact ⟨fun heq => hj heq.1, ih hstack i.succ_pos⟩
      · exact ih hstack i.succ_pos

/-- Below some other brackets, the first bracket of a text matches the first one that closes all
of them. -/
theorem mem_roundPairsFrom_iff {stack : List Nat} (hstack : 0 ∉ stack) (hi : 0 < i) :
    (0, m) ∈ roundPairsFrom s (stack ++ [0]) i t ↔
      ∃ k, m = i + k ∧ IsLeast {k | s.ClosesAt (stack.length + 1) t k} k := by
  induction t generalizing s stack i with
  | nil =>
    refine ⟨fun h => (List.not_mem_nil h).elim, fun ⟨k, _, hk⟩ => ?_⟩
    exact absurd hk.1.lt_length (Nat.not_lt_zero k)
  | cons c rest ih =>
    -- unless the first character closes the bracket, the rest of the text decides
    have hrest : ∀ {stack' : List Nat}, 0 ∉ stack' →
        (stack'.length : Int) = stack.length + Nesting.weight '(' ')' s c →
        ¬s.ClosesAt (stack.length + 1) (c :: rest) 0 →
        ((0, m) ∈ roundPairsFrom (s.step c) (stack' ++ [0]) (i + 1) rest ↔
          ∃ k, m = i + k ∧ IsLeast {k | s.ClosesAt (stack.length + 1) (c :: rest) k} k) := by
      intro stack' hstack' hlength hnot
      rw [ih hstack' i.succ_pos, hlength, Int.add_right_comm]
      simp only [Nesting.ClosesAt.isLeast_succ_iff hnot]
      constructor
      · rintro ⟨k, rfl, hk⟩
        exact ⟨k + 1, by omega, k, rfl, hk⟩
      · rintro ⟨_, rfl, k, rfl, hk⟩
        exact ⟨k, by omega, hk⟩
    unfold roundPairsFrom
    by_cases hopen : s.quote = none ∧ c = '('
    · rw [if_pos hopen]
      obtain ⟨hquote, rfl⟩ := hopen
      have hweight : Nesting.weight '(' ')' s '(' = 1 := by simp [Nesting.weight, hquote]
      refine hrest (List.not_mem_cons_of_ne_of_not_mem hi.ne hstack) ?_ ?_
      · rw [hweight, List.length_cons, Int.natCast_succ]
      · exact fun h => absurd (Nesting.ClosesAt.zero_iff.mp h).1.2 (by decide)
    · rw [if_neg hopen]
      by_cases hclose : s.quote = none ∧ c = ')'
      · rw [if_pos hclose]
        have hweight : Nesting.weight '(' ')' s c = -1 := by
          simp [Nesting.weight, hclose.1, hclose.2]
        cases stack with
        | nil =>
          -- the first bracket of the text is the last one that is open
          have hhere : s.ClosesAt (([] : List Nat).length + 1) (c :: rest) 0 :=
            Nesting.ClosesAt.zero_iff.mpr ⟨hclose, rfl⟩
          have hlater := notMem_roundPairsFrom (s := s.step c) (t := rest) (m := m)
            (List.not_mem_nil (a := 0)) i.succ_pos
          show (0, m) ∈ (0, i) :: roundPairsFrom (s.step c) [] (i + 1) rest ↔ _
          rw [List.mem_cons, or_iff_left hlater, Prod.mk.injEq]
          constructor
          · rintro ⟨-, rfl⟩
            exact ⟨0, rfl, hhere, fun j _ => Nat.zero_le j⟩
          · rintro ⟨k, rfl, hk⟩
            obtain rfl : k = 0 := Nat.le_zero.mp (hk.2 hhere)
            exact ⟨rfl, rfl⟩
        | cons j stack =>
          obtain ⟨hj, hstack⟩ := List.ne_and_not_mem_of_not_mem_cons hstack
          have hother : (0, m) ≠ (j, i) := fun heq => hj (Prod.mk.inj heq).1
          show (0, m) ∈ (j, i) :: roundPairsFrom (s.step c) (stack ++ [0]) (i + 1) rest ↔ _
          rw [List.mem_cons, or_iff_right hother]
          refine hrest hstack ?_ fun h => ?_
          · rw [hweight, List.length_cons]
            omega
          · have hlevel := (Nesting.ClosesAt.zero_iff.mp h).2
            rw [List.length_cons] at hlevel
            omega
      · rw [if_neg hclose]
        have hweight : Nesting.weight '(' ')' s c = 0 := by
          rw [Nesting.weight]
          split
          · rfl
          · rename_i hquote
            rw [not_not] at hquote
            rw [if_neg fun hc => hopen ⟨hquote, hc⟩, if_neg fun hc => hclose ⟨hquote, hc⟩]
        refine hrest hstack ?_ fun h => hclose (Nesting.ClosesAt.zero_iff.mp h).1
        rw [hweight, Int.add_zero]

/-- A bracket at the front of a text matches the first bracket that closes it. -/
theorem mem_roundPairs_iff :
    (0, m) ∈ Text.roundPairs ('(' :: t) ↔
      IsLeast {k | Nesting.start.ClosesAt 0 ('(' :: t) k} m := by
  have hfirst : ¬Nesting.start.ClosesAt 0 ('(' :: t) 0 := fun h =>
    absurd (Nesting.ClosesAt.zero_iff.mp h).1.2 (by decide)
  rw [Nesting.ClosesAt.isLeast_succ_iff hfirst]
  have hpairs := mem_roundPairsFrom_iff (s := Nesting.start.step '(') (t := t) (m := m)
    (List.not_mem_nil (a := 0)) Nat.one_pos
  simp only [Nat.add_comm 1] at hpairs
  exact hpairs

/-! ### Taking brackets off -/

/-- After `s`, a round bracket of the text closes down to the top level, braces included. -/
structure Nesting.ClosesDownAt (s : Nesting) (t : Text) (k : Nat) : Prop where
  bracket : t[k]? = some ')'
  outside : (s.read (t.take k)).quote = none
  level_eq : s.depth + (s.rounds (t.take k) + s.braces (t.take k)) = 1

theorem Nesting.closesDownAt_zero_iff {c : Char} {rest : Text} :
    s.ClosesDownAt (c :: rest) 0 ↔ (c == ')' && s.isTop c) = true := by
  rw [Bool.and_eq_true, beq_iff_eq]
  constructor
  · rintro ⟨hbracket, houtside, hlevel⟩
    obtain rfl := Option.some.inj hbracket
    have hquote : s.quote = none := houtside
    have hdepth : s.depth - 1 = 0 := by
      have hlevel : s.depth + (0 + 0) = 1 := hlevel
      omega
    refine ⟨rfl, ?_⟩
    rw [isTop, hquote, hdepth]
    rfl
  · rintro ⟨rfl, htop⟩
    rw [isTop, Bool.and_eq_true, Bool.and_eq_true, Option.isNone_iff_eq_none] at htop
    have hdepth : s.depth - 1 = 0 := eq_of_beq htop.2
    refine ⟨rfl, htop.1.1, ?_⟩
    show s.depth + (0 + 0) = 1
    omega

theorem Nesting.closesDownAt_succ_iff {c : Char} {rest : Text} :
    s.ClosesDownAt (c :: rest) (k + 1) ↔ (s.step c).ClosesDownAt rest k := by
  have hlevel : s.depth + (s.rounds ((c :: rest).take (k + 1)) +
      s.braces ((c :: rest).take (k + 1))) =
      (s.step c).depth + ((s.step c).rounds (rest.take k) + (s.step c).braces (rest.take k)) := by
    rw [← depth_read, ← depth_read]
    rfl
  exact ⟨fun h => ⟨h.bracket, h.outside, hlevel ▸ h.level_eq⟩,
    fun h => ⟨h.bracket, h.outside, hlevel.symm ▸ h.level_eq⟩⟩

/-- Closing early is closing down to the top level before the last character. -/
theorem closesEarly_iff :
    closesEarly s t = true ↔ ∃ k, k + 1 < t.length ∧ s.ClosesDownAt t k := by
  induction t generalizing s with
  | nil => simp [closesEarly]
  | cons c rest ih =>
    cases rest with
    | nil => simp [closesEarly]
    | cons d rest =>
      rw [closesEarly, Bool.or_eq_true, ih, ← Nesting.closesDownAt_zero_iff]
      constructor
      · rintro (hhere | ⟨k, hk, hcloses⟩)
        · exact ⟨0, by simp, hhere⟩
        · exact ⟨k + 1, Nat.succ_lt_succ hk, Nesting.closesDownAt_succ_iff.mpr hcloses⟩
      · rintro ⟨_ | k, hk, hcloses⟩
        · exact .inl hcloses
        · exact .inr ⟨k, Nat.lt_of_succ_lt_succ hk, Nesting.closesDownAt_succ_iff.mp hcloses⟩

/-- The brackets come off a text that begins with one and ends with one, unless a round bracket
before the last character closes down to the top level. -/
theorem unwrap?_eq_some_iff {inside : Text} :
    unwrap? t = some inside ↔ t.trim = inside.wrap ∧
      ∀ k < inside.length + 1, ¬Nesting.start.ClosesDownAt t.trim k := by
  have hearly : closesEarly .start inside.wrap = false ↔
      ∀ k < inside.length + 1, ¬Nesting.start.ClosesDownAt inside.wrap k := by
    have hlength : inside.wrap.length = inside.length + 2 := by simp [Text.wrap]
    rw [← Bool.not_eq_true, closesEarly_iff, hlength]
    simp only [not_exists, not_and, Nat.succ_lt_succ_iff]
  constructor
  · intro h
    rw [unwrap?] at h
    split at h
    · rename_i rest htrim
      split at h
      · rename_i hcloses
        rw [Bool.and_eq_true, decide_eq_true_eq, Bool.not_eq_true'] at hcloses
        obtain ⟨front, rfl⟩ := List.getLast?_eq_some_iff.mp hcloses.1
        obtain rfl : front = inside := by
          rw [List.dropLast_concat] at h
          exact Option.some.inj h
        rw [htrim]
        exact ⟨rfl, hearly.mp hcloses.2⟩
      · cases h
    · cases h
  · rintro ⟨htrim, hnot⟩
    rw [htrim] at hnot
    rw [unwrap?, htrim, Text.wrap]
    show (if (inside ++ [')']).getLast? = some ')' && !closesEarly .start inside.wrap
      then _ else _) = _
    rw [hearly.mpr hnot, List.getLast?_concat, List.dropLast_concat]
    rfl

open scoped Classical in
/-- If a bracket at the front of a text is closed, it matches that character or one before it. -/
theorem exists_mem_roundPairs (h : Nesting.start.ClosesAt 0 ('(' :: t) k) :
    ∃ j ≤ k, (0, j) ∈ Text.roundPairs ('(' :: t) := by
  have hexists : ∃ k, Nesting.start.ClosesAt 0 ('(' :: t) k := ⟨k, h⟩
  exact ⟨Nat.find hexists, Nat.find_min' hexists h,
    mem_roundPairs_iff.mpr ⟨Nat.find_spec hexists, fun j hj => Nat.find_min' hexists hj⟩⟩

/-- Before the last character of a text, braces and the first round bracket do not cross: no round
bracket closes where more braces have been closed than opened, and what the first one matches is
neither inside braces nor behind too many of them. -/
structure Text.KeepsBracesApart (t : Text) : Prop where
  nonneg : ∀ k < t.length - 1, t[k]? = some ')' → (Nesting.start.read (t.take k)).quote = none →
    0 ≤ Nesting.start.braces (t.take k)
  matched : ∀ k < t.length - 1, (0, k) ∈ t.roundPairs → Nesting.start.braces (t.take k) = 0

instance (t : Text) : Decidable t.KeepsBracesApart :=
  decidable_of_iff (_ ∧ _) ⟨fun h => ⟨h.1, h.2⟩, fun h => ⟨h.nonneg, h.matched⟩⟩

/-- Where braces do not interfere, a round bracket closes down to the top level before the last
character if the first bracket matches one there. -/
theorem Text.KeepsBracesApart.exists_iff (h : Text.KeepsBracesApart ('(' :: t)) :
    (∃ k < t.length, Nesting.start.ClosesDownAt ('(' :: t) k) ↔
      ∃ k < t.length, (0, k) ∈ Text.roundPairs ('(' :: t) := by
  constructor
  · rintro ⟨k, hk, hbracket, houtside, hlevel⟩
    have hnonneg := h.nonneg k hk hbracket houtside
    have hdepth : Nesting.start.rounds (('(' :: t).take k) +
        Nesting.start.braces (('(' :: t).take k) = 1 := (Int.zero_add _).symm.trans hlevel
    have hcloses : ∃ j ≤ k, Nesting.start.ClosesAt 0 ('(' :: t) j := by
      by_cases hone : Nesting.start.rounds (('(' :: t).take k) = 1
      · exact ⟨k, le_refl k, hbracket, houtside, (Int.zero_add _).trans hone⟩
      · -- the round brackets have all been closed before
        cases k with
        | zero => cases hbracket
        | succ k =>
          have hrounds : Nesting.start.rounds (('(' :: t).take (k + 1)) =
              1 + (Nesting.start.step '(').rounds (t.take k) := rfl
          obtain ⟨j, hj, hcloses⟩ := Nesting.ClosesAt.exists_of_nonpos (Int.le_refl 1)
            (s := Nesting.start.step '(') (t := t) (k := k) (by omega)
          exact ⟨j + 1, by omega, Nesting.ClosesAt.succ_iff.mpr hcloses⟩
    obtain ⟨j, hj, hcloses⟩ := hcloses
    obtain ⟨i, hi, hmem⟩ := exists_mem_roundPairs hcloses
    exact ⟨i, by omega, hmem⟩
  · rintro ⟨k, hk, hmem⟩
    obtain ⟨hbracket, houtside, hlevel⟩ := (mem_roundPairs_iff.mp hmem).1
    refine ⟨k, hk, hbracket, houtside, ?_⟩
    rw [h.matched k hk hmem, Int.add_zero]
    exact hlevel

/-- Where braces do not interfere, the brackets come off a text that begins with one and ends with
one, unless the first one matches a character before the last. -/
theorem Text.KeepsBracesApart.unwrap?_eq_some_iff {inside : Text} (h : t.trim.KeepsBracesApart) :
    unwrap? t = some inside ↔ t.trim = inside.wrap ∧
      ¬∃ k < inside.length + 1, (0, k) ∈ t.trim.roundPairs := by
  rw [EventScript.unwrap?_eq_some_iff, and_congr_right_iff]
  intro htrim
  rw [htrim, Text.wrap] at h ⊢
  have hlength : inside.length + 1 = (inside ++ [')']).length := by simp
  rw [hlength, ← h.exists_iff]
  simp only [not_exists, not_and]

/-- When the brackets come off a text. They do if it begins with a round bracket and ends with
one, and no round bracket before the last character closes down to the top level, where braces
count like round brackets. So where braces do not interfere, the brackets come off exactly if the
first one matches the last character, provided that it matches anything; and if it is never
closed, a round bracket at the end, in a quotation or not, comes off with it all the same. -/
theorem brackets_come_off_unless_closed_early (t : Text) :
    (∀ inside, unwrap? t = some inside ↔ t.trim = inside.wrap ∧
      ∀ k < inside.length + 1, ¬Nesting.start.ClosesDownAt t.trim k) ∧
    (t.trim.KeepsBracesApart → (∃ k, (0, k) ∈ t.trim.roundPairs) →
      ∀ inside, unwrap? t = some inside ↔
        t.trim = inside.wrap ∧ (0, inside.length + 1) ∈ t.trim.roundPairs) ∧
    (t.trim.KeepsBracesApart → (∀ k, (0, k) ∉ t.trim.roundPairs) →
      ∀ inside, unwrap? t = some inside ↔ t.trim = inside.wrap) := by
  refine ⟨fun inside => unwrap?_eq_some_iff, fun hapart ⟨k, hk⟩ inside => ?_,
    fun hapart hnever inside => ?_⟩
  · rw [hapart.unwrap?_eq_some_iff, and_congr_right_iff]
    intro htrim
    rw [htrim, Text.wrap] at hk ⊢
    have hfirst := mem_roundPairs_iff.mp hk
    have hlt := hfirst.1.lt_length
    rw [List.length_cons, List.length_append, List.length_singleton] at hlt
    constructor
    · intro hnot
      have hlate : ¬k < inside.length + 1 := fun hearly => hnot ⟨k, hearly, hk⟩
      obtain rfl : k = inside.length + 1 := by omega
      exact hk
    · rintro hlast ⟨j, hj, hmem⟩
      have hsame := (mem_roundPairs_iff.mp hmem).unique (mem_roundPairs_iff.mp hlast)
      omega
  · rw [hapart.unwrap?_eq_some_iff, and_iff_left]
    rintro ⟨k, -, hk⟩
    exact hnever k hk

/-- A bracket in a quotation and one in braces do not match the first one. And of two opening
brackets the first one comes off, although it is never closed. -/
theorem second_bracket_is_closed_for_the_first :
    ((Text.trim " (\"a)\" {(b)} c) ".toList).KeepsBracesApart ∧
      (0, 13) ∈ (Text.trim " (\"a)\" {(b)} c) ".toList).roundPairs ∧
      unwrap? " (\"a)\" {(b)} c) ".toList = some "\"a)\" {(b)} c".toList) ∧
    ((Text.trim "((a)".toList).KeepsBracesApart ∧
      (Text.trim "((a)".toList).roundPairs = [(1, 3)] ∧
      unwrap? "((a)".toList = some "(a".toList) := by
  have hapart : (Text.trim " (\"a)\" {(b)} c) ".toList).KeepsBracesApart := by decide
  have hmatched : (0, 13) ∈ (Text.trim " (\"a)\" {(b)} c) ".toList).roundPairs := by decide
  have hapart' : (Text.trim "((a)".toList).KeepsBracesApart := by decide
  have hpairs : (Text.trim "((a)".toList).roundPairs = [(1, 3)] := by decide
  refine ⟨⟨hapart, hmatched, ?_⟩, hapart', hpairs, ?_⟩
  · exact ((brackets_come_off_unless_closed_early _).2.1 hapart ⟨13, hmatched⟩ _).mpr
      ⟨by decide, hmatched⟩
  · refine ((brackets_come_off_unless_closed_early _).2.2 hapart' (fun k => ?_) _).mpr (by decide)
    rw [hpairs]
    simp

end EventScript
