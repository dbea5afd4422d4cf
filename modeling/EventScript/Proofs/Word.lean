/-
Words.

A word is a run of word characters.  None of them is white space, a bracket, a quotation mark
or any other mark of scripts, so a word ends where a mark comes:

* `isWord_eq_false_of_isBlank` — white space does not stand in words;
* `takeWhile_append_mark`, `dropWhile_append_mark` — how a word is cut off at a mark.
-/
import EventScript.Proofs.Splitting
import EventScript.Script.Selector
import EventScript.Text.Word

namespace EventScript

/-! ### Word characters -/

/-- All white-space characters by their numbers. -/
def blankPoints : List Nat :=
  [0x09, 0x0A, 0x0B, 0x0C, 0x0D, 0x1C, 0x1D, 0x1E, 0x1F, 0x20, 0x85, 0xA0, 0x1680, 0x2000, 0x2001,
    0x2002, 0x2003, 0x2004, 0x2005, 0x2006, 0x2007, 0x2008, 0x2009, 0x200A, 0x2028, 0x2029, 0x202F,
    0x205F, 0x3000]

theorem within_cons_cons {a b n : Nat} {rest : List Nat} :
    within (a :: b :: rest) n = true ↔ a ≤ n ∧ (n < b ∨ within rest n = true) := by
  rw [within, within, Bool.and_eq_true, decide_eq_true_eq, Bool.not_eq_true', Bool.and_eq_false_iff,
    decide_eq_false_iff_not, Nat.not_le, Bool.not_eq_false']

theorem toNat_mem_of_isBlank {c : Char} (h : isBlank c) : c.toNat ∈ blankPoints := by
  have hend : within [] c.toNat = false := rfl
  rw [isBlank] at h
  simp only [within_cons_cons, hend, Bool.false_eq_true, or_false] at h
  simp only [blankPoints, List.mem_cons, List.not_mem_nil, or_false]
  omega

/-- White space does not stand in words. -/
theorem isWord_eq_false_of_isBlank {c : Char} (h : isBlank c) : isWord c = false := by
  have hall : ∀ k ∈ blankPoints, within wordBoundaries k = false := by decide +kernel
  exact hall _ (toNat_mem_of_isBlank h)

theorem isBlank_eq_false_of_isWord {c : Char} (h : isWord c) : isBlank c = false := by
  rw [← Bool.not_eq_true]
  intro hblank
  rw [isWord_eq_false_of_isBlank hblank] at h
  cases h

theorem isPlain_of_isWord {c : Char} (h : isWord c) : isPlain c :=
  isPlain_of_notMem (notMem_of_all_not h (by decide))

/-- Selectors may have all word characters. -/
theorem isSelectorPart_of_isWord {c : Char} (h : isWord c) : isSelectorPart c := by
  have hstop : c ∉ selectorStops := notMem_of_all_not h (by decide)
  rw [isSelectorPart, isBlank_eq_false_of_isWord h, Bool.not_false, Bool.true_and,
    Bool.not_eq_true', ← Bool.not_eq_true, List.contains_iff_mem]
  exact hstop

/-! ### Words -/

/-- At least one word character, and no other. -/
structure Text.IsWord (t : Text) : Prop where
  ne_nil : t ≠ []
  all : ∀ c ∈ t, isWord c

instance (t : Text) : Decidable t.IsWord :=
  decidable_of_iff (t ≠ [] ∧ t.all isWord)
    ⟨fun h => ⟨h.1, List.all_eq_true.mp h.2⟩, fun h => ⟨h.1, List.all_eq_true.mpr h.2⟩⟩

namespace Text.IsWord

variable {t : Text}

theorem exists_cons (h : t.IsWord) : ∃ c rest, t = c :: rest ∧ isWord c := by
  obtain ⟨c, rest, rfl⟩ := List.exists_cons_of_ne_nil h.ne_nil
  exact ⟨c, rest, rfl, h.all c List.mem_cons_self⟩

theorem notMem (h : t.IsWord) {d : Char} (hd : isWord d = false) : d ∉ t := by
  intro hmem
  rw [h.all d hmem] at hd
  cases hd

/-- Words are trimmed. -/
theorem trim_eq (h : t.IsWord) : t.trim = t := by
  refine trim_eq_self ?_ ?_
  · intro c hc
    exact isBlank_eq_false_of_isWord (h.all c (List.mem_of_mem_head? hc))
  · intro c hc
    exact isBlank_eq_false_of_isWord (h.all c (List.mem_of_mem_getLast? hc))

end Text.IsWord

theorem forall_bne_of_notMem {mark : Char} {t : Text} (h : mark ∉ t) :
    ∀ c ∈ t, (c != mark) = true := by
  intro c hc
  rw [bne_iff_ne]
  rintro rfl
  exact h hc

/-- What is cut off from the front of a text ends at the first character that does not belong
to it. -/
theorem takeWhile_append_mark {p : Char → Bool} {t : Text} (h : ∀ c ∈ t, p c) {d : Char}
    (hd : p d = false) (rest : Text) : (t ++ d :: rest).takeWhile p = t := by
  rw [List.takeWhile_append_of_pos h,
    List.takeWhile_cons_of_neg (by rw [hd]; exact Bool.false_ne_true), List.append_nil]

theorem dropWhile_append_mark {p : Char → Bool} {t : Text} (h : ∀ c ∈ t, p c) {d : Char}
    (hd : p d = false) (rest : Text) : (t ++ d :: rest).dropWhile p = d :: rest := by
  rw [List.dropWhile_append_of_pos h,
    List.dropWhile_cons_of_neg (by rw [hd]; exact Bool.false_ne_true)]

end EventScript
