/-
Cutting a text into parts and searching in it.

A separator that has no brackets and no quotation marks stands at the top level of a text where
nothing is open before it.  Cutting takes the first such place, goes on behind the separator, and
finds the same places there, since nothing is open there either; that the text is malformed, or
that separators overlap, makes no difference.

* `mem_topOccurrences_iff`, `findTop?_eq_some`, `isGreatest_of_findLastTop?` — what searching
  finds, in terms of places where nothing is open;
* `splitTop_of_occursAt` — a text is cut at the first of these places;
* `parts_and_places_agree` — nothing is lost in cutting, nothing is left to cut, and searching
  finds the first and the last place.
-/
import EventScript.Proofs.Splitting
import Mathlib.Data.Nat.Find
import Mathlib.Order.Bounds.Defs

namespace EventScript

variable {token : Text} {s : Nesting} {t : Text} {i j : Nat}

/-! ### Places -/

/-- After `s`, the token stands at a place of the text where nothing is open. -/
structure Nesting.Finds (s : Nesting) (token t : Text) (i : Nat) : Prop where
  isClosed : (s.read (t.take i)).IsClosed
  isPrefix : token <+: t.drop i

/-- The token stands at a place of the text where nothing is open. -/
abbrev Text.OccursAt (token t : Text) (i : Nat) : Prop :=
  Nesting.start.Finds token t i

namespace Nesting

namespace Finds

/-- At the first character of a text. -/
theorem zero_iff {c : Char} {rest : Text} (hne : token ≠ []) (hplain : ∀ c ∈ token, isPlain c) :
    s.Finds token (c :: rest) 0 ↔ (s.isTop c && token.isPrefixOf (c :: rest)) = true := by
  rw [Bool.and_eq_true, List.isPrefixOf_iff_prefix]
  constructor
  · rintro ⟨hclosed, hbegins⟩
    obtain ⟨x, more, rfl⟩ := List.exists_cons_of_ne_nil hne
    obtain rfl := (List.cons_prefix_cons.mp hbegins).1
    exact ⟨IsClosed.isTop hclosed (hplain x List.mem_cons_self), hbegins⟩
  · rintro ⟨htop, hbegins⟩
    obtain ⟨x, more, rfl⟩ := List.exists_cons_of_ne_nil hne
    obtain rfl := (List.cons_prefix_cons.mp hbegins).1
    exact ⟨isClosed_of_isTop htop (hplain x List.mem_cons_self), hbegins⟩

/-- Behind the first character of a text. -/
theorem succ_iff {c : Char} {rest : Text} :
    s.Finds token (c :: rest) (i + 1) ↔ (s.step c).Finds token rest i :=
  ⟨fun h => ⟨h.isClosed, h.isPrefix⟩, fun h => ⟨h.isClosed, h.isPrefix⟩⟩

theorem add_length_le (h : s.Finds token t i) (hne : token ≠ []) :
    i + token.length ≤ t.length := by
  have hle := h.isPrefix.length_le
  have hpos := List.length_pos_iff.mpr hne
  rw [List.length_drop] at hle
  omega

/-- What stands in the beginning of a text stands in the text. -/
theorem of_take {k : Nat} (h : s.Finds token (t.take k) i) (hne : token ≠ []) :
    s.Finds token t i ∧ i < k := by
  have hle := h.add_length_le hne
  have hpos := List.length_pos_iff.mpr hne
  rw [List.length_take] at hle
  have hik : i < k := by omega
  refine ⟨⟨?_, ?_⟩, hik⟩
  · have hclosed := h.isClosed
    rwa [List.take_take, Nat.min_eq_left hik.le] at hclosed
  · have hbegins := h.isPrefix
    rw [List.drop_take] at hbegins
    exact hbegins.trans (List.take_prefix _ _)

end Finds

end Nesting

/-! ### Searching -/

theorem mem_topOccurrencesFrom_iff (hne : token ≠ []) (hplain : ∀ c ∈ token, isPlain c)
    {k : Nat} : k ∈ topOccurrencesFrom token s i t ↔ ∃ j, k = i + j ∧ s.Finds token t j := by
  induction t generalizing s i with
  | nil =>
    refine ⟨fun h => (List.not_mem_nil h).elim, fun ⟨j, _, hfinds⟩ => ?_⟩
    have hle := hfinds.add_length_le hne
    have hpos := List.length_pos_iff.mpr hne
    rw [List.length_nil] at hle
    omega
  | cons c rest ih =>
    have hlater : k ∈ topOccurrencesFrom token (s.step c) (i + 1) rest ↔
        ∃ j, k = i + (j + 1) ∧ s.Finds token (c :: rest) (j + 1) := by
      rw [ih]
      refine exists_congr fun j => ?_
      rw [Nesting.Finds.succ_iff, Nat.add_right_comm, Nat.add_assoc]
    rw [topOccurrencesFrom]
    by_cases h : s.isTop c && token.isPrefixOf (c :: rest)
    · rw [if_pos h, List.mem_cons, hlater]
      constructor
      · rintro (rfl | ⟨j, hk, hfinds⟩)
        · exact ⟨0, rfl, (Nesting.Finds.zero_iff hne hplain).mpr h⟩
        · exact ⟨j + 1, hk, hfinds⟩
      · rintro ⟨_ | j, hk, hfinds⟩
        · exact .inl hk
        · exact .inr ⟨j, hk, hfinds⟩
    · rw [if_neg h, hlater]
      constructor
      · rintro ⟨j, hk, hfinds⟩
        exact ⟨j + 1, hk, hfinds⟩
      · rintro ⟨_ | j, hk, hfinds⟩
        · exact absurd ((Nesting.Finds.zero_iff hne hplain).mp hfinds) h
        · exact ⟨j, hk, hfinds⟩

/-- Searching finds the places where the token stands and nothing is open. -/
theorem mem_topOccurrences_iff (hne : token ≠ []) (hplain : ∀ c ∈ token, isPlain c) :
    i ∈ topOccurrences token t ↔ token.OccursAt t i := by
  rw [topOccurrences, mem_topOccurrencesFrom_iff hne hplain]
  simp only [Nat.zero_add, exists_eq_left']

/-- It finds them from the left to the right. -/
theorem pairwise_topOccurrencesFrom (token : Text) (s : Nesting) (i : Nat) (t : Text) :
    (topOccurrencesFrom token s i t).Pairwise (· < ·) := by
  induction t generalizing s i with
  | nil => exact .nil
  | cons c rest ih =>
    have hlater : ∀ k ∈ topOccurrencesFrom token (s.step c) (i + 1) rest, i < k := by
      intro k hk
      rw [← Nat.zero_add (i + 1), topOccurrencesFrom_add] at hk
      obtain ⟨j, -, rfl⟩ := List.mem_map.mp hk
      omega
    rw [topOccurrencesFrom]
    split
    · exact .cons hlater (ih _ _)
    · exact ih _ _

theorem findTop?_eq_none_iff (hne : token ≠ []) (hplain : ∀ c ∈ token, isPlain c) :
    findTop? token t 0 = none ↔ ∀ i, ¬token.OccursAt t i := by
  rw [findTop?, List.find?_eq_none]
  simp only [mem_topOccurrences_iff hne hplain, Nat.zero_le, decide_true, not_true_eq_false]

theorem findLastTop?_eq_none_iff (hne : token ≠ []) (hplain : ∀ c ∈ token, isPlain c) :
    findLastTop? token t = none ↔ ∀ i, ¬token.OccursAt t i := by
  rw [findLastTop?, List.getLast?_eq_none_iff, List.eq_nil_iff_forall_not_mem]
  simp only [mem_topOccurrences_iff hne hplain]

/-- The first place is found. -/
theorem findTop?_eq_some (hne : token ≠ []) (hplain : ∀ c ∈ token, isPlain c)
    (h : IsLeast {i | token.OccursAt t i} i) : findTop? token t 0 = some i := by
  have hmem := (mem_topOccurrences_iff hne hplain).mpr h.1
  cases hfound : topOccurrences token t with
  | nil =>
    rw [hfound] at hmem
    cases hmem
  | cons k more =>
    have hk : token.OccursAt t k :=
      (mem_topOccurrences_iff hne hplain).mp (hfound ▸ List.mem_cons_self)
    have hsorted := pairwise_topOccurrencesFrom token .start 0 t
    rw [← topOccurrences, hfound, List.pairwise_cons] at hsorted
    rw [findTop?, hfound, List.find?_cons_of_pos (by simp)]
    rw [hfound] at hmem
    rcases List.mem_cons.mp hmem with rfl | hmore
    · rfl
    · exact absurd (hsorted.1 i hmore) (Nat.not_lt.mpr (h.2 hk))

/-- The last place is found. -/
theorem isGreatest_of_findLastTop? (hne : token ≠ []) (hplain : ∀ c ∈ token, isPlain c)
    (h : findLastTop? token t = some i) : IsGreatest {i | token.OccursAt t i} i := by
  obtain ⟨before, hfound⟩ := List.getLast?_eq_some_iff.mp h
  have hsorted := pairwise_topOccurrencesFrom token .start 0 t
  rw [← topOccurrences, hfound, List.pairwise_append] at hsorted
  refine ⟨(mem_topOccurrences_iff hne hplain).mp (hfound ▸ List.mem_concat_self), fun j hj => ?_⟩
  have hmem := (mem_topOccurrences_iff hne hplain).mpr hj
  rw [hfound, List.mem_append, List.mem_singleton] at hmem
  rcases hmem with hbefore | rfl
  · exact (hsorted.2.2 j hbefore i (List.mem_singleton_self i)).le
  · exact le_refl j

/-! ### Cutting -/

/-- A text is cut at the first place where the separator stands and nothing is open, and what
comes behind the separator is cut as if it stood alone. -/
theorem splitTopFrom_of_finds (hne : token ≠ []) (hplain : ∀ c ∈ token, isPlain c)
    (h : s.Finds token t i) (hfirst : ∀ j < i, ¬s.Finds token t j) :
    splitTopFrom token s 0 t = t.take i :: splitTop token (t.drop (i + token.length)) := by
  induction i generalizing s t with
  | zero =>
    obtain ⟨b, rfl⟩ : token <+: t := h.isPrefix
    have hclosed : s.IsClosed := h.isClosed
    obtain ⟨x, more, rfl⟩ := List.exists_cons_of_ne_nil hne
    obtain ⟨hx, hmore⟩ := List.forall_mem_cons.mp hplain
    have hhere : s.isTop x && (x :: more).isPrefixOf (x :: (more ++ b)) :=
      (Nesting.Finds.zero_iff hne hplain).mp h
    rw [Nat.zero_add, List.drop_left]
    show splitTopFrom (x :: more) s 0 (x :: (more ++ b)) = [] :: splitTop (x :: more) b
    rw [splitTopFrom_of_occurrence hhere, splitTopFrom_skip,
      splitTopFrom_of_isClosed ((hclosed.step hx).read hmore)]
    rfl
  | succ i ih =>
    cases t with
    | nil =>
      have hle := h.add_length_le hne
      rw [List.length_nil] at hle
      omega
    | cons c rest =>
      have hnot : ¬(s.isTop c && token.isPrefixOf (c :: rest)) := fun hhere =>
        hfirst 0 i.succ_pos ((Nesting.Finds.zero_iff hne hplain).mpr hhere)
      have hrest : ∀ j < i, ¬(s.step c).Finds token rest j := fun j hj hfinds =>
        hfirst (j + 1) (Nat.succ_lt_succ hj) (Nesting.Finds.succ_iff.mpr hfinds)
      rw [splitTopFrom_of_not hnot, ih (Nesting.Finds.succ_iff.mp h) hrest, Nat.add_right_comm]
      rfl

theorem splitTop_of_occursAt (hne : token ≠ []) (hplain : ∀ c ∈ token, isPlain c)
    (h : IsLeast {i | token.OccursAt t i} i) :
    splitTop token t = t.take i :: splitTop token (t.drop (i + token.length)) :=
  splitTopFrom_of_finds hne hplain h.1 fun _ hj hfinds => absurd (h.2 hfinds) (Nat.not_le.mpr hj)

theorem splitTop_of_not_occursAt (hne : token ≠ []) (hplain : ∀ c ∈ token, isPlain c)
    (h : ∀ i, ¬token.OccursAt t i) : splitTop token t = [t] := by
  refine splitTop_of_topOccurrences_eq_nil (List.eq_nil_iff_forall_not_mem.mpr fun i hi => ?_)
  exact h i ((mem_topOccurrences_iff hne hplain).mp hi)

open scoped Classical in
/-- Either there is no place for a cut, or there is a first one. -/
theorem occursAt_cases (token t : Text) :
    (∀ i, ¬token.OccursAt t i) ∨ ∃ i, IsLeast {i | token.OccursAt t i} i := by
  by_cases h : ∃ i, token.OccursAt t i
  · exact .inr ⟨Nat.find h, Nat.find_spec h, fun j hj => Nat.find_min' h hj⟩
  · exact .inl (not_exists.mp h)

/-- The separators put back between the parts give the text. -/
theorem joinWith_splitTop (hne : token ≠ []) (hplain : ∀ c ∈ token, isPlain c) (t : Text) :
    Text.joinWith token (splitTop token t) = t := by
  induction hlen : t.length using Nat.strong_induction_on generalizing t with
  | _ m ih =>
    rcases occursAt_cases token t with hnone | ⟨i, hi⟩
    · rw [splitTop_of_not_occursAt hne hplain hnone]
      exact List.intercalate_singleton
    · have hle := hi.1.add_length_le hne
      have hpos := List.length_pos_iff.mpr hne
      obtain ⟨q, qs, hq⟩ := List.exists_cons_of_ne_nil
        (splitTopFrom_ne_nil token .start 0 (t.drop (i + token.length)))
      have hrest := ih _ (by rw [List.length_drop]; omega) (t.drop (i + token.length)) rfl
      obtain ⟨b, hb⟩ := hi.1.isPrefix
      rw [splitTop, hq] at hrest
      rw [splitTop_of_occursAt hne hplain hi, splitTop, hq, Text.joinWith,
        List.intercalate_cons_cons, ← Text.joinWith, hrest, ← List.drop_drop, ← hb,
        List.drop_left, List.append_assoc, hb, List.take_append_drop]

/-- No part can be cut again. -/
theorem not_occursAt_of_mem_splitTop (hne : token ≠ []) (hplain : ∀ c ∈ token, isPlain c)
    {t p : Text} (hp : p ∈ splitTop token t) : ∀ i, ¬token.OccursAt p i := by
  induction hlen : t.length using Nat.strong_induction_on generalizing t with
  | _ m ih =>
    rcases occursAt_cases token t with hnone | ⟨i, hi⟩
    · rw [splitTop_of_not_occursAt hne hplain hnone, List.mem_singleton] at hp
      exact hp ▸ hnone
    · have hle := hi.1.add_length_le hne
      have hpos := List.length_pos_iff.mpr hne
      rw [splitTop_of_occursAt hne hplain hi, List.mem_cons] at hp
      rcases hp with rfl | hp
      · -- a place in the first part would be a place in the text, before the first one
        intro j hj
        obtain ⟨hfinds, hji⟩ := hj.of_take hne
        exact absurd (hi.2 hfinds) (Nat.not_le.mpr hji)
      · exact ih _ (by rw [List.length_drop]; omega) hp rfl

/-- Cutting and searching agree on every text, well-formed or not, and every separator without
brackets and quotation marks. Put together again, the parts give the text. No part has a place
where the separator stands and nothing is open, and searching finds none there. There is one part
if searching finds nothing, from either end; otherwise the first place found is the length of the
first part, and the last one found is the greatest of all. -/
theorem parts_and_places_agree (separator t : Text) (hne : separator ≠ [])
    (hplain : ∀ c ∈ separator, isPlain c) :
    Text.joinWith separator (splitTop separator t) = t ∧
    (∀ p ∈ splitTop separator t,
      (∀ i, ¬separator.OccursAt p i) ∧ findTop? separator p 0 = none) ∧
    ((splitTop separator t).length = 1 ↔ findTop? separator t 0 = none) ∧
    ((splitTop separator t).length = 1 ↔ findLastTop? separator t = none) ∧
    ((splitTop separator t).length ≠ 1 → ∃ p ps last,
      splitTop separator t = p :: ps ∧ findTop? separator t 0 = some p.length ∧
      findLastTop? separator t = some last ∧ IsGreatest {i | separator.OccursAt t i} last) := by
  have hparts : ∀ p ∈ splitTop separator t, ∀ i, ¬separator.OccursAt p i :=
    fun p hp => not_occursAt_of_mem_splitTop hne hplain hp
  refine ⟨joinWith_splitTop hne hplain t, fun p hp =>
    ⟨hparts p hp, (findTop?_eq_none_iff hne hplain).mpr (hparts p hp)⟩, ?_⟩
  rcases occursAt_cases separator t with hnone | ⟨i, hi⟩
  · have hone : (splitTop separator t).length = 1 := by
      rw [splitTop_of_not_occursAt hne hplain hnone]
      rfl
    exact ⟨iff_of_true hone ((findTop?_eq_none_iff hne hplain).mpr hnone),
      iff_of_true hone ((findLastTop?_eq_none_iff hne hplain).mpr hnone),
      fun hmany => absurd hone hmany⟩
  · have hcut := splitTop_of_occursAt hne hplain hi
    have hmany : (splitTop separator t).length ≠ 1 := by
      have hrest := List.length_pos_iff.mpr
        (splitTopFrom_ne_nil separator .start 0 (t.drop (i + separator.length)))
      rw [hcut, List.length_cons, splitTop]
      omega
    have hlength : (t.take i).length = i := by
      have hle := hi.1.add_length_le hne
      rw [List.length_take]
      omega
    have hfirst : findTop? separator t 0 = some (t.take i).length := by
      rw [findTop?_eq_some hne hplain hi, hlength]
    obtain ⟨last, hlast⟩ : ∃ last, findLastTop? separator t = some last := by
      rw [← Option.ne_none_iff_exists', Ne, findLastTop?_eq_none_iff hne hplain]
      exact fun hnone => hnone i hi.1
    refine ⟨iff_of_false hmany (by rw [hfirst]; simp), iff_of_false hmany (by rw [hlast]; simp),
      fun _ => ⟨_, _, last, hcut, hfirst, hlast, isGreatest_of_findLastTop? hne hplain hlast⟩⟩

/-- Three bars in a row are one separator of two, and the quotation that is never closed hides
the last one. -/
theorem bars_are_cut_from_the_left :
    ("||".toList ≠ [] ∧ ∀ c ∈ "||".toList, isPlain c) ∧
    Text.joinWith "||".toList (splitTop "||".toList ")(a||b|||'c||d".toList) =
      ")(a||b|||'c||d".toList ∧
    splitTop "||".toList ")(a||b|||'c||d".toList =
      [")(a".toList, "b".toList, "|'c||d".toList] ∧
    IsGreatest {i | Text.OccursAt "||".toList ")(a||b|||'c||d".toList i} 7 := by
  have hparts : splitTop "||".toList ")(a||b|||'c||d".toList =
      [")(a".toList, "b".toList, "|'c||d".toList] := by decide
  have hplain : ∀ c ∈ "||".toList, isPlain c := by decide
  obtain ⟨hjoin, -, -, -, hmany⟩ :=
    parts_and_places_agree "||".toList ")(a||b|||'c||d".toList (by decide) hplain
  obtain ⟨p, ps, last, -, -, hlast, hgreatest⟩ := hmany (by rw [hparts]; decide)
  obtain rfl : last = 7 := by
    have hfound : findLastTop? "||".toList ")(a||b|||'c||d".toList = some 7 := by decide
    exact Option.some.inj (hlast.symm.trans hfound)
  exact ⟨⟨by decide, hplain⟩, hjoin, hparts, hgreatest⟩

end EventScript
