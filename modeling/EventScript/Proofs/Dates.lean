/-
Turns and their dates.

From the first turn on, turns and dates stand for each other and run the same way, and a date can
be read off its label.

* `Date.toTurn_ofTurn`, `Date.ofTurn_toTurn` — a turn is the turn of its date, and a date the date
  of its turn;
* `Date.toTurn_lt_toTurn_iff` — turns run as their dates do;
* `Date.label_injective` — different dates are written differently;
* `turns_and_dates_run_together` — all of this for the turns of a game.
-/
import EventScript.Calendar
import EventScript.Proofs.Word

namespace EventScript

namespace Date

/-- A date that stands in the calendar. -/
structure IsProper (d : Date) : Prop where
  year_pos : 1 ≤ d.year
  month_pos : 1 ≤ d.month
  month_le : d.month ≤ 12

/-- One date is before another: years decide first, then months, then the halves of a month. -/
def Before (d e : Date) : Prop :=
  d.year < e.year ∨ d.year = e.year ∧
    (d.month < e.month ∨ d.month = e.month ∧ d.late = false ∧ e.late = true)

/-! ### From turns to dates and back -/

theorem isProper_ofTurn (t : Int) : (ofTurn t).IsProper where
  year_pos := Nat.le_add_left ..
  month_pos := Nat.le_add_left ..
  month_le := by
    show (t - 1).toNat % 24 / 2 + 1 ≤ 12
    omega

/-- From the first turn on, a turn is the turn of its date. -/
theorem toTurn_ofTurn {t : Int} (ht : 1 ≤ t) : (ofTurn t).toTurn = t := by
  obtain ⟨elapsed, rfl⟩ := Int.le.dest ht
  have helapsed : (1 + (elapsed : Int) - 1).toNat = elapsed := by omega
  -- half months are counted by the remainder of two, also within a year
  have hhalf : elapsed % 24 % 2 = elapsed % 2 := Nat.mod_mod_of_dvd elapsed (by decide)
  rw [ofTurn, toTurn, helapsed]
  simp only [turnsPerYear, decide_eq_true_eq]
  split
  · omega
  · omega

theorem one_le_toTurn {d : Date} (hd : d.IsProper) : 1 ≤ d.toTurn := by
  obtain ⟨hyear, hmonth, -⟩ := hd
  rw [toTurn]
  simp only [turnsPerYear]
  split
  · omega
  · omega

/-- A date of the calendar is the date of its turn. -/
theorem ofTurn_toTurn {d : Date} (hd : d.IsProper) : ofTurn d.toTurn = d := by
  obtain ⟨year, month, late⟩ := d
  obtain ⟨hyear, hmonth, hmonth'⟩ := hd
  simp only at hyear hmonth hmonth'
  have helapsed : (toTurn ⟨year, month, late⟩ - 1).toNat =
      24 * (year - 1) + (2 * (month - 1) + if late then 1 else 0) := by
    rw [toTurn]
    simp only [turnsPerYear]
    cases late <;> simp <;> omega
  rw [ofTurn, helapsed, Date.mk.injEq]
  simp only [turnsPerYear]
  cases late <;> simp <;> omega

/-- Turns run as their dates do. -/
theorem toTurn_lt_toTurn_iff {d e : Date} (hd : d.IsProper) (he : e.IsProper) :
    d.toTurn < e.toTurn ↔ d.Before e := by
  obtain ⟨year, month, late⟩ := d
  obtain ⟨year', month', late'⟩ := e
  obtain ⟨hyear, hmonth, hlast⟩ := hd
  obtain ⟨hyear', hmonth', hlast'⟩ := he
  simp only [toTurn, Before, turnsPerYear] at *
  cases late <;> cases late' <;> simp <;> omega

/-! ### Labels -/

/-- A number that something else than a digit follows can be read off a text. -/
theorem number_append_inj {j k : Nat} {c : Char} {a b : Text} (hc : c.isDigit = false)
    (h : j.repr.toList ++ c :: a = k.repr.toList ++ c :: b) : j = k ∧ a = b := by
  have hdigits : ∀ m : Nat, ∀ d ∈ m.repr.toList, d.isDigit := by
    intro m d hd
    rw [Nat.toList_repr] at hd
    exact Nat.isDigit_of_mem_toDigits (by decide) (by decide) hd
  have hnumber := congrArg (List.takeWhile Char.isDigit) h
  rw [takeWhile_append_mark (hdigits j) hc, takeWhile_append_mark (hdigits k) hc,
    Nat.toList_repr, Nat.toList_repr] at hnumber
  obtain rfl : j = k := by
    rw [← Nat.ofDigitChars_ten_toDigits (n := j), hnumber, Nat.ofDigitChars_ten_toDigits]
  exact ⟨rfl, (List.cons.inj (List.append_cancel_left h)).2⟩

theorem toList_label (d : Date) :
    d.label.toList = '第' :: (d.year.repr.toList ++ '年' ::
      (' ' :: (d.month.repr.toList ++ '月' :: (' ' :: d.period.toList)))) := by
  simp [label, String.toList_append]

/-- Dates that are written in the same way are the same. -/
theorem label_injective : Function.Injective label := by
  intro d e h
  have htext := congrArg String.toList h
  rw [toList_label, toList_label, List.cons_inj_right] at htext
  obtain ⟨hyear, htext⟩ := number_append_inj (by decide) htext
  obtain ⟨hmonth, htext⟩ := number_append_inj (by decide) (List.cons.inj htext).2
  have hperiod : d.period = e.period := String.toList_inj.mp (List.cons.inj htext).2
  have hlate : d.late = e.late := by
    rw [period, period] at hperiod
    generalize d.late = late at hperiod ⊢
    generalize e.late = late' at hperiod ⊢
    revert late late'
    decide
  obtain ⟨year, month, late⟩ := d
  obtain ⟨year', month', late'⟩ := e
  rw [Date.mk.injEq]
  exact ⟨hyear, hmonth, hlate⟩

end Date

/-- Turns and dates run together. From the first turn on, a turn has a date of the calendar, from
which it can be counted; every date of the calendar is the date of exactly one of these turns;
one turn is before another if its date is; and no two of them have the same label. The turns
before the first share its date. -/
theorem turns_and_dates_run_together :
    (∀ t : Int, 1 ≤ t → (Date.ofTurn t).IsProper ∧
      t = 24 * ((Date.ofTurn t).year - 1) + 2 * ((Date.ofTurn t).month - 1) +
        (if (Date.ofTurn t).late then 1 else 0) + 1) ∧
    (∀ d : Date, d.IsProper → ∃! t : Int, 1 ≤ t ∧ Date.ofTurn t = d) ∧
    (∀ t u : Int, 1 ≤ t → 1 ≤ u → (t < u ↔ (Date.ofTurn t).Before (Date.ofTurn u))) ∧
    (∀ t u : Int, 1 ≤ t → 1 ≤ u → t ≠ u → (Date.ofTurn t).label ≠ (Date.ofTurn u).label) ∧
    ∀ t : Int, t ≤ 0 → Date.ofTurn t = Date.ofTurn 1 := by
  refine ⟨fun t ht => ⟨Date.isProper_ofTurn t, (Date.toTurn_ofTurn ht).symm⟩,
    fun d hd => ⟨d.toTurn, ⟨Date.one_le_toTurn hd, Date.ofTurn_toTurn hd⟩, ?_⟩, ?_, ?_, ?_⟩
  · rintro t ⟨ht, rfl⟩
    exact (Date.toTurn_ofTurn ht).symm
  · intro t u ht hu
    have hiff := Date.toTurn_lt_toTurn_iff (Date.isProper_ofTurn t) (Date.isProper_ofTurn u)
    rwa [Date.toTurn_ofTurn ht, Date.toTurn_ofTurn hu] at hiff
  · intro t u ht hu hne hlabel
    refine hne ?_
    rw [← Date.toTurn_ofTurn ht, Date.label_injective hlabel, Date.toTurn_ofTurn hu]
  · intro t ht
    have helapsed : (t - 1).toNat = 0 := by omega
    rw [Date.ofTurn, helapsed]
    rfl

/-- The last turn of one year and the first of the next. -/
theorem new_year_comes_after_december :
    ((1 : Int) ≤ 24 ∧ (Date.ofTurn 24).label = "第1年 12月 下旬") ∧
    ((1 : Int) ≤ 25 ∧ (Date.ofTurn 25).label = "第2年 1月 上旬") ∧
    (Date.ofTurn 24).Before (Date.ofTurn 25) ∧ (Date.ofTurn 24).label ≠ (Date.ofTurn 25).label ∧
    ((Date.mk 2 1 false).IsProper ∧ ∃! t : Int, 1 ≤ t ∧ Date.ofTurn t = ⟨2, 1, false⟩) ∧
    ((-3 : Int) ≤ 0 ∧ Date.ofTurn (-3) = Date.ofTurn 1) := by
  obtain ⟨-, hunique, hbefore, hlabel, hfirst⟩ := turns_and_dates_run_together
  have hproper : (Date.mk 2 1 false).IsProper := ⟨by decide, by decide, by decide⟩
  exact ⟨⟨by decide, by decide⟩, ⟨by decide, by decide⟩,
    (hbefore 24 25 (by decide) (by decide)).mp (by decide),
    hlabel 24 25 (by decide) (by decide) (by decide),
    ⟨hproper, hunique _ hproper⟩, ⟨by decide, hfirst (-3) (by decide)⟩⟩

end EventScript
