import Netmeter.Budget
import Netmeter.Lib.Text
set_option autoImplicit false

/-!
Budget keys: the formatted date of a window's start tells the windows of every
period apart.
-/

namespace Netmeter
open Gregorian Floor Text

theorem toList_padZero (width n : ℕ) :
    (padZero width n).toList =
      List.replicate (width - (toString n).length) '0' ++ Nat.toDigits 10 n := by
  simp [padZero]

theorem padZero_injective (width : ℕ) : Function.Injective (padZero width) := by
  intro n n' h
  have hvalue : ∀ n, Nat.ofDigitChars 10 (padZero width n).toList 0 = n := by
    intro n
    rw [toList_padZero, Nat.ofDigitChars_append, Nat.ofDigitChars_replicate_zero, mul_zero,
      Nat.ofDigitChars_ten_toDigits]
  rw [← hvalue n, ← hvalue n', h]

theorem length_toString (n : ℕ) : (toString n).length = (Nat.toDigits 10 n).length := by
  simp [← String.length_toList]

theorem length_padZero {width n : ℕ} (hw : 0 < width) (h : n < 10 ^ width) :
    (padZero width n).toList.length = width := by
  have hle := (Nat.length_toDigits_le_iff (by norm_num) hw).mpr h
  rw [toList_padZero, List.length_append, List.length_replicate, length_toString]
  omega

theorem toString_eq_padZero {width n : ℕ} (hw : 0 < width) (h : 10 ^ width ≤ n) :
    toString n = padZero (width + 1) n := by
  have hlt : width < (Nat.toDigits 10 n).length := by
    rw [← not_le, Nat.length_toDigits_le_iff (by norm_num) hw, not_lt]
    exact h
  have hzero : width + 1 - (toString n).length = 0 := by
    rw [length_toString]
    omega
  unfold padZero
  dsimp only
  rw [hzero, List.replicate_zero]
  simp

theorem isDigit_padZero {width n : ℕ} {c : Char} (h : c ∈ (padZero width n).toList) :
    c.isDigit = true := by
  rw [toList_padZero] at h
  rcases List.mem_append.mp h with h | h
  · rw [List.eq_of_mem_replicate h]
    rfl
  · exact Nat.isDigit_of_mem_toDigits (by norm_num) (by norm_num) h

theorem dash_notMem_padZero (width n : ℕ) : '-' ∉ (padZero width n).toList :=
  fun h => absurd (isDigit_padZero h) (by decide)

def dateText (d : Date) : String :=
  padZero 4 d.year.toNat ++ "-" ++ padZero 2 d.month ++ "-" ++ padZero 2 d.day

theorem dateText_injective {d d' : Date} (hd : 0 ≤ d.year) (hd' : 0 ≤ d'.year)
    (h : dateText d = dateText d') : d = d' := by
  have htext : ∀ d, (dateText d).toList = (padZero 4 d.year.toNat).toList ++
      '-' :: ((padZero 2 d.month).toList ++ '-' :: (padZero 2 d.day).toList) := by
    simp [dateText]
  have hlist := congrArg String.toList h
  rw [htext, htext] at hlist
  obtain ⟨hy, hrest⟩ := split_at_first (dash_notMem_padZero _ _) (dash_notMem_padZero _ _) hlist
  obtain ⟨hm, hday⟩ := split_at_first (dash_notMem_padZero _ _) (dash_notMem_padZero _ _) hrest
  have hyear := padZero_injective 4 (String.toList_injective hy)
  exact Date.ext (by omega) (padZero_injective 2 (String.toList_injective hm))
    (padZero_injective 2 (String.toList_injective hday))

theorem length_dateText {d : Date} (h : d.year < 10000) : (dateText d).toList.length = 10 := by
  have hv := d.valid
  have hle := daysIn_le (leap d.year) d.month
  have hy : (padZero 4 d.year.toNat).toList.length = 4 := length_padZero (by norm_num) (by omega)
  have hm : (padZero 2 d.month).toList.length = 2 := length_padZero (by norm_num) (by omega)
  have hd : (padZero 2 d.day).toList.length = 2 := length_padZero (by norm_num) (by omega)
  unfold dateText
  simp only [String.toList_append, List.length_append, hy, hm, hd]
  rfl

theorem budgetKey_eq (tz : TimeZone) (ts : ℤ) (period : String) :
    budgetKey tz ts period =
      period ++ ":" ++ dateText (tz.toZoned (budgetWindowStart tz ts period)).date := by
  simp [budgetKey, dateText, String.append_assoc]

theorem budgetWindowStart_date (ts : ℤ) (period : String) :
    budgetWindowStart .utc ts period =
      86400 * (TimeZone.utc.toZoned (budgetWindowStart .utc ts period)).date.toDays := by
  rw [budgetWindowStart_eq]
  obtain ⟨k, hk⟩ := windowStarts_subset _ ((isFloor_window (.ofPeriod period)).mem ts)
  simp only [TimeZone.utc, DateTime.ofSeconds, Date.toDays_ofDays] at *
  omega

/-- Since the epoch windows start in 1969 at the earliest: the week of its first
day began on a Monday before it. -/
theorem budgetWindowStart_year (t : WallClock) (period : String) :
    0 ≤ (TimeZone.utc.toZoned (budgetWindowStart .utc t.secs period)).date.year := by
  have hstart : -259200 ≤ budgetWindowStart .utc t.secs period := by
    rw [budgetWindowStart_eq]
    have hv := t.valid
    cases Window.ofPeriod period with
    | day =>
      show _ ≤ floorDay .utc t.secs
      rw [floorDay_utc]
      omega
    | week =>
      show _ ≤ floorWeek .utc t.secs
      rw [floorWeek_utc]
      omega
    | month =>
      refine le_trans (by norm_num)
        (isFloor_monthStarts.greatest 0 ⟨⟨1970, 1, 1, by decide⟩, rfl, ?_⟩ _ hv.1)
      decide
  rw [budgetWindowStart_date] at hstart
  have h0 : yearStart 0 = -719528 := by decide
  have hend := (TimeZone.utc.toZoned (budgetWindowStart .utc t.secs period)).date.toDays_year.2
  exact (Date.year_bounds (by omega) hend).1

theorem budgetKey_inj {t t' : WallClock} {period : String} :
    budgetKey .utc t.secs period = budgetKey .utc t'.secs period ↔
      budgetWindowStart .utc t.secs period = budgetWindowStart .utc t'.secs period := by
  constructor
  · intro h
    rw [budgetKey_eq, budgetKey_eq] at h
    have hdate := dateText_injective (budgetWindowStart_year t period)
      (budgetWindowStart_year t' period) (String.append_right_inj _ |>.mp h)
    rw [budgetWindowStart_date, hdate, ← budgetWindowStart_date]
  · intro h
    rw [budgetKey_eq, budgetKey_eq, h]

theorem budgetKey_period {tz : TimeZone} {ts ts' : ℤ} {period period' : String}
    (hp : ':' ∉ period.toList) (hp' : ':' ∉ period'.toList)
    (h : budgetKey tz ts period = budgetKey tz ts' period') : period = period' := by
  have hlist := congrArg String.toList h
  simp only [budgetKey_eq, String.toList_append, List.append_assoc,
    show (":" : String).toList = [':'] from rfl, List.singleton_append] at hlist
  exact String.toList_injective (split_at_first hp hp' hlist).1

end Netmeter
