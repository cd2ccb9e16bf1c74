import Netmeter.Lib.Floor
set_option autoImplicit false

/-!
The proleptic Gregorian calendar over days and seconds counted from 1970-01-01.
-/

namespace Gregorian
open Floor

def leap (y : ℤ) : Bool := y % 4 = 0 && (y % 100 ≠ 0 || y % 400 = 0)

/-- Days from 1970-01-01 to January 1st of year `y`. -/
def yearStart (y : ℤ) : ℤ :=
  365 * (y - 1970) + ((y - 1) / 4 - (y - 1) / 100 + (y - 1) / 400) - 477

def daysIn (l : Bool) : ℕ → ℕ
  | 2 => if l then 29 else 28
  | 4 | 6 | 9 | 11 => 30
  | _ => 31

theorem daysIn_bounds (l : Bool) (m : ℕ) : 28 ≤ daysIn l m ∧ daysIn l m ≤ 31 := by
  unfold daysIn
  split
  · split <;> omega
  all_goals omega

theorem daysIn_le (l : Bool) (m : ℕ) : daysIn l m ≤ 31 := (daysIn_bounds l m).2

/-- Days of the year before month `m` (counted from 1); `m = 13` is the year's length. -/
def monthStart (l : Bool) : ℕ → ℤ
  | 0 | 1 => 0
  | m+2 => monthStart l (m+1) + daysIn l (m+1)

theorem monthStart_succ (l : Bool) {m : ℕ} (hm : 1 ≤ m) :
    monthStart l (m+1) = monthStart l m + daysIn l m := by
  cases m with
  | zero => omega
  | succ m => rfl

theorem monthStart_mono (l : Bool) : Monotone (monthStart l) := by
  apply monotone_nat_of_le_succ
  intro m
  cases m with
  | zero => exact le_rfl
  | succ m => simp only [monthStart]; omega

theorem monthStart_year (l : Bool) : monthStart l 13 = if l then 366 else 365 := by
  cases l <;> rfl

theorem yearStart_succ (y : ℤ) : yearStart (y+1) = yearStart y + monthStart (leap y) 13 := by
  rw [monthStart_year]
  unfold yearStart leap
  by_cases h4 : y % 4 = 0 <;> by_cases h100 : y % 100 = 0 <;> by_cases h400 : y % 400 = 0 <;>
    simp [h4, h100, h400] <;> omega

theorem yearStart_strictMono : StrictMono yearStart := by
  apply strictMono_int_of_lt_succ
  intro y
  rw [yearStart_succ, monthStart_year]
  split <;> omega

/-- The mean year estimates the year to within one. -/
def yearOf (n : ℤ) : ℤ :=
  let y := n * 400 / 146097 + 1970
  if n < yearStart y then y - 1 else if yearStart (y+1) ≤ n then y + 1 else y

theorem yearStart_mean (y : ℤ) :
    146097 * (y - 1970) - 600 ≤ 400 * yearStart y ∧
      400 * yearStart y ≤ 146097 * (y - 1970) + 600 := by
  unfold yearStart
  omega

theorem yearOf_bounds (n : ℤ) : yearStart (yearOf n) ≤ n ∧ n < yearStart (yearOf n + 1) := by
  have hlo := yearStart_mean (n * 400 / 146097 + 1970 - 1)
  have hhi := yearStart_mean (n * 400 / 146097 + 1970 + 1 + 1)
  simp only [yearOf]
  split
  · rw [sub_add_cancel]
    omega
  · split <;> omega

/-- The greatest month up to the given one that starts at or before day `r` of the year. -/
def findMonth (l : Bool) (r : ℤ) : ℕ → ℕ
  | 0 => 1
  | m+1 => if monthStart l (m+1) ≤ r then m+1 else findMonth l r m

theorem findMonth_spec (l : Bool) {r : ℤ} (hr : 0 ≤ r) (k : ℕ) (hk : 1 ≤ k)
    (hhi : r < monthStart l (k+1)) :
    1 ≤ findMonth l r k ∧ findMonth l r k ≤ k ∧ monthStart l (findMonth l r k) ≤ r ∧
      r < monthStart l (findMonth l r k + 1) := by
  induction k with
  | zero => omega
  | succ m ih =>
    by_cases h : monthStart l (m+1) ≤ r
    · simp [findMonth, h, hhi]
    · cases m with
      | zero => exact absurd hr h
      | succ m =>
        obtain ⟨h1, h2, h3, h4⟩ := ih (by omega) (not_le.mp h)
        rw [findMonth, if_neg h]
        exact ⟨h1, by omega, h3, h4⟩

@[ext] structure Date where
  year : ℤ
  month : ℕ
  day : ℕ
  valid : 1 ≤ month ∧ month ≤ 12 ∧ 1 ≤ day ∧ day ≤ daysIn (leap year) month
  deriving DecidableEq

namespace Date

def toDays (d : Date) : ℤ := yearStart d.year + monthStart (leap d.year) d.month + (d.day - 1)

def new (y mo da : ℤ) : Option Date :=
  if h : 1 ≤ mo ∧ mo ≤ 12 ∧ 1 ≤ da ∧ da ≤ daysIn (leap y) mo.toNat then
    some ⟨y, mo.toNat, da.toNat, by omega⟩
  else none

def dayOfYear (n : ℤ) : ℤ := n - yearStart (yearOf n)

def monthOf (n : ℤ) : ℕ := findMonth (leap (yearOf n)) (dayOfYear n) 12

def dayOf (n : ℤ) : ℕ := (dayOfYear n - monthStart (leap (yearOf n)) (monthOf n)).toNat + 1

theorem monthOf_spec (n : ℤ) :
    1 ≤ monthOf n ∧ monthOf n ≤ 12 ∧ monthStart (leap (yearOf n)) (monthOf n) ≤ dayOfYear n ∧
      dayOfYear n < monthStart (leap (yearOf n)) (monthOf n) +
        daysIn (leap (yearOf n)) (monthOf n) := by
  obtain ⟨h1, h2⟩ := yearOf_bounds n
  rw [yearStart_succ] at h2
  have hr : 0 ≤ dayOfYear n := by unfold dayOfYear; omega
  have hy : dayOfYear n < monthStart (leap (yearOf n)) 13 := by unfold dayOfYear; omega
  obtain ⟨hm1, hm2, hm3, hm4⟩ := findMonth_spec (leap (yearOf n)) hr 12 (by omega) hy
  rw [monthStart_succ _ hm1] at hm4
  exact ⟨hm1, hm2, hm3, hm4⟩

def ofDays (n : ℤ) : Date :=
  ⟨yearOf n, monthOf n, dayOf n, by
    obtain ⟨h1, h2, h3, h4⟩ := monthOf_spec n
    unfold dayOf
    omega⟩

theorem toDays_ofDays (n : ℤ) : (ofDays n).toDays = n := by
  obtain ⟨-, -, h3, h4⟩ := monthOf_spec n
  simp only [toDays, ofDays, dayOf]
  unfold dayOfYear at *
  omega

theorem toDays_bounds (d : Date) :
    yearStart d.year + monthStart (leap d.year) d.month ≤ d.toDays ∧
      d.toDays < yearStart d.year + monthStart (leap d.year) (d.month + 1) := by
  obtain ⟨h1, h2, h3, h4⟩ := d.valid
  rw [monthStart_succ _ h1]
  unfold toDays
  omega

theorem toDays_year (d : Date) : yearStart d.year ≤ d.toDays ∧ d.toDays < yearStart (d.year + 1) := by
  obtain ⟨h1, h2⟩ := d.toDays_bounds
  have hlo := monthStart_mono (leap d.year) (Nat.zero_le d.month)
  have hhi := monthStart_mono (leap d.year) (show d.month + 1 ≤ 13 by have := d.valid; omega)
  rw [yearStart_succ]
  simp only [monthStart] at hlo
  omega

theorem year_bounds {d : Date} {a b : ℤ} (ha : yearStart a ≤ d.toDays)
    (hb : d.toDays < yearStart b) : a ≤ d.year ∧ d.year < b := by
  obtain ⟨hlo, hhi⟩ := d.toDays_year
  have hlt : a < d.year + 1 := yearStart_strictMono.lt_iff_lt.mp (lt_of_le_of_lt ha hhi)
  exact ⟨by omega, yearStart_strictMono.lt_iff_lt.mp (lt_of_le_of_lt hlo hb)⟩

def firstOfMonth (d : Date) : Date :=
  ⟨d.year, d.month, 1, by obtain ⟨h1, h2, h3, h4⟩ := d.valid; omega⟩

theorem toDays_firstOfMonth (d : Date) : d.firstOfMonth.toDays = d.toDays - (d.day - 1) := by
  simp only [toDays, firstOfMonth]
  omega

def nextMonth (d : Date) : Date :=
  if h : d.month = 12 then ⟨d.year + 1, 1, 1, by have := daysIn_bounds (leap (d.year + 1)) 1; omega⟩
  else ⟨d.year, d.month + 1, 1, by
    have := daysIn_bounds (leap d.year) (d.month + 1)
    have := d.valid
    omega⟩

theorem toDays_nextMonth (d : Date) :
    d.nextMonth.toDays = yearStart d.year + monthStart (leap d.year) (d.month + 1) := by
  unfold nextMonth
  split
  · next h =>
    rw [h, show (12 + 1 : ℕ) = 13 from rfl, ← yearStart_succ]
    simp [toDays, monthStart]
  · simp [toDays]

theorem lt_nextMonth (d : Date) : d.toDays < d.nextMonth.toDays := by
  rw [toDays_nextMonth]
  exact d.toDays_bounds.2

theorem toDays_first {d : Date} (h : d.day = 1) :
    d.toDays = yearStart d.year + monthStart (leap d.year) d.month := by
  simp [toDays, h]

theorem nextMonth_le {d e : Date} (he : e.day = 1) (h : d.firstOfMonth.toDays < e.toDays) :
    d.nextMonth.toDays ≤ e.toDays := by
  have hd : d.firstOfMonth.toDays = yearStart d.year + monthStart (leap d.year) d.month :=
    toDays_first rfl
  rw [toDays_nextMonth]
  rcases lt_trichotomy e.year d.year with hy | hy | hy
  · have hend := e.toDays_year.2
    have hle : yearStart (e.year + 1) ≤ yearStart d.year :=
      yearStart_strictMono.monotone (by omega)
    have h0 := monthStart_mono (leap d.year) (Nat.zero_le d.month)
    simp only [monthStart] at h0
    omega
  · have hed := toDays_first he
    rw [hy] at hed
    have hm : d.month < e.month := (monthStart_mono (leap d.year)).reflect_lt (by omega)
    have hle : monthStart (leap d.year) (d.month + 1) ≤ monthStart (leap d.year) e.month :=
      monthStart_mono _ hm
    omega
  · have hstart := e.toDays_year.1
    have hle : yearStart (d.year + 1) ≤ yearStart e.year :=
      yearStart_strictMono.monotone (by omega)
    have h13 : monthStart (leap d.year) (d.month + 1) ≤ monthStart (leap d.year) 13 :=
      monthStart_mono _ (by have := d.valid; omega)
    rw [yearStart_succ] at hle
    omega

/-- 0 for Monday; 1970-01-01 was a Thursday. -/
def mondayOffset (d : Date) : ℤ := (d.toDays + 3) % 7

def subDays (d : Date) (k : ℤ) : Date := ofDays (d.toDays - k)

end Date

theorem isFloor_month :
    IsFloor {s : ℤ | ∃ d : Date, d.day = 1 ∧ s = d.toDays}
      (fun n => (Date.ofDays n).firstOfMonth.toDays) where
  mem n := ⟨_, rfl, rfl⟩
  le n := by
    have h := (Date.ofDays n).valid
    rw [Date.toDays_firstOfMonth, Date.toDays_ofDays]
    omega
  greatest s hs n hsn := by
    obtain ⟨e, he, rfl⟩ := hs
    by_contra hlt
    have hnext := Date.nextMonth_le he (not_le.mp hlt)
    have hn := (Date.ofDays n).lt_nextMonth
    rw [Date.toDays_ofDays] at hn
    omega

@[ext] structure DateTime where
  date : Date
  hour : ℕ
  minute : ℕ
  second : ℕ
  valid : hour < 24 ∧ minute < 60 ∧ second < 60
  deriving DecidableEq

namespace DateTime

def toSeconds (t : DateTime) : ℤ :=
  86400 * t.date.toDays + 3600 * t.hour + 60 * t.minute + t.second

def ofSeconds (s : ℤ) : DateTime :=
  ⟨Date.ofDays (s / 86400), (s % 86400 / 3600).toNat, (s % 3600 / 60).toNat, (s % 60).toNat,
    by omega⟩

theorem toSeconds_ofSeconds (s : ℤ) : (ofSeconds s).toSeconds = s := by
  simp only [toSeconds, ofSeconds, Date.toDays_ofDays]
  omega

theorem ofSeconds_injective : Function.Injective ofSeconds :=
  Function.LeftInverse.injective toSeconds_ofSeconds

def startOfHour (t : DateTime) : DateTime := ⟨t.date, t.hour, 0, 0, by have := t.valid; omega⟩

theorem startOfHour_ofSeconds (s : ℤ) :
    (ofSeconds s).startOfHour = ofSeconds (3600 * (s / 3600)) := by
  have hdate : s / 86400 = 3600 * (s / 3600) / 86400 := by omega
  refine DateTime.ext (congrArg Date.ofDays hdate) ?_ ?_ ?_
  all_goals
    simp only [startOfHour, ofSeconds]
    omega

end DateTime
end Gregorian
