import Netmeter.Lib.Calendar
set_option autoImplicit false

/-! Time floors of `db.rs`: hour, day, week and month boundaries of a time zone. -/

namespace Netmeter
open Gregorian Floor

/-- `jiff::tz::TimeZone`: an instant's civil time, and the instant of a civil time. -/
structure TimeZone where
  toZoned : ℤ → DateTime
  toTimestamp : DateTime → ℤ

def TimeZone.utc : TimeZone := ⟨DateTime.ofSeconds, DateTime.toSeconds⟩

/-- A wall clock reading in whole seconds. Beyond jiff's last timestamp every
floor panics, so no later reading reaches the code below. -/
structure WallClock where
  secs : ℤ
  valid : 0 ≤ secs ∧ secs ≤ 253402207200
  deriving DecidableEq

def WallClock.at (n : ℕ) : WallClock := ⟨min n 253402207200, by omega⟩

def floorDt (tz : TimeZone) (ts : ℤ) (pick : DateTime → Date × Fin 24) : ℤ :=
  let p := pick (tz.toZoned ts)
  tz.toTimestamp ⟨p.1, p.2, 0, 0, by omega⟩

def floorHour (tz : TimeZone) (ts : ℤ) : ℤ :=
  floorDt tz ts (fun dt => (dt.date, ⟨dt.hour, dt.valid.1⟩))

def floorDay (tz : TimeZone) (ts : ℤ) : ℤ := floorDt tz ts (fun dt => (dt.date, 0))

def floorMonth (tz : TimeZone) (ts : ℤ) : ℤ :=
  floorDt tz ts (fun dt => (dt.date.firstOfMonth, 0))

/-- Monday 00:00 of the week containing `ts`. -/
def floorWeek (tz : TimeZone) (ts : ℤ) : ℤ :=
  floorDt tz ts (fun dt => (dt.date.subDays dt.date.mondayOffset, 0))

inductive Window where
  | day | week | month
  deriving DecidableEq, Repr

def windowFloor (tz : TimeZone) (ts : ℤ) : Window → ℤ
  | .day => floorDay tz ts
  | .week => floorWeek tz ts
  | .month => floorMonth tz ts

def budgetWindowStart (tz : TimeZone) (ts : ℤ) (period : String) : ℤ :=
  if period = "day" then floorDay tz ts
  else if period = "week" then floorWeek tz ts
  else floorMonth tz ts

/-! The UTC floors round down onto nested sets of boundaries. -/

def hourStarts : Set ℤ := {s | ∃ k, s = 3600 * k}

def dayStarts : Set ℤ := {s | ∃ k, s = 86400 * k}

def weekStarts : Set ℤ := {s | ∃ k, s = 86400 * (7 * k + 4)}

def monthStarts : Set ℤ := {s | ∃ d : Date, d.day = 1 ∧ s = 86400 * d.toDays}

theorem floorHour_utc (ts : ℤ) : floorHour .utc ts = ts - ts % 3600 := by
  simp only [floorHour, floorDt, TimeZone.utc, DateTime.toSeconds, DateTime.ofSeconds,
    Date.toDays_ofDays]
  omega

theorem floorDay_utc (ts : ℤ) : floorDay .utc ts = ts - ts % 86400 := by
  simp only [floorDay, floorDt, TimeZone.utc, DateTime.toSeconds, DateTime.ofSeconds,
    Date.toDays_ofDays]
  simp
  omega

theorem floorWeek_utc (ts : ℤ) :
    floorWeek .utc ts = 86400 * (ts / 86400 - (ts / 86400 + 3) % 7) := by
  simp only [floorWeek, floorDt, TimeZone.utc, DateTime.toSeconds, DateTime.ofSeconds,
    Date.subDays, Date.mondayOffset, Date.toDays_ofDays]
  simp

theorem floorMonth_utc (ts : ℤ) :
    floorMonth .utc ts = 86400 * (Date.ofDays (ts / 86400)).firstOfMonth.toDays := by
  simp [floorMonth, floorDt, TimeZone.utc, DateTime.toSeconds, DateTime.ofSeconds]

theorem isFloor_hour : IsFloor hourStarts (floorHour .utc) := by
  have h := isFloor_multiples (w := 3600) (by omega) 0
  simp only [add_zero, sub_zero] at h
  rwa [show floorHour .utc = fun t => t - t % 3600 from funext floorHour_utc]

theorem isFloor_day : IsFloor dayStarts (floorDay .utc) := by
  have h := isFloor_multiples (w := 86400) (by omega) 0
  simp only [add_zero, sub_zero] at h
  rwa [show floorDay .utc = fun t => t - t % 86400 from funext floorDay_utc]

theorem isFloor_week : IsFloor weekStarts (floorWeek .utc) where
  mem t := ⟨(t / 86400 + 3) / 7 - 1, by rw [floorWeek_utc]; omega⟩
  le t := by rw [floorWeek_utc]; omega
  greatest s hs t hst := by
    obtain ⟨k, rfl⟩ := hs
    rw [floorWeek_utc]
    omega

theorem isFloor_monthStarts : IsFloor monthStarts (floorMonth .utc) where
  mem t := by
    obtain ⟨d, hd, he⟩ := isFloor_month.mem (t / 86400)
    exact ⟨d, hd, by rw [floorMonth_utc, ← he]⟩
  le t := by
    have h := isFloor_month.le (t / 86400)
    rw [floorMonth_utc]
    omega
  greatest s hs t hst := by
    obtain ⟨d, hd, rfl⟩ := hs
    have h := isFloor_month.greatest d.toDays ⟨d, hd, rfl⟩ (t / 86400) (by omega)
    rw [floorMonth_utc]
    omega

theorem dayStarts_subset : dayStarts ⊆ hourStarts := by
  rintro s ⟨k, rfl⟩
  exact ⟨24 * k, by ring⟩

theorem weekStarts_subset : weekStarts ⊆ dayStarts := by
  rintro s ⟨k, rfl⟩
  exact ⟨7 * k + 4, rfl⟩

theorem monthStarts_subset : monthStarts ⊆ dayStarts := by
  rintro s ⟨d, -, rfl⟩
  exact ⟨d.toDays, rfl⟩

def windowStarts : Window → Set ℤ
  | .day => dayStarts
  | .week => weekStarts
  | .month => monthStarts

theorem isFloor_window (w : Window) :
    IsFloor (windowStarts w) (fun t => windowFloor .utc t w) := by
  cases w
  · exact isFloor_day
  · exact isFloor_week
  · exact isFloor_monthStarts

theorem windowStarts_subset (w : Window) : windowStarts w ⊆ dayStarts := by
  cases w
  · exact Set.Subset.rfl
  · exact weekStarts_subset
  · exact monthStarts_subset

/-- The window a budget period names; anything else counts by month. -/
def Window.ofPeriod (period : String) : Window :=
  if period = "day" then .day else if period = "week" then .week else .month

theorem budgetWindowStart_eq (tz : TimeZone) (ts : ℤ) (period : String) :
    budgetWindowStart tz ts period = windowFloor tz ts (.ofPeriod period) := by
  unfold budgetWindowStart Window.ofPeriod
  split
  · rfl
  · split <;> rfl

end Netmeter
