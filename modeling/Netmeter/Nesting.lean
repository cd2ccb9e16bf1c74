import Netmeter.Export
set_option autoImplicit false

/-! The four floors of `db.rs` partition time in UTC, each within the coarser ones. -/

namespace Netmeter
open Gregorian Floor

inductive Grain where
  | hour | day | week | month
  deriving DecidableEq, Repr

namespace Grain

def floor (tz : TimeZone) : Grain → ℤ → ℤ
  | .hour => floorHour tz
  | .day => floorDay tz
  | .week => floorWeek tz
  | .month => floorMonth tz

/-- The boundary after the one at or below `ts`. -/
def next : Grain → ℤ → ℤ
  | .hour, ts => floorHour .utc ts + 3600
  | .day, ts => floorDay .utc ts + 86400
  | .week, ts => floorWeek .utc ts + 7 * 86400
  | .month, ts => midnight .utc (TimeZone.utc.toZoned ts).date.nextMonth

def starts : Grain → Set ℤ
  | .hour => hourStarts
  | .day => dayStarts
  | .week => weekStarts
  | .month => monthStarts

theorem isFloor (g : Grain) : IsFloor g.starts (g.floor .utc) := by
  cases g
  · exact isFloor_hour
  · exact isFloor_day
  · exact isFloor_week
  · exact isFloor_monthStarts

theorem lt_next (g : Grain) (ts : ℤ) : ts < g.next ts := by
  cases g with
  | hour =>
    rw [next, floorHour_utc]
    omega
  | day =>
    rw [next, floorDay_utc]
    omega
  | week =>
    rw [next, floorWeek_utc]
    omega
  | month =>
    have h := (Date.ofDays (ts / 86400)).lt_nextMonth
    rw [Date.toDays_ofDays] at h
    rw [next, midnight_utc]
    simp only [TimeZone.utc, DateTime.ofSeconds]
    omega

end Grain

theorem floorWeek_monday (ts : ℤ) :
    ∃ d : Date, d.mondayOffset = 0 ∧ floorWeek .utc ts = midnight .utc d := by
  obtain ⟨k, hk⟩ := isFloor_week.mem ts
  refine ⟨Date.ofDays (7 * k + 4), ?_, ?_⟩
  · rw [Date.mondayOffset, Date.toDays_ofDays]
    omega
  · rw [midnight_utc, Date.toDays_ofDays]
    exact hk

theorem floorMonth_first (ts : ℤ) :
    ∃ d : Date, d.day = 1 ∧ floorMonth .utc ts = midnight .utc d := by
  obtain ⟨d, hd, he⟩ := isFloor_monthStarts.mem ts
  exact ⟨d, hd, by rw [midnight_utc, he]⟩

/-- The laws of the UTC floors at two instants. -/
structure NestedFloors (s t : ℤ) : Prop where
  le : ∀ g : Grain, g.floor .utc t ≤ t
  idem : ∀ g : Grain, g.floor .utc (g.floor .utc t) = g.floor .utc t
  mono : ∀ g : Grain, g.floor .utc s ≤ g.floor .utc t
  lt_next : ∀ g : Grain, t < g.next t
  monday : ∃ d : Date, d.mondayOffset = 0 ∧ floorWeek .utc t = midnight .utc d
  first : ∃ d : Date, d.day = 1 ∧ floorMonth .utc t = midnight .utc d
  day_hour : floorDay .utc (floorHour .utc t) = floorDay .utc t
  week_day : floorWeek .utc (floorDay .utc t) = floorWeek .utc t
  month_day : floorMonth .utc (floorDay .utc t) = floorMonth .utc t

theorem utc_floors_nest {s t : ℤ} (hst : s ≤ t) : NestedFloors s t where
  le g := g.isFloor.le t
  idem g := g.isFloor.idem t
  mono g := g.isFloor.mono hst
  lt_next g := g.lt_next t
  monday := floorWeek_monday t
  first := floorMonth_first t
  day_hour := isFloor_hour.nest isFloor_day dayStarts_subset t
  week_day := isFloor_day.nest isFloor_week weekStarts_subset t
  month_day := isFloor_day.nest isFloor_monthStarts monthStarts_subset t

/-- The last second of February 2024 and the first of March. -/
theorem utc_floors_nest_leap : NestedFloors 1709251199 1709251200 := utc_floors_nest (by norm_num)

end Netmeter
