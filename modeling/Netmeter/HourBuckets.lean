import Netmeter.Daemon
set_option autoImplicit false

/-! Hourly buckets in zones of whole hours, where a civil hour may be shown twice. -/

namespace Netmeter
open Gregorian Keyed

/-- The offset is a whole number of hours in every hour of UTC; a civil time shown
more than once is the earliest instant that shows it. -/
structure WholeHours (tz : TimeZone) (offset : ℤ → ℤ) : Prop where
  civil : ∀ ts, tz.toZoned ts = DateTime.ofSeconds (ts + 3600 * offset (ts / 3600))
  earliest : ∀ ts, IsLeast {t | tz.toZoned t = tz.toZoned ts} (tz.toTimestamp (tz.toZoned ts))

def civilHour (offset : ℤ → ℤ) (hour : ℤ) : ℤ := hour + offset hour

/-- No earlier hour showed the same civil hour. -/
def FirstShown (offset : ℤ → ℤ) (hour : ℤ) : Prop :=
  ∀ earlier < hour, civilHour offset earlier ≠ civilHour offset hour

/-- Samples of the two instants are rolled into one row of `hourly`. -/
def ShareHourly (tz : TimeZone) (s t : ℤ) : Prop :=
  ∃ x y : Sample, x.1.ts = s ∧ y.1.ts = t ∧
    ∃ r ∈ bucketed (Level.hourly.floor tz) [x], ∃ r' ∈ bucketed (Level.hourly.floor tz) [y],
      r.1 = r'.1

/-- Deltas taken at the two instants are added to one row of `proc_hourly`. -/
def ShareProcHourly (tz : TimeZone) (s t : ℤ) : Prop :=
  ∃ deltas deltas' : Table String (ℕ × ℕ), ∃ r ∈ procRows (floorHour tz s) deltas,
    ∃ r' ∈ procRows (floorHour tz t) deltas', r.1 = r'.1

theorem shareHourly_iff (tz : TimeZone) (s t : ℤ) :
    ShareHourly tz s t ↔ floorHour tz s = floorHour tz t := by
  constructor
  · rintro ⟨x, y, rfl, rfl, r, hr, r', hr', hkey⟩
    rw [bucketed, List.map_singleton, List.mem_singleton] at hr hr'
    rw [hr, hr'] at hkey
    exact congrArg Key.ts hkey
  · intro hfloor
    refine ⟨(⟨s,"eth0"⟩, 0), (⟨t,"eth0"⟩, 0), rfl, rfl, _, List.mem_cons_self, _,
      List.mem_cons_self, ?_⟩
    exact congrArg (fun hour => (⟨hour,"eth0"⟩ : Key)) hfloor

theorem procRows_set (hour : ℤ) :
    (⟨hour,"curl"⟩, (1,0)) ∈ procRows hour (Table.set ∅ "curl" (1,0)) :=
  List.mem_cons_self

theorem shareProcHourly_iff (tz : TimeZone) (s t : ℤ) :
    ShareProcHourly tz s t ↔ floorHour tz s = floorHour tz t := by
  constructor
  · rintro ⟨deltas, deltas', r, hr, r', hr', hkey⟩
    rw [← ts_of_mem_procRows hr, ← ts_of_mem_procRows hr', hkey]
  · intro hfloor
    exact ⟨_, _, _, procRows_set _, _, procRows_set _, by rw [hfloor]⟩

namespace WholeHours
variable {tz : TimeZone} {offset : ℤ → ℤ}

theorem toZoned_hour (h : WholeHours tz offset) (k : ℤ) :
    tz.toZoned (3600 * k) = DateTime.ofSeconds (3600 * civilHour offset k) := by
  rw [h.civil, Int.mul_ediv_cancel_left k (by norm_num), civilHour, mul_add]

theorem floorHour_eq (h : WholeHours tz offset) (ts : ℤ) :
    floorHour tz ts = tz.toTimestamp (tz.toZoned (3600 * (ts / 3600))) := by
  have hstart : floorHour tz ts = tz.toTimestamp (tz.toZoned ts).startOfHour := rfl
  rw [hstart, h.toZoned_hour, h.civil, DateTime.startOfHour_ofSeconds,
    Int.add_mul_ediv_left _ _ (by norm_num)]
  rfl

theorem toZoned_eq_iff (h : WholeHours tz offset) (t k : ℤ) :
    tz.toZoned t = tz.toZoned (3600 * k) ↔
      t = 3600 * (t / 3600) ∧ civilHour offset (t / 3600) = civilHour offset k := by
  rw [h.toZoned_hour, h.civil, DateTime.ofSeconds_injective.eq_iff, civilHour, civilHour]
  omega

theorem floorHour_spec (h : WholeHours tz offset) (ts : ℤ) : ∃ k, floorHour tz ts = 3600 * k ∧
    IsLeast {j | civilHour offset j = civilHour offset (ts / 3600)} k := by
  obtain ⟨hmem, hle⟩ := h.earliest (3600 * (ts / 3600))
  rw [← h.floorHour_eq ts] at hmem hle
  obtain ⟨hk, hcivil⟩ := (h.toZoned_eq_iff _ _).mp hmem
  refine ⟨floorHour tz ts / 3600, hk, hcivil, fun j hj => ?_⟩
  have hjle := hle ((h.toZoned_eq_iff (3600 * j) _).mpr
    (by rw [Int.mul_ediv_cancel_left j (by norm_num)]; exact ⟨rfl, hj⟩))
  omega

theorem floorHour_bounds_iff (h : WholeHours tz offset) (ts : ℤ) :
    (floorHour tz ts ≤ ts ∧ ts < floorHour tz ts + 3600) ↔ FirstShown offset (ts / 3600) := by
  obtain ⟨k, hk, hmem, hleast⟩ := h.floorHour_spec ts
  rw [hk]
  constructor
  · rintro hb j hj hcivil
    have hkj : k ≤ j := hleast hcivil
    omega
  · intro hfirst
    have hle : k ≤ ts / 3600 := hleast rfl
    have hge : ¬ k < ts / 3600 := fun hlt => hfirst k hlt hmem
    omega

theorem floorHour_eq_iff (h : WholeHours tz offset) (s t : ℤ) :
    floorHour tz s = floorHour tz t ↔
      civilHour offset (s / 3600) = civilHour offset (t / 3600) := by
  obtain ⟨j, hj, hs⟩ := h.floorHour_spec s
  obtain ⟨k, hk, ht⟩ := h.floorHour_spec t
  rw [hj, hk, mul_right_inj' (by norm_num)]
  constructor
  · rintro rfl
    exact hs.1.symm.trans ht.1
  · intro hcivil
    rw [hcivil] at hs
    exact hs.unique ht

end WholeHours

/-- A bucket holds the second showing of its civil hour as well, an hour or more
after it began. -/
theorem hourly_bucket_iff {tz : TimeZone} {offset : ℤ → ℤ} (h : WholeHours tz offset) :
    (∀ ts, (floorHour tz ts ≤ ts ∧ ts < floorHour tz ts + 3600) ↔
      FirstShown offset (ts / 3600)) ∧
    ∀ s t, s + 3600 ≤ t → (¬ ShareHourly tz s t ∧ ¬ ShareProcHourly tz s t ↔
      civilHour offset (s / 3600) ≠ civilHour offset (t / 3600)) := by
  refine ⟨h.floorHour_bounds_iff, fun s t _ => ?_⟩
  rw [shareHourly_iff, shareProcHourly_iff, and_self, h.floorHour_eq_iff]

/-- Two hours ahead of UTC until 2026-10-25 01:00, one hour from then on. -/
def autumnOffset (hour : ℤ) : ℤ := if hour < 498025 then 2 else 1

def autumn : TimeZone where
  toZoned ts := DateTime.ofSeconds (ts + 3600 * autumnOffset (ts / 3600))
  toTimestamp dt :=
    if dt.toSeconds - 7200 < 1792890000 then dt.toSeconds - 7200 else dt.toSeconds - 3600

theorem autumn_toZoned_iff (s t : ℤ) : autumn.toZoned s = autumn.toZoned t ↔
    s + 3600 * autumnOffset (s / 3600) = t + 3600 * autumnOffset (t / 3600) :=
  DateTime.ofSeconds_injective.eq_iff

theorem autumn_toTimestamp (ts : ℤ) : autumn.toTimestamp (autumn.toZoned ts) =
    let c := ts + 3600 * autumnOffset (ts / 3600)
    if c - 7200 < 1792890000 then c - 7200 else c - 3600 := by
  simp only [autumn, DateTime.toSeconds_ofSeconds]

theorem autumn_wholeHours : WholeHours autumn autumnOffset where
  civil _ := rfl
  earliest ts := by
    rw [autumn_toTimestamp]
    constructor
    · refine (autumn_toZoned_iff _ _).mpr ?_
      simp only [autumnOffset]
      split_ifs <;> omega
    · intro t ht
      have hcivil := (autumn_toZoned_iff t ts).mp ht
      simp only [autumnOffset] at hcivil ⊢
      split_ifs at hcivil ⊢ <;> omega

theorem hourly_bucket_iff_autumn :
    (∀ ts, (floorHour autumn ts ≤ ts ∧ ts < floorHour autumn ts + 3600) ↔
      FirstShown autumnOffset (ts / 3600)) ∧
    ∀ s t, s + 3600 ≤ t → (¬ ShareHourly autumn s t ∧ ¬ ShareProcHourly autumn s t ↔
      civilHour autumnOffset (s / 3600) ≠ civilHour autumnOffset (t / 3600)) :=
  hourly_bucket_iff autumn_wholeHours

/-- Both 02:00 of that night fall into the bucket of the first. -/
theorem not_hourly_bucket :
    (¬ ∀ (tz : TimeZone) (offset : ℤ → ℤ), WholeHours tz offset →
      ∀ ts, floorHour tz ts ≤ ts ∧ ts < floorHour tz ts + 3600) ∧
    ¬ ∀ (tz : TimeZone) (offset : ℤ → ℤ), WholeHours tz offset →
      ∀ s t, s + 3600 ≤ t → ¬ ShareHourly tz s t ∧ ¬ ShareProcHourly tz s t := by
  have hfirst : floorHour autumn 1792886400 = 1792886400 := by decide +kernel
  have hsecond : floorHour autumn 1792890000 = 1792886400 := by decide +kernel
  constructor
  · intro h
    have hlt := (h autumn autumnOffset autumn_wholeHours 1792890000).2
    rw [hsecond] at hlt
    omega
  · intro h
    refine (h autumn autumnOffset autumn_wholeHours 1792886400 1792890000 (by norm_num)).1 ?_
    rw [shareHourly_iff, hfirst, hsecond]

end Netmeter
