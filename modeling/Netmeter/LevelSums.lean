import Netmeter.Lib.Regroup
import Netmeter.Daemon
set_option autoImplicit false

/-!
The rollup tables against each other: every monthly row sums the daily rows of its
month, every daily row the hourly rows of its day.
-/

namespace Netmeter
open Keyed Transaction

/-- The floors of a zone nest: an hour lies in one day, a day in one month. -/
structure NestedLevels (tz : TimeZone) : Prop where
  day_hour : ∀ ts, floorDay tz (floorHour tz ts) = floorDay tz ts
  month_day : ∀ ts, floorMonth tz (floorDay tz ts) = floorMonth tz ts
  day_le : ∀ ts, floorDay tz ts ≤ ts

theorem nestedLevels_utc : NestedLevels .utc where
  day_hour ts := isFloor_hour.nest isFloor_day dayStarts_subset ts
  month_day ts := isFloor_day.nest isFloor_monthStarts monthStarts_subset ts
  day_le ts := isFloor_day.le ts

def Key.rebucket (bucket : ℤ → ℤ) (k : Key) : Key := ⟨bucket k.ts, k.name⟩

theorem Key.rebucket_rebucket {f g : ℤ → ℤ} (h : ∀ ts, g (f ts) = g ts) (k : Key) :
    (k.rebucket f).rebucket g = k.rebucket g := by
  simp [Key.rebucket, h]

/-- The levels add up; a day is whole while it starts no earlier than `cut`. -/
structure LevelSums (tz : TimeZone) (cut : ℤ) (db : Db) : Prop where
  month : Regroups (Key.rebucket (floorMonth tz)) (fun _ => True) db.daily db.monthly
  day : Regroups (Key.rebucket (floorDay tz)) (fun k => cut ≤ k.ts) db.hourly db.daily

variable {cfg : Config} {tz : TimeZone} {cut : ℤ}

theorem LevelSums.congr {db db' : Db} (h : LevelSums tz cut db)
    (hlevel : ∀ L, db'.level L = db.level L) : LevelSums tz cut db' := by
  obtain ⟨hmonth, hday⟩ := h
  have hh : db'.hourly = db.hourly := hlevel .hourly
  have hd : db'.daily = db.daily := hlevel .daily
  have hm : db'.monthly = db.monthly := hlevel .monthly
  exact ⟨hd ▸ hm ▸ hmonth, hh ▸ hd ▸ hday⟩

theorem LevelSums.folded (htz : NestedLevels tz) {db : Db} (h : LevelSums tz cut db)
    (clear : Bool) (rows : List Sample) :
    LevelSums tz cut (db.folded (Level.floor tz) clear rows) := by
  have hmonth : ∀ k : Key, (k.rebucket (floorDay tz)).rebucket (floorMonth tz) =
      k.rebucket (floorMonth tz) := Key.rebucket_rebucket htz.month_day
  have hday : ∀ k : Key, (k.rebucket (floorHour tz)).rebucket (floorDay tz) =
      k.rebucket (floorDay tz) := Key.rebucket_rebucket htz.day_hour
  cases clear with
  | true => exact ⟨regroups_empty.addAll hmonth rows, regroups_empty.addAll hday rows⟩
  | false => exact ⟨h.month.addAll hmonth rows, h.day.addAll hday rows⟩

theorem LevelSums.rollup (htz : NestedLevels tz) {db : Db} (h : LevelSums tz cut db)
    (f : Faults) : LevelSums tz cut (rollupCall (Level.floor tz) f db) := by
  rcases rollupCall_cases (Level.floor tz) f db with ⟨-, he⟩ | ⟨-, he⟩
  · rw [he]
    exact h.folded htz _ _
  · rwa [he]

theorem LevelSums.retain (htz : NestedLevels tz) {db : Db} (h : LevelSums tz cut db)
    {now : WallClock} (hcut : retentionCut now.secs cfg.retentionDaysHourly ≤ cut) :
    LevelSums tz cut (enforceRetention cfg now.secs db) where
  month := h.month
  day := h.day.filter (fun k hk => by
    have hle := htz.day_le k.ts
    have hday : cut ≤ floorDay tz k.ts := hk
    simp only [decide_eq_true_eq]
    omega)

theorem level_tick (cfg : Config) (tz : TimeZone) (s : State) (r : Reading) (L : Level) :
    (tick cfg tz s r).db.level L = s.db.level L := by
  cases h : gapBranch cfg r with
  | true => rw [tick_gap h]
  | false => exact (ticked h tz s).level L

/-- An event deletes no hour at or after `cut`. -/
def Event.CutsBefore (cfg : Config) (cut : ℤ) (e : Event) : Prop :=
  ∀ now, e = .retain now → retentionCut now.secs cfg.retentionDaysHourly ≤ cut

theorem levelSums_step (htz : NestedLevels tz) (s : State) (e : Event)
    (h : LevelSums tz cut s.db) (he : e.CutsBefore cfg cut) :
    LevelSums tz cut (step cfg tz s e).db := by
  cases e with
  | tick r => exact h.congr (level_tick cfg tz s r)
  | rollup f => exact h.rollup htz f
  | retain now => exact h.retain htz (he now rfl)
  | restart => exact h

theorem levelSums_run (htz : NestedLevels tz) {es : List Event}
    (hes : ∀ e ∈ es, e.CutsBefore cfg cut) {s : State} (h : LevelSums tz cut s.db) :
    LevelSums tz cut (es.foldl (step cfg tz) s).db := by
  induction es generalizing s with
  | nil => exact h
  | cons e es ih =>
    exact ih (fun e' he' => hes e' (List.mem_cons_of_mem _ he'))
      (levelSums_step htz s e h (hes e List.mem_cons_self))

/-- In every run of ticks, rollups whose statements may fail, retention and restarts,
each monthly row is the sum of the daily rows of its month, and each daily row that of
the hourly rows of its day as long as no retention cut into the day. -/
theorem levels_add_up (cfg : Config) (tz : TimeZone) (htz : NestedLevels tz) (es : List Event)
    (k : Key) :
    let db := (es.foldl (step cfg tz) State.init).db
    db.monthly.cell k = total (fun d => d.name = k.name && floorMonth tz d.ts = k.ts)
        db.daily.rows ∧
      ((∀ now, Event.retain now ∈ es → retentionCut now.secs cfg.retentionDaysHourly ≤ k.ts) →
        db.daily.cell k = total (fun h => h.name = k.name && floorDay tz h.ts = k.ts)
          db.hourly.rows) := by
  have hinit : ∀ cut, LevelSums tz cut State.init.db := fun _ => ⟨regroups_empty, regroups_empty⟩
  have hsame : ∀ (bucket : ℤ → ℤ) (rows : List Sample),
      total (fun d => Key.rebucket bucket d = k) rows =
        total (fun d => d.name = k.name && bucket d.ts = k.ts) rows := by
    intro bucket rows
    refine total_congr (fun r _ => ?_)
    simp [Key.rebucket, Key.ext_iff, Bool.and_comm]
  constructor
  · -- no cut lies beyond the range of an i64
    have hall : ∀ e ∈ es, Event.CutsBefore cfg (2 ^ 63) e := fun e _ now _ =>
      (Int.bmod_lt (by decide)).le
    have hsum := (levelSums_run htz hall (hinit _)).month k trivial
    rwa [hsame] at hsum
  · intro hcut
    have hall : ∀ e ∈ es, Event.CutsBefore cfg k.ts e := fun e he now hnow => hcut now (hnow ▸ he)
    have hsum := (levelSums_run htz hall (hinit _)).day k le_rfl
    rwa [hsame] at hsum

def newMonth : List Event :=
  [.tick (rxReading 1709251190 1000), .tick (rxReading 1709251195 3000), .rollup noFaults,
    .tick (rxReading 1709251205 7000), .rollup noFaults, .retain (.at 1709251210)]

theorem levels_add_up_newMonth :
    let db := (newMonth.foldl (step {} .utc) State.init).db
    db.monthly.rows.length = 2 ∧
      db.daily.cell ⟨1709251200,"eth0"⟩ =
        total (fun h => h.name = "eth0" && floorDay .utc h.ts = 1709251200) db.hourly.rows :=
  ⟨by decide +kernel, (levels_add_up {} .utc nestedLevels_utc newMonth
    ⟨1709251200,"eth0"⟩).2 (by
      intro now hnow
      obtain rfl : now = .at 1709251210 := by simpa [newMonth] using hnow
      decide +kernel)⟩

end Netmeter
