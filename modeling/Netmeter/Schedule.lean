import Netmeter.RollupRuns
import Netmeter.Daemon
set_option autoImplicit false

/-!
The timers of the daemon loop: hourly rollups and six-hourly retention on the
monotonic clock, over starts, passes, stops and kills, with every sample ever
inserted as ghost state.
-/

namespace Netmeter
open Keyed Transaction

def second : ℤ := 1000000000

structure Timers where
  lastTick : ℤ
  lastRollup : ℤ
  lastRetain : ℤ
  deriving DecidableEq

def Timers.start (now : ℤ) : Timers := ⟨now, now - 3600 * second, now⟩

/-- One pass of the loop, with the instants at which it reads its clocks. -/
structure TimedPass where
  reading : Reading
  wallAt : ℤ
  wake : ℤ
  tickAt : ℤ
  rollupCheck : ℤ
  rolledUp : ℤ
  retainCheck : ℤ
  retainAt : ℤ
  retained : ℤ
  faults : Faults
  retainNow : WallClock

namespace TimedPass

def read (p : TimedPass) (t : Timers) : Reading :=
  { p.reading with gap := ((p.wake - t.lastTick) / second).toNat }

def rollupDue (p : TimedPass) (t : Timers) : Bool := 3600 * second < p.rollupCheck - t.lastRollup

def retainDue (p : TimedPass) (t : Timers) : Bool :=
  6 * 3600 * second < p.retainCheck - t.lastRetain

def timers (p : TimedPass) (t : Timers) : Timers where
  lastTick := p.tickAt
  lastRollup := if p.rollupDue t then p.rolledUp else t.lastRollup
  lastRetain := if p.retainDue t then p.retained else t.lastRetain

end TimedPass

def timedPass (cfg : Config) (tz : TimeZone) (s : State) (t : Timers) (p : TimedPass) :
    State × Timers :=
  let s := tick cfg tz s (p.read t)
  if gapBranch cfg (p.read t) then (s, { t with lastTick := p.tickAt })
  else
    let s := if p.rollupDue t then
        { s with db := rollupCall (Level.floor tz) p.faults s.db } else s
    let s := if p.retainDue t then
        { s with db := enforceRetention cfg p.retainNow.secs s.db } else s
    (s, p.timers t)

theorem timedPass_loopPass (cfg : Config) (tz : TimeZone) (s : State) (t : Timers)
    (p : TimedPass) : (timedPass cfg tz s t p).1 =
      loopPass cfg tz s (p.read t) (if p.rollupDue t then some p.faults else none)
        (if p.retainDue t then some p.retainNow else none) := by
  unfold timedPass loopPass
  cases gapBranch cfg (p.read t) <;> cases p.rollupDue t <;> cases p.retainDue t <;> rfl

/-- The service and its database; `offset` takes an instant of the running process
to wall time, `seen` is the latest wall time it saw, in nanoseconds. -/
structure Timeline where
  state : State := State.init
  timers : Option Timers := none
  started : ℤ := 0
  offset : ℤ := 0
  seen : ℤ := 0
  hist : List Sample := []

inductive TimedEvent where
  | start (now offset : ℤ)
  | pass (p : TimedPass)
  | stop (instant : ℤ) (f : Faults) (now : WallClock)
  | kill

namespace Timeline

def wall (m : Timeline) (instant : ℤ) : ℤ := (m.offset + instant) / second

def recorded (cfg : Config) (m : Timeline) (t : Timers) (p : TimedPass) : List Sample :=
  if gapBranch cfg (p.read t) then []
  else tickRows p.reading.nowWall.secs (sampleRows cfg m.state.daemon (p.read t))

def step (cfg : Config) (tz : TimeZone) (m : Timeline) : TimedEvent → Timeline
  | .start now offset =>
    { m with
      state := { m.state with daemon := {} }
      timers := some (.start now)
      started := now
      offset := offset
      seen := offset + now }
  | .pass p =>
    match m.timers with
    | none => m
    | some t =>
      { m with
        state := (timedPass cfg tz m.state t p).1
        timers := some (timedPass cfg tz m.state t p).2
        seen := m.offset + p.retained
        hist := m.hist ++ m.recorded cfg t p }
  | .stop instant f now =>
    { m with
      state := stopRequested cfg tz m.state f now
      timers := none
      seen := m.offset + instant }
  | .kill => { m with timers := none }

/-- The instants of a pass are in order, after a sleep of at least the interval,
and its work takes an hour at most. -/
structure InOrder (cfg : Config) (m : Timeline) (t : Timers) (p : TimedPass) : Prop where
  slept : t.lastTick + max cfg.pollIntervalSec 1 * second ≤ p.wallAt
  later : m.seen ≤ m.offset + p.wallAt
  wake : p.wallAt ≤ p.wake ∧ p.wake ≤ p.tickAt ∧ p.tickAt ≤ p.rollupCheck
  jobs : p.rollupCheck ≤ p.rolledUp ∧ p.rolledUp ≤ p.retainCheck ∧ p.retainCheck ≤ p.retainAt ∧
    p.retainAt ≤ p.retained
  work : p.retained ≤ p.tickAt + 3600 * second

/-- The wall clock runs with the monotonic one and never goes back between
processes, and no statement fails. -/
def Steady (cfg : Config) (m : Timeline) : TimedEvent → Prop
  | .start now offset => m.timers = none ∧ m.seen ≤ offset + now
  | .pass p => ∃ t, m.timers = some t ∧ m.InOrder cfg t p ∧
      p.reading.nowWall.secs = m.wall p.wallAt ∧ p.retainNow.secs = m.wall p.retainAt ∧
      p.faults = noFaults
  | .stop instant f now => m.timers.isSome ∧ m.seen ≤ m.offset + instant ∧
      now.secs = m.wall instant ∧ f = noFaults
  | .kill => True

end Timeline

/-- Retention prunes `hourly` as well; what else the ledger is about agrees. -/
structure SameBooks (db db' : Db) : Prop where
  samples : db.samples = db'.samples
  level : ∀ L, L ≠ .hourly → db.level L = db'.level L
  marker : db.lastRollupTs = db'.lastRollupTs

section
variable {bucket : Level → ℤ → ℤ} {db db' : Db} {hist : List Sample}

theorem SameBooks.insert (h : SameBooks db db') (ts : ℤ) (rows : List (String × Counts)) :
    SameBooks (db.insertSamples ts rows) (db'.insertSamples ts rows) where
  samples := by rw [samples_insertSamples, samples_insertSamples, h.samples]
  level L hL := by
    have hlevel := h.level L hL
    cases L <;> exact hlevel
  marker := h.marker

theorem SameBooks.rollup (h : SameBooks db db') :
    SameBooks (rollupCall bucket noFaults db) (rollupCall bucket noFaults db') := by
  rw [rollupCall_noFaults, rollupCall_noFaults, h.samples, h.marker]
  split
  · exact h
  · refine ⟨h.samples, fun L hL => ?_, rfl⟩
    rw [Db.level_folded, Db.level_folded, h.level L hL]

/-- The ledger of the samples ever inserted, the hourly table left aside. -/
def Books (bucket : Level → ℤ → ℤ) (db : Db) (hist : List Sample) : Prop :=
  ∃ db', SameBooks db db' ∧ Booked bucket ⟨db',hist⟩

theorem Books.subset (h : Books bucket db hist) : ∀ x ∈ db.samples.rows, x ∈ hist := by
  obtain ⟨db', hsame, hbooked⟩ := h
  rw [hsame.samples]
  exact hbooked.kept

theorem Books.pending (h : Books bucket db hist) :
    (newerThan db.lastRollupTs db.samples.rows).Perm (newerThan db.lastRollupTs hist) := by
  obtain ⟨db', hsame, hbooked⟩ := h
  rw [hsame.samples, hsame.marker]
  exact hbooked.pending

theorem Books.cells (h : Books bucket db hist) {L : Level} (hL : L ≠ .hourly) (k : Key) :
    (db.level L).cell k = total (inBucket (bucket L) k) (upTo db.lastRollupTs hist) := by
  obtain ⟨db', hsame, hbooked⟩ := h
  rw [hsame.level L hL, hsame.marker]
  exact hbooked.cells L k

theorem Books.congr (h : Books bucket db hist) {other : Db} (hsame : SameBooks other db) :
    Books bucket other hist := by
  obtain ⟨db', hsame', hbooked⟩ := h
  refine ⟨db', ⟨hsame.samples.trans hsame'.samples, fun L hL => ?_, hsame.marker.trans
    hsame'.marker⟩, hbooked⟩
  rw [hsame.level L hL, hsame'.level L hL]

theorem books_init : Books bucket Db.init [] :=
  ⟨Db.init, ⟨rfl, fun _ _ => rfl, rfl⟩, booked_init⟩

theorem Books.insert (h : Books bucket db hist) {ts : ℤ} {rows : List (String × Counts)}
    (hts : ∀ r ∈ hist, r.1.ts < ts) (hnodup : (rows.map (·.1)).Nodup) :
    Books bucket (db.insertSamples ts rows) (hist ++ tickRows ts rows) := by
  obtain ⟨db', hsame, hbooked⟩ := h
  exact ⟨_, hsame.insert ts rows, booked_insert hbooked hts hnodup⟩

theorem Books.rollup (h : Books bucket db hist) :
    Books bucket (rollupCall bucket noFaults db) hist ∧
      newerThan (rollupCall bucket noFaults db).lastRollupTs hist = [] := by
  obtain ⟨db', hsame, hbooked⟩ := h
  refine ⟨⟨_, hsame.rollup, booked_rollup hbooked readsOk_noFaults⟩, ?_⟩
  rw [hsame.rollup.marker, lastRollupTs_caught_up hbooked]
  by_cases hnil : hist = []
  · rw [hnil]
    rfl
  · rw [if_neg hnil]
    exact newerThan_eq_nil (maxTs_spec hnil).2

theorem Books.prune (h : Books bucket db hist) {cut : ℤ}
    (hcut : ∀ r ∈ newerThan db.lastRollupTs hist, cut ≤ r.1.ts) {pruned : Db}
    (hsamples : pruned.samples = db.samples.filter (fun k => cut ≤ k.ts))
    (hlevel : ∀ L, L ≠ .hourly → pruned.level L = db.level L)
    (hmarker : pruned.lastRollupTs = db.lastRollupTs) : Books bucket pruned hist := by
  obtain ⟨db', hsame, hbooked⟩ := h
  have hfolded : ∀ k : Key, (decide (k.ts < cut) && notAfter db'.lastRollupTs k.ts) = true →
      ∃ m, db'.lastRollupTs = some m ∧ k.ts ≤ m := by
    intro k hk
    have hk' := (Bool.and_eq_true_iff.mp hk).2
    cases hm : db'.lastRollupTs with
    | none => simp [hm, notAfter] at hk'
    | some m => exact ⟨m, rfl, by simpa [hm, notAfter] using hk'⟩
  refine ⟨_, ⟨?_, ?_, ?_⟩, booked_prune hbooked hfolded⟩
  · -- the rows below the cut are all folded
    rw [hsamples, hsame.samples]
    apply Table.ext
    rw [Table.rows_filter, Table.rows_filter]
    refine List.filter_congr (fun x hx => ?_)
    by_cases hlt : x.1.ts < cut
    · have hnotnew : x ∉ newerThan db'.lastRollupTs hist := by
        intro hnew
        have := hcut x (hsame.marker ▸ hnew)
        omega
      have hx' := hbooked.kept x hx
      rw [mem_newerThan] at hnotnew
      push Not at hnotnew
      obtain ⟨m, hm, hle⟩ := hnotnew hx'
      simp [hm, notAfter, hle, hlt, not_le.mpr hlt]
    · simp [hlt, not_lt.mp hlt]
  · intro L hL
    rw [hlevel L hL, hsame.level L hL]
    cases L <;> rfl
  · rw [hmarker, hsame.marker]

end

end Netmeter
