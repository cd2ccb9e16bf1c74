import Netmeter.Counters
import Netmeter.Budget
set_option autoImplicit false

/-!
The daemon loop: one tick, the rollup and retention jobs, and runs of them.
What a tick reads from outside is its `Reading`.
-/

namespace Netmeter
open Keyed

/-- One tick's view of the machine: the seconds since the last tick, the clock,
`/proc/net/dev`, the nft counters, sysfs link speeds, and the per-app bytes
drained from the recorder. -/
structure Reading where
  gap : ℕ
  nowWall : WallClock
  totals : Table String (UInt64 × UInt64)
  lanNow : Option (UInt64 × UInt64) := none
  speed : String → Option ℕ := fun _ => none
  tableExists : Bool := true
  budgetNow : WallClock := nowWall
  procDeltas : Table String (ℕ × ℕ) := ∅

structure Daemon where
  prev : Table String (UInt64 × UInt64) := ∅
  prevLan : Option (UInt64 × UInt64) := none
  nftMissingTicks : UInt32 := 0
  nftOkReported : Option Bool := none

structure State where
  db : Db
  daemon : Daemon := {}

structure IfaceDelta where
  iface : String
  rx : UInt64 × Bool
  tx : UInt64 × Bool

def ifaceDelta (cfg : Config) (r : Reading) (prev : Table String (UInt64 × UInt64))
    (e : String × UInt64 × UInt64) : Option IfaceDelta :=
  if cfg.excluded e.1 then none
  else
    let maxb := maxBytesPerTick cfg (r.speed e.1)
    (prev.lookup e.1).map (fun o => ⟨e.1, delta o.1 e.2.1 maxb, delta o.2 e.2.2 maxb⟩)

def ifaceDeltas (cfg : Config) (d : Daemon) (r : Reading) : List IfaceDelta :=
  r.totals.rows.filterMap (ifaceDelta cfg r d.prev)

structure PerIf where
  iface : String
  rx : ℤ
  tx : ℤ

/-- Interfaces without accepted traffic get no row. -/
def perIf (x : IfaceDelta) : Option PerIf :=
  if 0 < x.rx.1 ∨ 0 < x.tx.1 then some ⟨x.iface, asI64 x.rx.1, asI64 x.tx.1⟩ else none

def perIfs (cfg : Config) (d : Daemon) (r : Reading) : List PerIf :=
  (ifaceDeltas cfg d r).filterMap perIf

def discarded (cfg : Config) (d : Daemon) (r : Reading) : ℕ :=
  (ifaceDeltas cfg d r).countP (fun x => x.rx.2 || x.tx.2)

def lanDelta (cfg : Config) (d : Daemon) (r : Reading) : ℤ × ℤ :=
  match d.prevLan, r.lanNow with
  | some (pr,pt), some (nr,nt) =>
    let maxb := maxBytesPerTick cfg (r.speed "lan")
    (asI64 (delta pr nr maxb).1, asI64 (delta pt nt maxb).1)
  | _, _ => (0,0)

def prorate (lan p tot : ℤ) : ℤ :=
  ratAsI64 (lan * (if 0 < tot then (p / tot : ℚ) else 0))

/-- LAN bytes of one interface; forced-LAN interfaces claim all of theirs. -/
def lanShare (cfg : Config) (lan tot : ℤ × ℤ) (p : PerIf) : ℤ × ℤ :=
  let l :=
    if cfg.forcedLan p.iface then (p.rx,p.tx)
    else if 0 < tot.1 ∨ 0 < tot.2 then (prorate lan.1 p.rx tot.1, prorate lan.2 p.tx tot.2)
    else (0,0)
  -- never attribute more LAN than total on an interface
  (min l.1 p.rx, min l.2 p.tx)

def sampleCounts (cfg : Config) (lan tot : ℤ × ℤ) (p : PerIf) : Counts :=
  let l := lanShare cfg lan tot p
  ⟨p.rx, p.tx, l.1, l.2⟩

def perTotals (per : List PerIf) : ℤ × ℤ := ((per.map (·.rx)).sum, (per.map (·.tx)).sum)

def sampleRows (cfg : Config) (d : Daemon) (r : Reading) : List (String × Counts) :=
  let per := perIfs cfg d r
  per.map (fun p => (p.iface, sampleCounts cfg (lanDelta cfg d r) (perTotals per) p))

/-- Publish a change of the nft state, and count the ticks without it: the
twelfth in a row reinstalls a table that is really gone. -/
def nftStep (d : Daemon) (lanNow : Option (UInt64 × UInt64)) (tableExists : Bool) :
    Daemon × Bool :=
  let d := { d with nftOkReported := some lanNow.isSome }
  if lanNow.isSome then ({ d with nftMissingTicks := 0 }, false)
  else
    let missing := d.nftMissingTicks + 1
    ({ d with nftMissingTicks := missing }, missing = 12 && !tableExists)

def reportNft (d : Daemon) (lanNow : Option (UInt64 × UInt64)) (db : Db) : Db :=
  if some lanNow.isSome = d.nftOkReported then db else { db with nftOk := some lanNow.isSome }

def countDiscarded (n : ℕ) (db : Db) : Db :=
  if 0 < n then { db with discardedSamples := some (db.discardedSamples.getD 0 + n) } else db

/-- The rows of one tick in one transaction, then the budget; nothing to insert,
no check. -/
def recordSamples (cfg : Config) (tz : TimeZone) (r : Reading) (rows : List (String × Counts))
    (db : Db) : Db :=
  if rows.isEmpty then db
  else checkBudget cfg tz r.budgetNow.secs (db.insertSamples r.nowWall.secs rows)

def procRows (hour : ℤ) (deltas : Table String (ℕ × ℕ)) : List (Key × (ℤ × ℤ)) :=
  deltas.rows.filterMap (fun e =>
    if 0 < e.2.1 ∨ 0 < e.2.2 then some (⟨hour,e.1⟩, ((e.2.1 : ℤ), (e.2.2 : ℤ))) else none)

theorem ts_of_mem_procRows {hour : ℤ} {deltas : Table String (ℕ × ℕ)} {e : Key × (ℤ × ℤ)}
    (he : e ∈ procRows hour deltas) : e.1.ts = hour := by
  obtain ⟨x, -, hx⟩ := List.mem_filterMap.mp he
  split at hx
  · obtain rfl := Option.some.inj hx
    rfl
  · simp at hx

def commitDeltas (hour : ℤ) (deltas : Table String (ℕ × ℕ)) (db : Db) : Db :=
  { db with procHourly := db.procHourly.addAll (procRows hour deltas) }

def recordProc (cfg : Config) (tz : TimeZone) (r : Reading) (db : Db) : Db :=
  if cfg.procRecording then commitDeltas (floorHour tz r.nowWall.secs) r.procDeltas db else db

/-- More than two polls and five seconds since the last tick: a suspend. -/
def gapBranch (cfg : Config) (r : Reading) : Bool := max cfg.pollIntervalSec 1 * 2 + 5 < r.gap

def tickSamples (cfg : Config) (tz : TimeZone) (s : State) (r : Reading) : State :=
  if gapBranch cfg r then
    -- force a new baseline, skip one sample
    { s with daemon := { s.daemon with prev := ∅, prevLan := r.lanNow } }
  else
    { db := recordSamples cfg tz r (sampleRows cfg s.daemon r)
        (countDiscarded (discarded cfg s.daemon r) (reportNft s.daemon r.lanNow s.db))
      daemon := { (nftStep s.daemon r.lanNow r.tableExists).1 with
        prev := r.totals.filter (fun i => !cfg.excluded i)
        prevLan := r.lanNow } }

def tick (cfg : Config) (tz : TimeZone) (s : State) (r : Reading) : State :=
  let s := tickSamples cfg tz s r
  if gapBranch cfg r then s else { s with db := recordProc cfg tz r s.db }

def retentionCut (now days : ℤ) : ℤ := wrapI64 (now - wrapI64 (days * 86400))

def enforceRetention (cfg : Config) (now : ℤ) (db : Db) : Db :=
  { db with
    samples := db.samples.filter (fun k => retentionCut now cfg.retentionDaysRaw ≤ k.ts)
    hourly := db.hourly.filter (fun k => retentionCut now cfg.retentionDaysHourly ≤ k.ts)
    procHourly := db.procHourly.filter
      (fun k => retentionCut now (max cfg.procRetentionDays 1) ≤ k.ts) }

inductive Event where
  | tick (r : Reading)
  | rollup (f : Faults)
  | retain (now : WallClock)
  | restart

def step (cfg : Config) (tz : TimeZone) (s : State) : Event → State
  | .tick r => tick cfg tz s r
  | .rollup f => { s with db := rollupCall (Level.floor tz) f s.db }
  | .retain now => { s with db := enforceRetention cfg now.secs s.db }
  | .restart => { s with daemon := {} }

def State.init : State := { db := Db.init }

/-- One pass of the loop: a gap skips the jobs, else each runs when it is due. -/
def loopPass (cfg : Config) (tz : TimeZone) (s : State) (r : Reading)
    (rollupDue : Option Faults) (retainDue : Option WallClock) : State :=
  let s := tick cfg tz s r
  if gapBranch cfg r then s
  else
    let s := match rollupDue with
      | some f => { s with db := rollupCall (Level.floor tz) f s.db }
      | none => s
    match retainDue with
    | some now => { s with db := enforceRetention cfg now.secs s.db }
    | none => s

def stopRequested (cfg : Config) (tz : TimeZone) (s : State) (f : Faults) (now : WallClock) :
    State :=
  { s with db := enforceRetention cfg now.secs (rollupCall (Level.floor tz) f s.db) }

def passEvents (cfg : Config) (r : Reading) (rollupDue : Option Faults)
    (retainDue : Option WallClock) : List Event :=
  .tick r :: if gapBranch cfg r then []
    else rollupDue.toList.map Event.rollup ++ retainDue.toList.map Event.retain

theorem loopPass_eq (cfg : Config) (tz : TimeZone) (s : State) (r : Reading)
    (rollupDue : Option Faults) (retainDue : Option WallClock) :
    loopPass cfg tz s r rollupDue retainDue =
      (passEvents cfg r rollupDue retainDue).foldl (step cfg tz) s := by
  unfold loopPass passEvents
  cases hg : gapBranch cfg r
  · cases rollupDue <;> cases retainDue <;> rfl
  · rfl

theorem stopRequested_eq (cfg : Config) (tz : TimeZone) (s : State) (f : Faults)
    (now : WallClock) :
    stopRequested cfg tz s f now = [Event.rollup f, .retain now].foldl (step cfg tz) s := rfl

/-! ## What a tick can do -/

def tickCounts (cfg : Config) (d : Daemon) (r : Reading) (iface : String)
    (now : UInt64 × UInt64) : Option Counts :=
  ((ifaceDelta cfg r d.prev (iface,now)).bind perIf).map
    (sampleCounts cfg (lanDelta cfg d r) (perTotals (perIfs cfg d r)))

theorem sampleRows_eq (cfg : Config) (d : Daemon) (r : Reading) :
    sampleRows cfg d r = (r.totals.filterMapVal (tickCounts cfg d r)).rows := by
  have hname : ∀ (e : String × UInt64 × UInt64) (p : PerIf),
      (ifaceDelta cfg r d.prev e).bind perIf = some p → p.iface = e.1 := by
    intro e p hp
    obtain ⟨x, hx, hp⟩ := Option.bind_eq_some_iff.mp hp
    have hx' : x.iface = e.1 := by
      unfold ifaceDelta at hx
      split at hx
      · simp at hx
      · obtain ⟨o, -, rfl⟩ := Option.map_eq_some_iff.mp hx
        rfl
    unfold perIf at hp
    split at hp
    · obtain rfl := Option.some.inj hp
      exact hx'
    · simp at hp
  unfold sampleRows
  dsimp only
  generalize htot : perTotals (perIfs cfg d r) = tot
  unfold perIfs ifaceDeltas Table.filterMapVal tickCounts
  rw [List.filterMap_filterMap, List.map_filterMap]
  refine List.filterMap_congr (fun e _ => ?_)
  rw [htot]
  cases hp : (ifaceDelta cfg r d.prev e).bind perIf with
  | none => simp
  | some p => simp [hname e p hp]

theorem sampleRows_nodup (cfg : Config) (d : Daemon) (r : Reading) :
    ((sampleRows cfg d r).map (·.1)).Nodup := by
  rw [sampleRows_eq]
  exact Table.keys_nodup _

inductive Direction where
  | rx | tx
  deriving DecidableEq, Repr

def Direction.counter : Direction → UInt64 × UInt64 → UInt64
  | .rx => Prod.fst
  | .tx => Prod.snd

def Direction.column : Direction → Counts →+ ℤ
  | .rx => Counts.rxHom
  | .tx => Counts.txHom

@[simp] theorem Direction.column_rx (c : Counts) : Direction.rx.column c = c.rx := rfl

@[simp] theorem Direction.column_tx (c : Counts) : Direction.tx.column c = c.tx := rfl

def accepted (cfg : Config) (d : Daemon) (r : Reading) (i : String) (dir : Direction) : ℤ :=
  match r.totals.lookup i, d.prev.lookup i with
  | some n, some o =>
    if cfg.excluded i then 0
    else asI64 (delta (dir.counter o) (dir.counter n) (maxBytesPerTick cfg (r.speed i))).1
  | _, _ => 0

theorem column_sampleRows (cfg : Config) (d : Daemon) (r : Reading) (i : String)
    (dir : Direction) :
    dir.column (value (total (fun k => k = i) (sampleRows cfg d r))) =
      accepted cfg d r i dir := by
  rw [sampleRows_eq, Table.total_key, Table.value_cell, Table.lookup_filterMapVal]
  unfold accepted tickCounts ifaceDelta
  cases hn : r.totals.lookup i with
  | none => simp
  | some n =>
    cases ho : d.prev.lookup i with
    | none => cases hx : cfg.excluded i <;> simp [hx, ho]
    | some o =>
      cases hx : cfg.excluded i with
      | true => simp [hx]
      | false =>
        simp only [hx, ho, perIf, Option.bind_some, Option.map_some, Bool.false_eq_true, if_false]
        split
        · cases dir <;> simp [sampleCounts, Direction.counter]
        · next hz =>
          -- no row: both accepted deltas are zero
          simp only [not_or, UInt64.not_lt, UInt64.le_zero_iff] at hz
          cases dir <;> simp [Direction.counter, hz]

theorem sampleRows_nil_insert (db : Db) (ts : ℤ) : db.insertSamples ts [] = db := rfl

theorem recordSamples_eq (cfg : Config) (tz : TimeZone) (r : Reading)
    (rows : List (String × Counts)) (db : Db) :
    ∃ events, recordSamples cfg tz r rows db =
      { db.insertSamples r.nowWall.secs rows with budgetEvents := events } := by
  unfold recordSamples
  split
  · next h =>
    rw [List.isEmpty_iff] at h
    exact ⟨db.budgetEvents, by rw [h, sampleRows_nil_insert]⟩
  · exact checkBudget_eq cfg tz _ _

/-- A tick that is no gap inserts its rows under one timestamp, adds its per-app
bytes under one hour, and touches no rollup table. -/
structure Ticked (cfg : Config) (tz : TimeZone) (s : State) (r : Reading) (s' : State) : Prop where
  samples : s'.db.samples =
    (s.db.insertSamples r.nowWall.secs (sampleRows cfg s.daemon r)).samples
  level : ∀ L, s'.db.level L = s.db.level L
  marker : s'.db.lastRollupTs = s.db.lastRollupTs
  proc : s'.db.procHourly = if cfg.procRecording then
    s.db.procHourly.addAll (procRows (floorHour tz r.nowWall.secs) r.procDeltas)
    else s.db.procHourly
  prev : s'.daemon.prev = r.totals.filter (fun i => !cfg.excluded i)
  prevLan : s'.daemon.prevLan = r.lanNow

theorem reportNft_eq (d : Daemon) (lanNow : Option (UInt64 × UInt64)) (db : Db) :
    ∃ o, reportNft d lanNow db = { db with nftOk := o } := by
  unfold reportNft
  split
  · exact ⟨db.nftOk, rfl⟩
  · exact ⟨_, rfl⟩

theorem countDiscarded_eq (n : ℕ) (db : Db) :
    ∃ o, countDiscarded n db = { db with discardedSamples := o } := by
  unfold countDiscarded
  split
  · exact ⟨_, rfl⟩
  · exact ⟨db.discardedSamples, rfl⟩

theorem ticked {cfg : Config} {r : Reading} (h : gapBranch cfg r = false) (tz : TimeZone)
    (s : State) : Ticked cfg tz s r (tick cfg tz s r) := by
  obtain ⟨o, ho⟩ := reportNft_eq s.daemon r.lanNow s.db
  obtain ⟨n, hn⟩ := countDiscarded_eq (discarded cfg s.daemon r) { s.db with nftOk := o }
  obtain ⟨events, he⟩ := recordSamples_eq cfg tz r (sampleRows cfg s.daemon r)
    { s.db with nftOk := o, discardedSamples := n }
  have hdb : (tick cfg tz s r).db = recordProc cfg tz r
      { (Db.insertSamples { s.db with nftOk := o, discardedSamples := n } r.nowWall.secs
        (sampleRows cfg s.daemon r)) with budgetEvents := events } := by
    rw [← he, ← hn, ← ho]
    simp [tick, tickSamples, h]
  constructor
  · rw [hdb]
    unfold recordProc
    split <;> rfl
  · intro L
    rw [hdb]
    unfold recordProc
    split <;> cases L <;> rfl
  · rw [hdb]
    unfold recordProc
    split <;> rfl
  · rw [hdb]
    unfold recordProc
    split <;> rfl
  · simp [tick, tickSamples, h]
  · simp [tick, tickSamples, h]

@[simp] theorem procHourly_tickSamples (cfg : Config) (tz : TimeZone) (s : State) (r : Reading) :
    (tickSamples cfg tz s r).db.procHourly = s.db.procHourly := by
  unfold tickSamples
  split
  · rfl
  · obtain ⟨o, ho⟩ := reportNft_eq s.daemon r.lanNow s.db
    obtain ⟨n, hn⟩ := countDiscarded_eq (discarded cfg s.daemon r) { s.db with nftOk := o }
    obtain ⟨events, he⟩ := recordSamples_eq cfg tz r (sampleRows cfg s.daemon r)
      { s.db with nftOk := o, discardedSamples := n }
    dsimp only
    rw [ho, hn, he]
    rfl

theorem tick_gap {cfg : Config} {r : Reading} (h : gapBranch cfg r = true) (tz : TimeZone)
    (s : State) : tick cfg tz s r =
      { s with daemon := { s.daemon with prev := ∅, prevLan := r.lanNow } } := by
  simp [tick, tickSamples, h]

/-- A tick five seconds after the last one that sees `eth0` alone. -/
def rxReading (ts : ℕ) (rx : UInt64) : Reading where
  gap := 5
  nowWall := .at ts
  totals := (∅ : Table String (UInt64 × UInt64)).set "eth0" (rx,0)

end Netmeter
