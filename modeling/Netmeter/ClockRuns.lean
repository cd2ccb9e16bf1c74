import Netmeter.Traffic
set_option autoImplicit false

/-!
Ticks under any wall clock: `samples` is keyed by a clock that may step back or
stand still, and an upsert replaces the row it finds.
-/

namespace Netmeter
open Keyed Transaction

/-- The bytes a tick accepts for an interface, before the cast to `i64`. -/
def acceptedDelta (cfg : Config) (d : Daemon) (r : Reading) (i : String) (dir : Direction) : ℕ :=
  match r.totals.lookup i, d.prev.lookup i with
  | some n, some o =>
    if cfg.excluded i then 0
    else (delta (dir.counter o) (dir.counter n) (maxBytesPerTick cfg (r.speed i))).1.toNat
  | _, _ => 0

theorem accepted_eq (cfg : Config) (d : Daemon) (r : Reading) (i : String) (dir : Direction) :
    accepted cfg d r i dir = wrapI64 (acceptedDelta cfg d r i dir) := by
  have hzero : wrapI64 ((0 : ℕ) : ℤ) = 0 := wrapI64_of_bounds (by norm_num)
  unfold accepted acceptedDelta
  cases r.totals.lookup i with
  | none => simp only [hzero]
  | some n =>
    cases d.prev.lookup i with
    | none => simp only [hzero]
    | some o =>
      cases cfg.excluded i with
      | true => simp only [if_true, hzero]
      | false => simp only [Bool.false_eq_true, if_false, asI64]

theorem acceptedDelta_lt (cfg : Config) (d : Daemon) (r : Reading) (i : String)
    (dir : Direction) : acceptedDelta cfg d r i dir < 2 ^ 64 := by
  unfold acceptedDelta
  split
  · split
    · norm_num
    · exact UInt64.toNat_lt _
  · norm_num

theorem perIf_eq_none_iff (x : IfaceDelta) :
    perIf x = none ↔ x.rx.1.toNat = 0 ∧ x.tx.1.toNat = 0 := by
  unfold perIf
  simp [UInt64.lt_iff_toNat_lt]

theorem tickCounts_eq_none_iff (cfg : Config) (d : Daemon) (r : Reading) (i : String) :
    (r.totals.filterMapVal (tickCounts cfg d r)).lookup i = none ↔
      acceptedDelta cfg d r i .rx = 0 ∧ acceptedDelta cfg d r i .tx = 0 := by
  rw [Table.lookup_filterMapVal]
  unfold acceptedDelta tickCounts ifaceDelta
  cases hn : r.totals.lookup i with
  | none => simp
  | some n =>
    cases ho : d.prev.lookup i with
    | none => simp [ho]
    | some o =>
      cases hx : cfg.excluded i with
      | true => simp [hx]
      | false => simp [hx, ho, perIf_eq_none_iff, Direction.counter]

theorem lookup_tick {cfg : Config} {r : Reading} (hgap : gapBranch cfg r = false) (tz : TimeZone)
    (s : State) (k : Key) :
    (tick cfg tz s r).db.samples.lookup k =
      if k.ts = r.nowWall.secs then
        ((r.totals.filterMapVal (tickCounts cfg s.daemon r)).lookup k.name).or
          (s.db.samples.lookup k)
      else s.db.samples.lookup k := by
  obtain ⟨ts,i⟩ := k
  rw [(ticked hgap tz s).samples, samples_insertSamples, Table.lookup_setAll, sampleRows_eq]
  split
  · next hts =>
    obtain rfl : ts = r.nowWall.secs := hts
    rw [tickRows, Table.lastValue_rekey (g := fun n : String => (⟨r.nowWall.secs,n⟩ : Key))
      (fun a b h => congrArg Key.name h), Table.lastValue_rows]
  · next hts =>
    rw [Table.lastValue_eq_none (fun x hx he => hts (by rw [← he, ts_of_mem_tickRows hx]))]
    rfl

theorem ifaceTotal_tick_any {cfg : Config} {r : Reading} (hgap : gapBranch cfg r = false)
    (tz : TimeZone) (s : State) (i : String) (dir : Direction) :
    dir.column ((tick cfg tz s r).db.ifaceTotal i) =
      dir.column (s.db.ifaceTotal i) -
        (if (r.totals.filterMapVal (tickCounts cfg s.daemon r)).lookup i = none then 0
          else dir.column (value (s.db.samples.cell ⟨r.nowWall.secs,i⟩))) +
        accepted cfg s.daemon r i dir := by
  have hsplit : ∀ db : Db, db.ifaceTotal i = value (db.samples.cell ⟨r.nowWall.secs,i⟩) +
      value (total (fun k => k.name = i && !decide (k = ⟨r.nowWall.secs,i⟩)) db.samples.rows) := by
    intro db
    unfold Db.ifaceTotal
    rw [total_split _ (fun k => k = ⟨r.nowWall.secs,i⟩), value_add, ← Table.total_key]
    congr 2
    refine total_congr (fun x _ => ?_)
    by_cases hx : x.1 = ⟨r.nowWall.secs,i⟩ <;> simp [hx]
  have hother : total (fun k => k.name = i && !decide (k = ⟨r.nowWall.secs,i⟩))
      (tick cfg tz s r).db.samples.rows =
      total (fun k => k.name = i && !decide (k = ⟨r.nowWall.secs,i⟩)) s.db.samples.rows := by
    rw [(ticked hgap tz s).samples]
    exact total_insertSamples (fun k hk => by simp [Key.ext_iff, hk]) s.db _
  have hcell : (tick cfg tz s r).db.samples.cell ⟨r.nowWall.secs,i⟩ =
      ((r.totals.filterMapVal (tickCounts cfg s.daemon r)).lookup i).or
        (s.db.samples.cell ⟨r.nowWall.secs,i⟩) := by
    unfold Table.cell
    rw [lookup_tick hgap, if_pos rfl]
  have hrow : dir.column (((r.totals.filterMapVal (tickCounts cfg s.daemon r)).lookup i).getD 0) =
      accepted cfg s.daemon r i dir := by
    rw [← column_sampleRows, sampleRows_eq, Table.total_key, Table.value_cell]
  rw [hsplit, hsplit, hother, hcell, map_add, map_add, ← hrow]
  cases (r.totals.filterMapVal (tickCounts cfg s.daemon r)).lookup i with
  | none => simp [Option.or]
  | some c =>
    rw [if_neg (by simp)]
    show dir.column c + _ = _
    simp only [Option.getD_some]
    ring

/-- The daemon with what its ticks have accepted so far. -/
structure Clocked where
  state : State
  deltas : String → Direction → ℕ

inductive ClockEvent where
  | tick (r : Reading)
  | rollup (f : Faults)
  | restart

def Clocked.init : Clocked := ⟨State.init, fun _ _ => 0⟩

def Clocked.step (cfg : Config) (tz : TimeZone) (c : Clocked) : ClockEvent → Clocked
  | .tick r =>
    { state := Netmeter.step cfg tz c.state (.tick r)
      deltas := fun i dir => c.deltas i dir +
        if gapBranch cfg r then 0 else acceptedDelta cfg c.state.daemon r i dir }
  | .rollup f => { c with state := Netmeter.step cfg tz c.state (.rollup f) }
  | .restart => { c with state := Netmeter.step cfg tz c.state .restart }

/-- No accepted delta is lost. -/
def Clocked.Recorded (c : Clocked) : Prop :=
  ∀ i dir, dir.column (c.state.db.ifaceTotal i) = c.deltas i dir

/-- Every accepted delta is below 2^63, and no interface with one has a row at
the tick's second. -/
def Clocked.Fresh (cfg : Config) (c : Clocked) : ClockEvent → Prop
  | .tick r => gapBranch cfg r = false → ∀ i dir,
      acceptedDelta cfg c.state.daemon r i dir < 2 ^ 63 ∧
        (acceptedDelta cfg c.state.daemon r i dir ≠ 0 →
          c.state.db.samples.lookup ⟨r.nowWall.secs,i⟩ = none)
  | _ => True

/-- Rows are written by ticks alone: none is empty, and each column is an `i64`. -/
def Db.Solid (db : Db) : Prop :=
  ∀ k c, db.samples.lookup k = some c →
    (∃ dir : Direction, dir.column c ≠ 0) ∧
      ∀ dir : Direction, -(2 ^ 63) ≤ dir.column c ∧ dir.column c < 2 ^ 63

theorem wrapI64_bounds (x : ℤ) : -(2 ^ 63) ≤ wrapI64 x ∧ wrapI64 x < 2 ^ 63 := by
  unfold wrapI64
  have hlo := Int.le_bmod (x := x) (m := 2 ^ 64) (by norm_num)
  have hhi := Int.bmod_lt (x := x) (m := 2 ^ 64) (by norm_num)
  omega

theorem wrapI64_natCast {n : ℕ} (h : n < 2 ^ 64) :
    wrapI64 n = if n < 2 ^ 63 then (n : ℤ) else n - 2 ^ 64 := by
  split
  · exact wrapI64_of_bounds (by omega)
  · unfold wrapI64
    rw [← Int.sub_bmod_right, Int.bmod_eq_of_le] <;> omega

theorem column_tickRow {cfg : Config} {d : Daemon} {r : Reading} {i : String} {c : Counts}
    (h : (r.totals.filterMapVal (tickCounts cfg d r)).lookup i = some c) (dir : Direction) :
    dir.column c = accepted cfg d r i dir := by
  rw [← column_sampleRows, sampleRows_eq, Table.total_key, Table.value_cell, h]
  rfl

theorem solid_init : Clocked.init.state.db.Solid := by
  intro k c h
  simp [Clocked.init, State.init, Db.init] at h

theorem solid_tick {cfg : Config} {r : Reading} (hgap : gapBranch cfg r = false) (tz : TimeZone)
    {s : State} (h : s.db.Solid) : (tick cfg tz s r).db.Solid := by
  intro k c hk
  rw [lookup_tick hgap] at hk
  split at hk
  · rcases Option.or_eq_some_iff.mp hk with hrow | ⟨-, hold⟩
    · have hcol := column_tickRow hrow
      refine ⟨?_, fun dir => ?_⟩
      · -- a row is there because one of the two deltas is not zero
        by_contra hz
        simp only [not_exists, not_not] at hz
        have hdelta : ∀ dir, acceptedDelta cfg s.daemon r k.name dir = 0 := by
          intro dir
          have hw := wrapI64_natCast (acceptedDelta_lt cfg s.daemon r k.name dir)
          have hlt := acceptedDelta_lt cfg s.daemon r k.name dir
          rw [← accepted_eq, ← hcol, hz] at hw
          split at hw <;> omega
        rw [(tickCounts_eq_none_iff cfg s.daemon r k.name).mpr ⟨hdelta .rx, hdelta .tx⟩] at hrow
        simp at hrow
      · rw [hcol, accepted_eq]
        exact wrapI64_bounds _
    · exact h k c hold
  · exact h k c hk

theorem solid_step (cfg : Config) (tz : TimeZone) (c : Clocked) (e : ClockEvent)
    (h : c.state.db.Solid) : (c.step cfg tz e).state.db.Solid := by
  cases e with
  | tick r =>
    show (tick cfg tz c.state r).db.Solid
    cases hgap : gapBranch cfg r with
    | true => rwa [tick_gap hgap]
    | false => exact solid_tick hgap tz h
  | rollup f =>
    intro k v hk
    change (rollupCall _ f c.state.db).samples.lookup k = some v at hk
    rw [samples_rollupCall] at hk
    exact h k v hk
  | restart => exact h

theorem recorded_tick_sums {cfg : Config} {r : Reading} (hgap : gapBranch cfg r = false)
    (tz : TimeZone) {c : Clocked} (h : c.Recorded) :
    (c.step cfg tz (.tick r)).Recorded ↔ ∀ i dir,
      (if (r.totals.filterMapVal (tickCounts cfg c.state.daemon r)).lookup i = none then 0
          else dir.column (value (c.state.db.samples.cell ⟨r.nowWall.secs,i⟩))) +
        acceptedDelta cfg c.state.daemon r i dir = accepted cfg c.state.daemon r i dir := by
  refine forall_congr' (fun i => forall_congr' (fun dir => ?_))
  show dir.column ((tick cfg tz c.state r).db.ifaceTotal i) = ((c.deltas i dir + _ : ℕ) : ℤ) ↔ _
  rw [ifaceTotal_tick_any hgap, h i dir, hgap, if_neg Bool.false_ne_true]
  push_cast
  constructor <;> intro hd <;> linarith

theorem recorded_tick_iff {cfg : Config} {r : Reading} (hgap : gapBranch cfg r = false)
    (tz : TimeZone) {c : Clocked} (hsolid : c.state.db.Solid) (h : c.Recorded) :
    (c.step cfg tz (.tick r)).Recorded ↔ c.Fresh cfg (.tick r) := by
  rw [recorded_tick_sums hgap tz h]
  simp only [Clocked.Fresh, hgap, true_implies]
  refine forall_congr' (fun i => ?_)
  have hcast : ∀ dir, accepted cfg c.state.daemon r i dir =
      if acceptedDelta cfg c.state.daemon r i dir < 2 ^ 63
      then (acceptedDelta cfg c.state.daemon r i dir : ℤ)
      else acceptedDelta cfg c.state.daemon r i dir - 2 ^ 64 := fun dir => by
    rw [accepted_eq, wrapI64_natCast (acceptedDelta_lt ..)]
  have hnone := tickCounts_eq_none_iff cfg c.state.daemon r i
  cases hrow : (r.totals.filterMapVal (tickCounts cfg c.state.daemon r)).lookup i with
  | none =>
    obtain ⟨hrx, htx⟩ := hnone.mp hrow
    have hzero : ∀ dir, acceptedDelta cfg c.state.daemon r i dir = 0 := fun dir => by
      cases dir <;> assumption
    simp [hcast, hzero]
  | some v =>
    have hsome : ¬ ∀ dir, acceptedDelta cfg c.state.daemon r i dir = 0 := fun hz => by
      rw [hnone.mpr ⟨hz .rx, hz .tx⟩] at hrow
      simp at hrow
    simp only [reduceCtorEq, if_false, Table.value_cell]
    cases hold : c.state.db.samples.lookup ⟨r.nowWall.secs,i⟩ with
    | none =>
      refine forall_congr' (fun dir => ?_)
      rw [hcast]
      have hlt := acceptedDelta_lt cfg c.state.daemon r i dir
      simp only [Option.getD_none, map_zero, implies_true, and_true]
      split <;> constructor <;> intro <;> omega
    | some w =>
      -- the row that is replaced counted in one of the two sums
      obtain ⟨⟨dir, hne⟩, hbounds⟩ := hsolid _ w hold
      simp only [Option.getD_some, reduceCtorEq]
      refine iff_of_false (fun hall => ?_) (fun hfresh => hsome (fun dir => ?_))
      · have hd := hall dir
        have hb := hbounds dir
        have hlt := acceptedDelta_lt cfg c.state.daemon r i dir
        rw [hcast] at hd
        split at hd <;> omega
      · by_contra hd
        exact (hfresh dir).2 hd

theorem recorded_step_iff (cfg : Config) (tz : TimeZone) (c : Clocked) (e : ClockEvent)
    (hsolid : c.state.db.Solid) (h : c.Recorded) :
    (c.step cfg tz e).Recorded ↔ c.Fresh cfg e := by
  cases e with
  | tick r =>
    cases hgap : gapBranch cfg r with
    | false => exact recorded_tick_iff hgap tz hsolid h
    | true =>
      refine iff_of_true (fun i dir => ?_) (fun hg => by simp [hgap] at hg)
      show dir.column ((tick cfg tz c.state r).db.ifaceTotal i) = ((c.deltas i dir + _ : ℕ) : ℤ)
      rw [tick_gap hgap, hgap, if_pos rfl]
      exact h i dir
  | rollup f =>
    refine iff_of_true (fun i dir => ?_) trivial
    show dir.column ((rollupCall (Level.floor tz) f c.state.db).ifaceTotal i) = _
    unfold Db.ifaceTotal
    rw [samples_rollupCall]
    exact h i dir
  | restart => exact iff_of_true h trivial

/-- Along every run without retention, whatever the clock does, the rows of every
interface add up to what was accepted for it after each event exactly when no
tick finds one of its rows already there. -/
theorem accepted_recorded_iff (cfg : Config) (tz : TimeZone) (es : List ClockEvent) :
    (∀ pre, pre <+: es → (pre.foldl (Clocked.step cfg tz) Clocked.init).Recorded) ↔
      Along (Clocked.step cfg tz) (Clocked.Fresh cfg) Clocked.init es := by
  refine along_iff_prefixes (fun c : Clocked => c.state.db.Solid) Clocked.Recorded
    (solid_step cfg tz) (recorded_step_iff cfg tz) solid_init (fun i dir => ?_)
  show dir.column (value 0) = ((0 : ℕ) : ℤ)
  simp

def steppedBackRun : List ClockEvent :=
  [.tick (rxReading 1800000000 1000), .tick (rxReading 1800000005 2000),
    .tick (rxReading 1800000005 3000)]

/-- The third tick replaces the row of the second. -/
theorem not_accepted_recorded :
    ¬ ∀ (cfg : Config) (tz : TimeZone) (es : List ClockEvent), ∀ pre, pre <+: es →
      (pre.foldl (Clocked.step cfg tz) Clocked.init).Recorded := by
  intro h
  have hd := h {} .utc steppedBackRun steppedBackRun (List.prefix_refl _) "eth0" .rx
  exact absurd hd (by decide +kernel)

end Netmeter
