import Netmeter.CountedOnce
import Netmeter.Traffic
set_option autoImplicit false

/-!
What the daemon records of an interface's traffic and what it misses: suspends,
restarts, absent interfaces and discarded spikes, in runs at any clock.
-/

namespace Netmeter
open Keyed Transaction

/-- Every byte that the interface carried: recorded, carried before there was a baseline
to measure it from, over the bound, or not yet read. `watched` is whether the
last reading was taken by this process and no suspend or absence came after it. -/
structure Meter where
  watched : Bool := false
  recorded : ℕ := 0
  unwatched : ℕ := 0
  spikes : ℕ := 0
  pending : ℕ := 0
  deriving DecidableEq

namespace Meter

def count (m : Meter) : ℕ := m.recorded + m.unwatched + m.spikes + m.pending

def read (m : Meter) (bound : ℕ) : Meter :=
  if m.watched then
    if m.pending ≤ bound then { m with recorded := m.recorded + m.pending, pending := 0 }
    else { m with spikes := m.spikes + m.pending, pending := 0 }
  else { m with watched := true, unwatched := m.unwatched + m.pending, pending := 0 }

def carry (m : Meter) (bytes : ℕ) : Meter := { m with pending := m.pending + bytes }

def interrupt (m : Meter) : Meter := { m with watched := false }

/-- The bytes carried since the last event, then the event. -/
def step (cfg : Config) (i : String) (m : Meter) (e : Event × ℕ) : Meter :=
  let m := m.carry e.2
  match e.1 with
  | .tick r =>
    if gapBranch cfg r then m.interrupt
    else if (r.totals.lookup i).isSome then m.read (maxBytesPerTick cfg (r.speed i)).toNat
    else m.interrupt
  | .restart => m.interrupt
  | _ => m

/-- A reading that names the interface shows the bytes it has carried, under a bound
that `as i64` keeps positive. -/
def Shown (cfg : Config) (i : String) (dir : Direction) (m : Meter) (e : Event × ℕ) : Prop :=
  ∀ r, e.1 = .tick r → (maxBytesPerTick cfg (r.speed i)).toNat < 9223372036854775808 ∧
    ∀ n, r.totals.lookup i = some n → (dir.counter n).toNat = m.count + e.2

@[simp] theorem count_carry (m : Meter) (bytes : ℕ) : (m.carry bytes).count = m.count + bytes := by
  simp only [count, carry]
  omega

@[simp] theorem count_interrupt (m : Meter) : m.interrupt.count = m.count := rfl

@[simp] theorem count_read (m : Meter) (bound : ℕ) : (m.read bound).count = m.count := by
  unfold read
  split
  · split
    · simp only [count]
      omega
    · simp only [count]
      omega
  · simp only [count]
    omega

theorem count_step (cfg : Config) (i : String) (m : Meter) (e : Event × ℕ) :
    (m.step cfg i e).count = m.count + e.2 := by
  obtain ⟨e, bytes⟩ := e
  cases e with
  | tick r =>
    unfold step
    dsimp only
    split
    · simp
    · split <;> simp
  | rollup f => simp [step]
  | retain now => simp [step]
  | restart => simp [step]

end Meter

variable {cfg : Config} {tz : TimeZone} {i : String} {dir : Direction} {m : Meter} {s : State}

/-- The daemon has a baseline exactly while the meter is watched: the counter at the
last reading. -/
structure Meter.Tracks (i : String) (dir : Direction) (m : Meter) (s : State) : Prop where
  watched : m.watched = true → ∃ o, s.daemon.prev.lookup i = some o ∧
    (dir.counter o).toNat + m.pending = m.count
  unwatched : m.watched = false → s.daemon.prev.lookup i = none

theorem tracks_init : ({} : Meter).Tracks i dir State.init :=
  ⟨fun h => Bool.noConfusion h, fun _ => rfl⟩

theorem tracks_interrupt (h : s.daemon.prev.lookup i = none) : m.interrupt.Tracks i dir s :=
  ⟨fun hw => Bool.noConfusion hw, fun _ => h⟩

theorem tracks_carry (h : m.Tracks i dir s) (bytes : ℕ) : (m.carry bytes).Tracks i dir s where
  watched hw := by
    obtain ⟨o, ho, hcount⟩ := h.watched hw
    refine ⟨o, ho, ?_⟩
    rw [Meter.count_carry, ← hcount]
    exact (Nat.add_assoc _ _ _).symm
  unwatched := h.unwatched

theorem accepted_read (hi : cfg.excluded i = false) {r : Reading} {n : UInt64 × UInt64}
    (hbound : (maxBytesPerTick cfg (r.speed i)).toNat < 9223372036854775808)
    (h : m.Tracks i dir s) (hn : r.totals.lookup i = some n)
    (hcount : (dir.counter n).toNat = m.count) :
    accepted cfg s.daemon r i dir + m.recorded =
      (m.read (maxBytesPerTick cfg (r.speed i)).toNat).recorded := by
  unfold accepted Meter.read
  cases hw : m.watched with
  | false => simp [hn, h.unwatched hw]
  | true =>
    obtain ⟨o, ho, hold⟩ := h.watched hw
    have hdelta : (delta (dir.counter o) (dir.counter n)
        (maxBytesPerTick cfg (r.speed i))).1.toNat =
          if (maxBytesPerTick cfg (r.speed i)).toNat < m.pending then 0 else m.pending := by
      rw [delta_toNat, deltaNat_of_le (by omega), hcount]
      have hdiff : m.count - (dir.counter o).toNat = m.pending := by omega
      rw [hdiff]
    have hlt : (delta (dir.counter o) (dir.counter n)
        (maxBytesPerTick cfg (r.speed i))).1.toNat < 9223372036854775808 := by
      rw [hdelta]
      split <;> omega
    simp only [hn, ho, hi, Bool.false_eq_true, if_false, if_true]
    rw [asI64_of_lt hlt, hdelta]
    by_cases hfits : m.pending ≤ (maxBytesPerTick cfg (r.speed i)).toNat
    · rw [if_neg (not_lt.mpr hfits), if_pos hfits]
      push_cast
      omega
    · rw [if_pos (not_le.mp hfits), if_neg hfits]
      simp

theorem tracks_read {bound : ℕ} {n : UInt64 × UInt64} (hn : s.daemon.prev.lookup i = some n)
    (hcount : (dir.counter n).toNat = m.count) : (m.read bound).Tracks i dir s := by
  have hwatched : (m.read bound).watched = true := by
    unfold Meter.read
    split
    · next hw => split <;> exact hw
    · rfl
  have hpending : (m.read bound).pending = 0 := by
    unfold Meter.read
    split
    · split <;> rfl
    · rfl
  refine ⟨fun _ => ⟨n, hn, ?_⟩, fun hw => by simp [hwatched] at hw⟩
  rw [hpending, Meter.count_read, hcount]
  rfl

def ifaceBytes (i : String) (dir : Direction) (rows : List Sample) : ℤ :=
  dir.column (value (total (fun k => k.name = i) rows))

theorem ifaceBytes_append (i : String) (dir : Direction) (rows rows' : List Sample) :
    ifaceBytes i dir (rows ++ rows') = ifaceBytes i dir rows + ifaceBytes i dir rows' := by
  unfold ifaceBytes
  rw [total_append, value_add, map_add]

theorem ifaceBytes_nil (i : String) (dir : Direction) : ifaceBytes i dir [] = 0 :=
  map_zero dir.column

theorem ifaceBytes_tick {r : Reading} (hgap : gapBranch cfg r = false) (d : Daemon) :
    ifaceBytes i dir (rowsOf cfg d (.tick r)) = accepted cfg d r i dir := by
  rw [ifaceBytes, rowsOf, hgap, ← column_sampleRows, ← total_tickRows i r.nowWall.secs]
  rfl

theorem meter_step (hi : cfg.excluded i = false) (h : m.Tracks i dir s) {e : Event × ℕ}
    (he : m.Shown cfg i dir e) : (m.step cfg i e).Tracks i dir (step cfg tz s e.1) ∧
      ifaceBytes i dir (rowsOf cfg s.daemon e.1) + m.recorded = (m.step cfg i e).recorded := by
  obtain ⟨e, bytes⟩ := e
  have hcarry := tracks_carry h bytes
  cases e with
  | tick r =>
    obtain ⟨hbound, hshown⟩ := he r rfl
    unfold Meter.step
    dsimp only
    cases hgap : gapBranch cfg r with
    | true =>
      -- the tick forgets every baseline
      rw [if_pos rfl, step, tick_gap hgap]
      refine ⟨tracks_interrupt rfl, ?_⟩
      simp [rowsOf, hgap, ifaceBytes_nil, Meter.interrupt, Meter.carry]
    | false =>
      have hprev : (step cfg tz s (.tick r)).daemon.prev.lookup i = r.totals.lookup i := by
        rw [step, (ticked hgap tz s).prev, Table.lookup_filter]
        simp [hi]
      rw [ifaceBytes_tick hgap, if_neg (by simp)]
      cases hn : r.totals.lookup i with
      | none =>
        refine ⟨tracks_interrupt (hprev.trans hn), ?_⟩
        simp [accepted, hn, Meter.interrupt, Meter.carry]
      | some n =>
        have hcount : (dir.counter n).toNat = (m.carry bytes).count := by
          rw [hshown n hn, Meter.count_carry]
        exact ⟨tracks_read (hprev.trans hn) hcount, accepted_read hi hbound hcarry hn hcount⟩
  | rollup f =>
    exact ⟨⟨hcarry.watched, hcarry.unwatched⟩,
      by simp [rowsOf, ifaceBytes_nil, Meter.step, Meter.carry]⟩
  | retain now =>
    exact ⟨⟨hcarry.watched, hcarry.unwatched⟩,
      by simp [rowsOf, ifaceBytes_nil, Meter.step, Meter.carry]⟩
  | restart =>
    exact ⟨tracks_interrupt rfl,
      by simp [rowsOf, ifaceBytes_nil, Meter.step, Meter.carry, Meter.interrupt]⟩

theorem meter_run (hi : cfg.excluded i = false) {es : List (Event × ℕ)} (h : m.Tracks i dir s)
    (hes : Along (Meter.step cfg i) (Meter.Shown cfg i dir) m es) :
    ifaceBytes i dir (written cfg tz s (es.map (·.1))) + m.recorded =
      (es.foldl (Meter.step cfg i) m).recorded := by
  induction es generalizing m s with
  | nil => simp [written, ifaceBytes_nil]
  | cons e es ih =>
    obtain ⟨he, hes⟩ := hes
    obtain ⟨htracks, hrows⟩ : (m.step cfg i e).Tracks i dir (step cfg tz s e.1) ∧
        ifaceBytes i dir (rowsOf cfg s.daemon e.1) + m.recorded = (m.step cfg i e).recorded :=
      meter_step hi h he
    have hrest := ih htracks hes
    rw [List.map_cons, written, ifaceBytes_append, List.foldl_cons, ← hrest, ← hrows]
    ring

theorem count_run (cfg : Config) (i : String) (m : Meter) (es : List (Event × ℕ)) :
    (es.foldl (Meter.step cfg i) m).count = m.count + (es.map (·.2)).sum := by
  induction es generalizing m with
  | nil => simp
  | cons e es ih =>
    rw [List.foldl_cons, ih, Meter.count_step, List.map_cons, List.sum_cons, add_assoc]

theorem shown_tick {r : Reading} {bytes : ℕ} {n : UInt64 × UInt64}
    (hbound : (maxBytesPerTick cfg (r.speed i)).toNat < 9223372036854775808)
    (hn : r.totals.lookup i = some n) (hcount : (dir.counter n).toNat = m.count + bytes) :
    m.Shown cfg i dir (.tick r, bytes) := by
  intro r' h
  obtain rfl := Event.tick.inj h
  refine ⟨hbound, fun n' hn' => ?_⟩
  obtain rfl := Option.some.inj (hn.symm.trans hn')
  exact hcount

theorem shown_other {e : Event} (h : ∀ r, e ≠ .tick r) (bytes : ℕ) :
    m.Shown cfg i dir (e, bytes) := fun r hr => absurd hr (h r)

def interrupted : List (Event × ℕ) :=
  [(.tick (rxReading 1000 1000), 1000), (.rollup noFaults, 100), (.tick (rxReading 1005 1500), 400),
    (.tick { rxReading 1900 1800 with gap := 900 }, 300), (.tick (rxReading 1905 2500), 700),
    (.tick (rxReading 1910 20000002500), 20000000000), (.restart, 50)]

end Netmeter
