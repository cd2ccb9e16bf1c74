import Netmeter.Daemon
set_option autoImplicit false

/-!
Runs of ticks and rollups over one interface, with its true byte counter as
ghost state: what `samples` adds up to.
-/

namespace Netmeter
open Keyed Transaction

def Db.ifaceTotal (db : Db) (i : String) : Counts :=
  value (total (fun k => k.name = i) db.samples.rows)

theorem total_tickRows (i : String) (ts : ℤ) (rows : List (String × Counts)) :
    total (fun k : Key => k.name = i) (tickRows ts rows) = total (fun n => n = i) rows := by
  unfold tickRows
  rw [total_rekey (fun n : String => (⟨ts,n⟩ : Key))]

theorem ifaceTotal_tick {cfg : Config} {r : Reading} {s : State} (hgap : gapBranch cfg r = false)
    (hts : ∀ x ∈ s.db.samples.rows, x.1.ts ≠ r.nowWall.secs) (tz : TimeZone) (i : String)
    (dir : Direction) :
    dir.column ((tick cfg tz s r).db.ifaceTotal i) =
      dir.column (s.db.ifaceTotal i) + accepted cfg s.daemon r i dir := by
  have hperm := insertSamples_perm hts (sampleRows_nodup cfg s.daemon r)
  unfold Db.ifaceTotal
  rw [(ticked hgap tz s).samples, total_perm _ hperm, total_append, value_add, map_add,
    total_tickRows, column_sampleRows]

/-- How a byte counter is shown: 64 bits wide, or modulo 2^32. -/
inductive Width where
  | bits32 | bits64
  deriving DecidableEq, Repr

def Width.modulus : Width → ℕ
  | .bits32 => 4294967296
  | .bits64 => 18446744073709551616

/-- Below the bound, wraps of a 32-bit counter and the growth of a 64-bit one are
measured exactly: the reset rule needs an old value more than a tick away from
the boundary, and no wrap starts there. -/
theorem deltaNat_exposed {w : Width} {c x b : ℕ} (hx : x ≤ b)
    (h32 : w = .bits32 → x < 4294967296) (h64 : w = .bits64 → c + x < 18446744073709551616) :
    deltaNat (c % w.modulus) ((c + x) % w.modulus) b = x := by
  cases w with
  | bits64 =>
    have hc := h64 rfl
    simp only [Width.modulus]
    rw [Nat.mod_eq_of_lt hc, Nat.mod_eq_of_lt (by omega), deltaNat_of_le (by omega)]
    rw [if_neg (by omega)]
    omega
  | bits32 =>
    have hlt := h32 rfl
    simp only [Width.modulus]
    by_cases hwrap : c % 4294967296 + x < 4294967296
    · have hn : (c + x) % 4294967296 = c % 4294967296 + x := by omega
      rw [hn, deltaNat_of_le (by omega), if_neg (by omega)]
      omega
    · have hn : (c + x) % 4294967296 = c % 4294967296 + x - 4294967296 := by omega
      have hd : diffNat (c % 4294967296) ((c + x) % 4294967296) = x := by
        unfold diffNat
        rw [if_neg (by omega), if_neg (by omega)]
        omega
      unfold deltaNat
      rw [if_neg (by omega), hd, if_neg (by omega)]

/-- The daemon with the interface's true counter at the last reading, and its
traffic since the first one. -/
structure Metered where
  state : State
  clock : Option ℤ
  count : Option ℕ
  traffic : ℕ

inductive MeterEvent where
  | tick (r : Reading) (bytes : ℕ)
  | rollup (f : Faults)

def Metered.step (cfg : Config) (tz : TimeZone) (m : Metered) : MeterEvent → Metered
  | .tick r bytes =>
    { state := Netmeter.step cfg tz m.state (.tick r)
      clock := some r.nowWall.secs
      count := some (m.count.getD 0 + bytes)
      traffic := if m.count.isSome then m.traffic + bytes else m.traffic }
  | .rollup f => { m with state := Netmeter.step cfg tz m.state (.rollup f) }

def Metered.init : Metered := ⟨State.init, none, none, 0⟩

/-- Nothing abnormal: no gap, a later clock, the interface read with its counter
modulo the width, and traffic within the bound since the last reading. -/
def Metered.Normal (cfg : Config) (i : String) (dir : Direction) (w : Width) (m : Metered) :
    MeterEvent → Prop
  | .tick r bytes =>
    gapBranch cfg r = false ∧ (∀ t, m.clock = some t → t < r.nowWall.secs) ∧
      (∃ n, r.totals.lookup i = some n ∧
        (dir.counter n).toNat = (m.count.getD 0 + bytes) % w.modulus) ∧
      (w = .bits64 → m.count.getD 0 + bytes < 18446744073709551616) ∧
      (m.count.isSome → bytes ≤ (maxBytesPerTick cfg (r.speed i)).toNat ∧
        bytes < 9223372036854775808 ∧ (w = .bits32 → bytes < 4294967296))
  | .rollup _ => True

/-- The baseline is the counter at the last reading, and `samples` holds the
traffic since the first. -/
structure Metered.Exact (i : String) (dir : Direction) (w : Width) (m : Metered) : Prop where
  past : ∀ x ∈ m.state.db.samples.rows, ∃ t, m.clock = some t ∧ x.1.ts ≤ t
  baseline : ∀ c, m.count = some c → ∃ o, m.state.daemon.prev.lookup i = some o ∧
    (dir.counter o).toNat = c % w.modulus
  fresh : m.count = none → m.state.daemon.prev.lookup i = none
  sum : dir.column (m.state.db.ifaceTotal i) = m.traffic

variable {cfg : Config} {tz : TimeZone} {i : String} {dir : Direction} {w : Width}

theorem exact_init : Metered.init.Exact i dir w where
  past x hx := by simp [Metered.init, State.init, Db.init] at hx
  baseline c hc := by simp [Metered.init] at hc
  fresh _ := rfl
  sum := by
    show dir.column (value 0) = _
    simp [Metered.init]

theorem accepted_normal {m : Metered} {r : Reading} {bytes : ℕ} (hi : cfg.excluded i = false)
    (h : m.Exact i dir w) (hn : m.Normal cfg i dir w (.tick r bytes)) :
    accepted cfg m.state.daemon r i dir = if m.count.isSome then (bytes : ℤ) else 0 := by
  obtain ⟨-, -, ⟨n, hlook, hval⟩, h64, hbound⟩ := hn
  unfold accepted
  rw [hlook]
  cases hc : m.count with
  | none => simp [h.fresh hc]
  | some c =>
    obtain ⟨o, ho, hold⟩ := h.baseline c hc
    obtain ⟨hb, h63, h32⟩ := hbound (by simp [hc])
    simp only [hc, Option.getD_some] at hval h64
    have hd : (delta (dir.counter o) (dir.counter n) (maxBytesPerTick cfg (r.speed i))).1.toNat =
        bytes := by
      rw [delta_toNat, hold, hval, deltaNat_exposed hb h32 h64]
    simp only [ho, hi, Bool.false_eq_true, if_false, Option.isSome_some, if_true]
    rw [asI64_of_lt (by omega), hd]

theorem exact_tick {m : Metered} {r : Reading} {bytes : ℕ} (hi : cfg.excluded i = false)
    (h : m.Exact i dir w) (hn : m.Normal cfg i dir w (.tick r bytes)) :
    (m.step cfg tz (.tick r bytes)).Exact i dir w := by
  have haccept := accepted_normal hi h hn
  obtain ⟨hgap, hclock, ⟨n, hlook, hval⟩, -, -⟩ := hn
  have hts : ∀ x ∈ m.state.db.samples.rows, x.1.ts ≠ r.nowWall.secs := by
    intro x hx
    obtain ⟨t, ht, hle⟩ := h.past x hx
    have := hclock t ht
    omega
  have htick := ticked hgap tz m.state
  constructor
  · intro x hx
    change x ∈ (tick cfg tz m.state r).db.samples.rows at hx
    rw [htick.samples] at hx
    refine ⟨r.nowWall.secs, rfl, ?_⟩
    rcases List.mem_append.mp ((insertSamples_perm hts
      (sampleRows_nodup cfg m.state.daemon r)).mem_iff.mp hx) with hx | hx
    · obtain ⟨t, ht, hle⟩ := h.past x hx
      have := hclock t ht
      omega
    · exact (ts_of_mem_tickRows hx).le
  · intro c hc
    obtain rfl := Option.some.inj hc
    refine ⟨n, ?_, hval⟩
    show (tick cfg tz m.state r).daemon.prev.lookup i = some n
    rw [htick.prev, Table.lookup_filter]
    simp [hi, hlook]
  · intro hc
    simp [Metered.step] at hc
  · show dir.column ((tick cfg tz m.state r).db.ifaceTotal i) = _
    rw [ifaceTotal_tick hgap hts, h.sum, haccept]
    cases hc : m.count <;> simp [Metered.step, hc]

theorem exact_step (hi : cfg.excluded i = false) (m : Metered) (e : MeterEvent)
    (h : m.Exact i dir w) (hn : m.Normal cfg i dir w e) : (m.step cfg tz e).Exact i dir w := by
  cases e with
  | tick r bytes => exact exact_tick hi h hn
  | rollup f =>
    have hsamples := samples_rollupCall (Level.floor tz) f m.state.db
    refine ⟨fun x hx => h.past x ?_, h.baseline, h.fresh, ?_⟩
    · change x ∈ (rollupCall (Level.floor tz) f m.state.db).samples.rows at hx
      rwa [hsamples] at hx
    · show dir.column ((rollupCall (Level.floor tz) f m.state.db).ifaceTotal i) = _
      unfold Db.ifaceTotal
      rw [hsamples]
      exact h.sum

/-- When nothing abnormal happens, the rows of an interface add up to its true
traffic between the first and the last reading. -/
theorem recorded_total_exact (cfg : Config) (tz : TimeZone) (i : String) (dir : Direction)
    (w : Width) (es : List MeterEvent) (hi : cfg.excluded i = false)
    (h : Along (Metered.step cfg tz) (Metered.Normal cfg i dir w) Metered.init es) :
    let m := es.foldl (Metered.step cfg tz) Metered.init
    dir.column (m.state.db.ifaceTotal i) = m.traffic :=
  (along_invariant (Metered.Exact i dir w) (exact_step hi) exact_init h).sum

def wrapRun : List MeterEvent :=
  [.tick (rxReading 1800000000 4294967000) 4294967000, .rollup noFaults,
    .tick (rxReading 1800000005 204) 500,
    .tick (rxReading 1800000010 204) 0]

theorem recorded_total_exact_wrap :
    let m := wrapRun.foldl (Metered.step {} .utc) Metered.init
    Direction.rx.column (m.state.db.ifaceTotal "eth0") = m.traffic :=
  recorded_total_exact {} .utc "eth0" .rx .bits32 wrapRun (by decide)
    ⟨⟨by decide, by simp [Metered.init], ⟨(4294967000,0), by decide, by decide⟩, by simp,
        by simp [Metered.init]⟩, trivial,
      ⟨by decide, by simp [Metered.step, rxReading, WallClock.at],
        ⟨(204,0), by decide, by decide⟩, by simp, fun _ => ⟨by decide, by decide, by decide⟩⟩,
      ⟨by decide, by simp [Metered.step, rxReading, WallClock.at],
        ⟨(204,0), by decide, by decide⟩, by simp, fun _ => ⟨by decide, by decide, by decide⟩⟩, trivial⟩

end Netmeter
