import Netmeter.Apportion
set_option autoImplicit false

/-!
The sanity filter beside the suspend check: the gap a tick may span and the bytes
it may count at the nominal speed of its interface.
-/

namespace Netmeter

/-- The speed `max_bytes_per_tick` computes with, in Mbit/s. -/
def nominalMbit (cfg : Config) (speed : Option ℕ) : ℕ := max (speed.getD cfg.maxRateMbit) 1

/-- Bytes a link of `mbit` Mbit/s carries in `seconds`. -/
def lineBytes (mbit : ℕ) (seconds : ℚ) : ℚ := mbit * 1000000 / 8 * seconds

theorem maxBytesPerTick_toNat (cfg : Config) (speed : Option ℕ) :
    (maxBytesPerTick cfg speed).toNat =
      min (156250 * nominalMbit cfg speed * cfg.pollIntervalSec) (2 ^ 64 - 1) := by
  have hbytes : nominalMbit cfg speed * 1000000 / 8 * cfg.pollIntervalSec * 5 / 4 =
      156250 * nominalMbit cfg speed * cfg.pollIntervalSec := by
    rw [show nominalMbit cfg speed * 1000000 = 8 * (125000 * nominalMbit cfg speed) by ring,
      Nat.mul_div_cancel_left _ (by norm_num),
      show 125000 * nominalMbit cfg speed * cfg.pollIntervalSec * 5 =
        4 * (156250 * nominalMbit cfg speed * cfg.pollIntervalSec) by ring,
      Nat.mul_div_cancel_left _ (by norm_num)]
  have hdef : maxBytesPerTick cfg speed = UInt64.ofNat
      (min (nominalMbit cfg speed * 1000000 / 8 * cfg.pollIntervalSec * 5 / 4) (2 ^ 64 - 1)) := rfl
  rw [hdef, hbytes, UInt64.toNat_ofNat_of_lt']
  exact lt_of_le_of_lt (min_le_right _ _) (by decide)

theorem delta_of_le {old new : UInt64} (h : old ≤ new) (maxb : UInt64) :
    delta old new maxb = if maxb < new - old then (0,true) else (new - old, false) := by
  have hnot : ¬ new < old := UInt64.not_lt.mpr h
  unfold delta
  simp only [hnot, false_and, if_false, h, if_true]

/-- A growing counter is accepted in full exactly when the growth fits five
quarters of a poll interval at the nominal speed. -/
theorem delta_full_iff (cfg : Config) (speed : Option ℕ) {old new : UInt64} (h : old ≤ new) :
    delta old new (maxBytesPerTick cfg speed) = (new - old, false) ↔
      ((new - old).toNat : ℚ) ≤
        lineBytes (nominalMbit cfg speed) (5 / 4 * cfg.pollIntervalSec) := by
  have hline : lineBytes (nominalMbit cfg speed) (5 / 4 * cfg.pollIntervalSec) =
      ((156250 * nominalMbit cfg speed * cfg.pollIntervalSec : ℕ) : ℚ) := by
    unfold lineBytes
    push_cast
    ring
  have hlt := (new - old).toNat_lt
  rw [delta_of_le h, hline, Nat.cast_le]
  by_cases hbig : maxBytesPerTick cfg speed < new - old
  · rw [if_pos hbig]
    rw [UInt64.lt_iff_toNat_lt, maxBytesPerTick_toNat] at hbig
    exact iff_of_false (fun e => Bool.noConfusion (congrArg Prod.snd e)) (by omega)
  · rw [if_neg hbig]
    rw [UInt64.lt_iff_toNat_lt, maxBytesPerTick_toNat] at hbig
    exact iff_of_true rfl (by omega)

/-- A tick that the suspend check lets through reads an interface it records:
the counters have grown by no more than the link carries in the time elapsed. -/
structure LineRateTick (cfg : Config) (d : Daemon) (r : Reading) (elapsed : ℚ) (i : String)
    (old new : UInt64 × UInt64) : Prop where
  interval : 1 ≤ cfg.pollIntervalSec ∧ cfg.pollIntervalSec ≤ 60
  gap : (r.gap : ℤ) = ⌊elapsed⌋
  letThrough : gapBranch cfg r = false
  recorded : cfg.excluded i = false
  before : d.prev.lookup i = some old
  now : r.totals.lookup i = some new
  noReset : ∀ dir : Direction, dir.counter old ≤ dir.counter new
  lineRate : ∀ dir : Direction, ((dir.counter new - dir.counter old).toNat : ℚ) ≤
    lineBytes (nominalMbit cfg (r.speed i)) elapsed

def AcceptedInFull (cfg : Config) (r : Reading) (i : String) (old new : UInt64 × UInt64)
    (dir : Direction) : Prop :=
  delta (dir.counter old) (dir.counter new) (maxBytesPerTick cfg (r.speed i)) =
    (dir.counter new - dir.counter old, false)

theorem acceptedInFull_iff {cfg : Config} {d : Daemon} {r : Reading} {elapsed : ℚ} {i : String}
    {old new : UInt64 × UInt64} (h : LineRateTick cfg d r elapsed i old new) (dir : Direction) :
    AcceptedInFull cfg r i old new dir ↔
      ((dir.counter new - dir.counter old).toNat : ℚ) ≤
        lineBytes (nominalMbit cfg (r.speed i)) (5 / 4 * cfg.pollIntervalSec) :=
  delta_full_iff cfg (r.speed i) (h.noReset dir)

/-- At the default poll of five seconds, a 10 Gbit/s link that is saturated for seven. -/
def saturatedTick (seconds : ℕ) (bytes : UInt64) : Reading where
  gap := seconds
  nowWall := .at 1800000007
  totals := (∅ : Keyed.Table String (UInt64 × UInt64)).set "eth0" (bytes,0)

def zeroBase : Daemon where
  prev := (∅ : Keyed.Table String (UInt64 × UInt64)).set "eth0" (0,0)

theorem lineRateTick_saturated (bytes : UInt64) (h : bytes.toNat ≤ 8750000000) :
    LineRateTick {} zeroBase (saturatedTick 7 bytes) 7 "eth0" (0,0) (bytes,0) where
  interval := by decide
  gap := by norm_num [saturatedTick]
  letThrough := by simp [gapBranch, saturatedTick]
  recorded := by decide +kernel
  before := by decide
  now := rfl
  noReset dir := by
    cases dir with
    | rx => exact UInt64.zero_le
    | tx => exact UInt64.le_refl _
  lineRate dir := by
    have hline : lineBytes (nominalMbit {} ((saturatedTick 7 bytes).speed "eth0")) 7 =
        8750000000 := by
      norm_num [lineBytes, nominalMbit, saturatedTick]
    rw [hline]
    cases dir with
    | rx =>
      change (((bytes - 0).toNat : ℕ) : ℚ) ≤ 8750000000
      rw [UInt64.sub_zero]
      exact_mod_cast h
    | tx =>
      change (((0 - 0 : UInt64).toNat : ℕ) : ℚ) ≤ 8750000000
      norm_num

theorem not_acceptedInFull :
    ¬ ∀ (cfg : Config) (d : Daemon) (r : Reading) (elapsed : ℚ) (i : String)
      (old new : UInt64 × UInt64), LineRateTick cfg d r elapsed i old new →
      ∀ dir, AcceptedInFull cfg r i old new dir := by
  intro h
  have hd := h _ _ _ _ _ _ _ (lineRateTick_saturated 8750000000 (by decide)) .rx
  unfold AcceptedInFull at hd
  exact absurd hd (by decide)

/-- Six and a quarter seconds of line rate are the most that a poll of five accepts. -/
theorem acceptedInFull_saturated :
    AcceptedInFull {} (saturatedTick 7 7812500000) "eth0" (0,0) (7812500000,0) .rx :=
  (acceptedInFull_iff (lineRateTick_saturated 7812500000 (by decide)) .rx).mpr
    (by decide +kernel)

end Netmeter
