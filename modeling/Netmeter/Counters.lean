import Netmeter.Config
import Netmeter.Lib.Transaction
set_option autoImplicit false

/-!
Counter readings of one interface or of the nft table: the delta between two
polls, and what it can and cannot tell about the traffic in between.
-/

namespace Netmeter

def U32 : UInt64 := 4294967296

def satSub (a b : UInt64) : UInt64 := if b ≤ a then a - b else 0

/-- Counter delta with wrap, reset and sanity handling: the accepted delta, and
whether a spike was discarded. -/
def delta (old new maxBytesPerTick : UInt64) : UInt64 × Bool :=
  -- a 32-bit wrap looks like a reset; within one tick of the boundary it is taken for a wrap
  let nearWrap := decide (satSub U32 maxBytesPerTick ≤ old) && decide (old < U32)
  if new < old ∧ new < 1024 * 1024 ∧ ¬ nearWrap then (new, false)
  else
    let d := if old ≤ new then new - old else if U32 < old then new - old else U32 - old + new
    if maxBytesPerTick < d then (0, true) else (d, false)

/-- `speed` is the interface's nominal rate in Mbit/s where sysfs has one. The
product is taken exactly and saturates as the cast from `f64` does. -/
def maxBytesPerTick (cfg : Config) (speed : Option ℕ) : UInt64 :=
  let mbit := max (speed.getD cfg.maxRateMbit) 1
  UInt64.ofNat (min (mbit * 1000000 / 8 * cfg.pollIntervalSec * 5 / 4) (2 ^ 64 - 1))

example : maxBytesPerTick {} none = 7812500000 := by decide

def diffNat (o n : ℕ) : ℕ :=
  if o ≤ n then n - o else if 4294967296 < o then n + 2 ^ 64 - o else 4294967296 - o + n

def wrapPoint (o : ℕ) : ℕ := if o ≤ 4294967296 then 4294967296 else 2 ^ 64

def deltaNat (o n b : ℕ) : ℕ :=
  if n < o ∧ n < 1048576 ∧ ¬ (4294967296 - b ≤ o ∧ o < 4294967296) then n
  else if b < diffNat o n then 0 else diffNat o n

theorem satSub_toNat (a b : UInt64) : (satSub a b).toNat = a.toNat - b.toNat := by
  unfold satSub
  split
  · next h => exact UInt64.toNat_sub_of_le _ _ h
  · next h =>
    rw [UInt64.le_iff_toNat_le, not_le] at h
    show 0 = _
    omega

theorem diff_toNat (old new : UInt64) :
    (if old ≤ new then new - old else if U32 < old then new - old else U32 - old + new).toNat =
      diffNat old.toNat new.toNat := by
  have ho := old.toNat_lt
  have hn := new.toNat_lt
  have hu : U32.toNat = 4294967296 := rfl
  unfold diffNat
  simp only [UInt64.le_iff_toNat_le, UInt64.lt_iff_toNat_lt, hu]
  split
  · next h => exact UInt64.toNat_sub_of_le _ _ (UInt64.le_iff_toNat_le.mpr h)
  · split
    · rw [UInt64.toNat_sub]
      omega
    · rw [UInt64.toNat_add, UInt64.toNat_sub, hu]
      omega

theorem delta_toNat (old new b : UInt64) :
    (delta old new b).1.toNat = deltaNat old.toNat new.toNat b.toNat := by
  have hu : U32.toNat = 4294967296 := rfl
  have hm : (1024 * 1024 : UInt64).toNat = 1048576 := rfl
  unfold delta deltaNat
  simp only [UInt64.le_iff_toNat_le, UInt64.lt_iff_toNat_lt, satSub_toNat, hu, hm,
    Bool.and_eq_true, decide_eq_true_eq, ← diff_toNat]
  split
  · rfl
  · rw [apply_ite Prod.fst, apply_ite UInt64.toNat]
    rfl

theorem diffNat_of_lt {o n : ℕ} (h : n < o) (ho : o < 2 ^ 64) :
    diffNat o n = wrapPoint o - o + n := by
  unfold diffNat wrapPoint
  rw [if_neg (not_le.mpr h)]
  by_cases h32 : 4294967296 < o
  · rw [if_pos h32, if_neg (not_le.mpr h32)]
    omega
  · rw [if_neg h32, if_pos (not_lt.mp h32)]

theorem deltaNat_of_le {o n b : ℕ} (h : o ≤ n) : deltaNat o n b = if b < n - o then 0 else n - o := by
  have hd : diffNat o n = n - o := if_pos h
  unfold deltaNat
  rw [if_neg (by omega), hd]

/-- One poll of a 64-bit counter: the bytes counted before the first reset since
the last poll, and the bytes counted after each reset. -/
structure Poll where
  speed : Option ℕ
  before : ℕ
  afterReset : List ℕ

namespace Poll

def next (p : Poll) (old : ℕ) : ℕ := p.afterReset.getLast?.getD (old + p.before)

def bytes (p : Poll) : ℕ := p.before + p.afterReset.sum

/-- The counter never wraps. -/
def Valid (p : Poll) (old : ℕ) : Prop :=
  old + p.before < 2 ^ 64 ∧ ∀ a ∈ p.afterReset, a < 2 ^ 64

/-- Nothing was reset, the new reading hides the reset or is low enough to show
it, the apparent wrap exceeds the bound, or the bytes lost in the reset would
have carried the old reading over the boundary it is taken to have wrapped at. -/
def Safe (p : Poll) (old bound : ℕ) : Prop :=
  p.afterReset = [] ∨ old ≤ p.next old ∨
    (p.next old < 1048576 ∧ ¬ (4294967296 - bound ≤ old ∧ old < 4294967296)) ∨
    bound < wrapPoint old - old + p.next old ∨ wrapPoint old ≤ old + (p.bytes - p.next old)

theorem next_of_noReset {p : Poll} (h : p.afterReset = []) (old : ℕ) :
    p.next old = old + p.before := by simp [next, h]

theorem next_of_reset {p : Poll} (h : p.afterReset ≠ []) (old : ℕ) :
    p.next old ∈ p.afterReset ∧ p.next old ≤ p.bytes := by
  obtain ⟨a, ha⟩ := List.getLast?_isSome.mpr h |> Option.isSome_iff_exists.mp
  have hmem : a ∈ p.afterReset := List.mem_of_getLast? ha
  have hsum : a ≤ p.afterReset.sum := List.le_sum_of_mem hmem
  have hn : p.next old = a := by simp [next, ha]
  rw [hn]
  exact ⟨hmem, by unfold bytes; omega⟩

theorem next_lt {p : Poll} {old : ℕ} (h : p.Valid old) : p.next old < 2 ^ 64 := by
  by_cases hr : p.afterReset = []
  · rw [next_of_noReset hr]
    exact h.1
  · exact h.2 _ (next_of_reset hr old).1

end Poll

/-- Exactly the safe polls record no more than was counted. -/
theorem deltaNat_le_bytes_iff (p : Poll) (old bound : ℕ) (hold : old < 2 ^ 64) :
    deltaNat old (p.next old) bound ≤ p.bytes ↔ p.Safe old bound := by
  by_cases hr : p.afterReset = []
  · -- no reset: the delta is the traffic or is discarded
    refine iff_of_true ?_ (.inl hr)
    rw [Poll.next_of_noReset hr, deltaNat_of_le (Nat.le_add_right _ _)]
    split <;> simp [Poll.bytes]
  · obtain ⟨-, hle⟩ := Poll.next_of_reset hr old
    unfold Poll.Safe
    rw [or_iff_right hr]
    by_cases hge : old ≤ p.next old
    · refine iff_of_true ?_ (.inl hge)
      rw [deltaNat_of_le hge]
      split <;> omega
    · have hpoint : old ≤ wrapPoint old := by unfold wrapPoint; split <;> omega
      rw [or_iff_right hge]
      unfold deltaNat
      rw [diffNat_of_lt (not_le.mp hge) hold]
      by_cases hseen : p.next old < 1048576 ∧ ¬ (4294967296 - bound ≤ old ∧ old < 4294967296)
      · rw [if_pos ⟨by omega, hseen⟩]
        exact iff_of_true hle (.inl hseen)
      · rw [if_neg (fun h => hseen h.2), or_iff_right hseen]
        by_cases hbig : bound < wrapPoint old - old + p.next old
        · rw [if_pos hbig]
          exact iff_of_true (Nat.zero_le _) (.inl hbig)
        · rw [if_neg hbig, or_iff_right hbig]
          omega

structure CounterRun where
  value : ℕ
  accepted : ℕ
  traffic : ℕ

def CounterRun.poll (cfg : Config) (s : CounterRun) (p : Poll) : CounterRun :=
  { value := p.next s.value
    accepted := s.accepted + (delta (.ofNat s.value) (.ofNat (p.next s.value))
      (maxBytesPerTick cfg p.speed)).1.toNat
    traffic := s.traffic + p.bytes }

theorem delta_ofNat {o n : ℕ} (ho : o < 2 ^ 64) (hn : n < 2 ^ 64) (b : UInt64) :
    (delta (.ofNat o) (.ofNat n) b).1.toNat = deltaNat o n b.toNat := by
  rw [delta_toNat, UInt64.toNat_ofNat_of_lt' ho, UInt64.toNat_ofNat_of_lt' hn]

open Transaction in
/-- Along every run whose polls are all safe, no phantom traffic is recorded. -/
theorem accepted_le_traffic (cfg : Config) (start : ℕ) (ps : List Poll) (hstart : start < 2 ^ 64)
    (h : Along (CounterRun.poll cfg)
      (fun s p => p.Valid s.value ∧ p.Safe s.value (maxBytesPerTick cfg p.speed).toNat)
      ⟨start, 0, 0⟩ ps) :
    (ps.foldl (CounterRun.poll cfg) ⟨start, 0, 0⟩).accepted ≤
      (ps.foldl (CounterRun.poll cfg) ⟨start, 0, 0⟩).traffic := by
  have hinv := along_invariant (fun s : CounterRun =>
    s.value < 2 ^ 64 ∧ s.accepted ≤ s.traffic) (fun s p hs hp => ?_) ⟨hstart, le_rfl⟩ h
  · exact hinv.2
  · obtain ⟨hvalid, hsafe⟩ := hp
    refine ⟨Poll.next_lt hvalid, ?_⟩
    have hle := (deltaNat_le_bytes_iff p s.value _ hs.1).mpr hsafe
    show s.accepted + _ ≤ s.traffic + p.bytes
    rw [delta_ofNat hs.1 (Poll.next_lt hvalid)]
    exact Nat.add_le_add hs.2 hle

/-- At the default bound a reset from 1 GB to nothing is recorded as 3 GB. -/
theorem not_accepted_le_traffic :
    ¬ ∀ (cfg : Config) (start : ℕ) (ps : List Poll), start < 2 ^ 64 →
      Transaction.Along (CounterRun.poll cfg) (fun s p => p.Valid s.value) ⟨start, 0, 0⟩ ps →
      (ps.foldl (CounterRun.poll cfg) ⟨start, 0, 0⟩).accepted ≤
        (ps.foldl (CounterRun.poll cfg) ⟨start, 0, 0⟩).traffic := by
  intro h
  have hd := h {} 1000000000 [⟨none, 0, [0]⟩] (by decide) ⟨⟨by decide, by simp⟩, trivial⟩
  exact absurd hd (by decide)

theorem accepted_le_traffic_reset :
    let ps : List Poll := [⟨none, 1000, []⟩, ⟨none, 0, [1234]⟩]
    (ps.foldl (CounterRun.poll {}) ⟨5000000000, 0, 0⟩).accepted ≤
      (ps.foldl (CounterRun.poll {}) ⟨5000000000, 0, 0⟩).traffic :=
  accepted_le_traffic {} 5000000000 [⟨none, 1000, []⟩, ⟨none, 0, [1234]⟩] (by decide)
    ⟨⟨⟨by decide, by simp⟩, .inl rfl⟩,
      ⟨⟨by decide, by simp⟩, .inr (.inr (.inl (by decide)))⟩, trivial⟩

end Netmeter
