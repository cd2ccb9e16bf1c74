import Netmeter.Lan
import Netmeter.Lib.Shares
set_option autoImplicit false

/-!
LAN apportioning: one tick's global LAN delta over the interfaces it records,
each direction on its own.
-/

namespace Netmeter
open Shares Keyed

namespace Direction

def pick : Direction → ℤ × ℤ → ℤ
  | .rx => Prod.fst
  | .tx => Prod.snd

def bytes : Direction → PerIf → ℤ
  | .rx => PerIf.rx
  | .tx => PerIf.tx

def lan : Direction → Counts → ℤ
  | .rx => Counts.lanRx
  | .tx => Counts.lanTx

end Direction

/-- `prorate` and `lanShare` over any division of the fraction's two sides. -/
def prorateWith (div : ℚ → ℚ → ℚ) (lan p tot : ℤ) : ℤ :=
  ratAsI64 (lan * (if 0 < tot then div p tot else 0))

def lanShareWith (div : ℚ → ℚ → ℚ) (cfg : Config) (lan tot : ℤ × ℤ) (p : PerIf) : ℤ × ℤ :=
  let l :=
    if cfg.forcedLan p.iface then (p.rx,p.tx)
    else if 0 < tot.1 ∨ 0 < tot.2 then
      (prorateWith div lan.1 p.rx tot.1, prorateWith div lan.2 p.tx tot.2)
    else (0,0)
  (min l.1 p.rx, min l.2 p.tx)

theorem lanShareWith_div (cfg : Config) (lan tot : ℤ × ℤ) (p : PerIf) :
    lanShareWith (· / ·) cfg lan tot p = lanShare cfg lan tot p := rfl

theorem asI64_lt (x : UInt64) : asI64 x < 9223372036854775808 := by
  have h := Int.bmod_lt (x := (x.toNat : ℤ)) (m := 2 ^ 64) (by norm_num)
  unfold asI64 wrapI64
  omega

theorem lanDelta_lt (cfg : Config) (d : Daemon) (r : Reading) (dir : Direction) :
    dir.pick (lanDelta cfg d r) < 9223372036854775808 := by
  have hboth : (lanDelta cfg d r).1 < 9223372036854775808 ∧
      (lanDelta cfg d r).2 < 9223372036854775808 := by
    unfold lanDelta
    split
    · dsimp only
      exact ⟨asI64_lt _, asI64_lt _⟩
    · constructor <;> norm_num
  cases dir with
  | rx => exact hboth.1
  | tx => exact hboth.2

theorem ratAsI64_of_nonneg {q : ℚ} (h : 0 ≤ q) (hlt : q < 9223372036854775808) :
    ratAsI64 q = ⌊q⌋ := by
  have htrunc : q.num.tdiv q.den = ⌊q⌋ := by
    rw [Int.tdiv_eq_ediv_of_nonneg (Rat.num_nonneg.mpr h), Rat.floor_def']
  have hfloor : 0 ≤ ⌊q⌋ := Int.floor_nonneg.mpr h
  have hbound : ⌊q⌋ < 9223372036854775808 := Int.floor_lt.mpr (by exact_mod_cast hlt)
  unfold ratAsI64
  rw [htrunc]
  omega

theorem prorate_eq {lan p tot : ℤ} (hlan : 0 ≤ lan) (hlt : lan < 9223372036854775808) (hp : 0 ≤ p)
    (hle : p ≤ tot) (htot : 0 < tot) : prorate lan p tot = lan * p / tot := by
  obtain ⟨t, rfl⟩ := Int.eq_ofNat_of_zero_le htot.le
  have htot' : (0 : ℚ) < (t : ℤ) := by exact_mod_cast htot
  have hle' : (p : ℚ) ≤ (t : ℤ) := by exact_mod_cast hle
  have hlan' : (0 : ℚ) ≤ lan := by exact_mod_cast hlan
  have hp' : (0 : ℚ) ≤ p := by exact_mod_cast hp
  have hone : (p / (t : ℤ) : ℚ) ≤ 1 := (div_le_one htot').mpr hle'
  unfold prorate
  rw [if_pos htot, ratAsI64_of_nonneg (mul_nonneg hlan' (div_nonneg hp' htot'.le))]
  · have hfrac : (lan * (p / (t : ℤ)) : ℚ) = ((lan * p : ℤ) : ℚ) / (t : ℕ) := by
      push_cast
      ring
    rw [hfrac, Rat.floor_intCast_div_natCast]
  · calc (lan * (p / (t : ℤ)) : ℚ) ≤ lan * 1 := mul_le_mul_of_nonneg_left hone hlan'
      _ < 9223372036854775808 := by rw [mul_one]; exact_mod_cast hlt

theorem pick_lanShareWith (div : ℚ → ℚ → ℚ) (cfg : Config) (lan tot : ℤ × ℤ) (p : PerIf)
    (dir : Direction) : dir.pick (lanShareWith div cfg lan tot p) =
      min (if cfg.forcedLan p.iface then dir.bytes p
        else if 0 < tot.1 ∨ 0 < tot.2 then
          prorateWith div (dir.pick lan) (dir.bytes p) (dir.pick tot)
        else 0) (dir.bytes p) := by
  unfold lanShareWith
  cases dir <;> dsimp only [Direction.pick, Direction.bytes] <;> split_ifs <;> rfl

theorem pick_lanShare {cfg : Config} {lan tot : ℤ × ℤ} {p : PerIf} {dir : Direction}
    (hlan : 0 ≤ dir.pick lan) (hlt : dir.pick lan < 9223372036854775808) (hp : 0 ≤ dir.bytes p)
    (hle : dir.bytes p ≤ dir.pick tot) (htot : 0 < dir.pick tot) :
    dir.pick (lanShare cfg lan tot p) =
      share (dir.pick lan) (dir.pick tot) (cfg.forcedLan p.iface) (dir.bytes p) := by
  have hgate : 0 < tot.1 ∨ 0 < tot.2 := by
    cases dir with
    | rx => exact .inl htot
    | tx => exact .inr htot
  rw [← lanShareWith_div, pick_lanShareWith]
  change min (if cfg.forcedLan p.iface then dir.bytes p else if 0 < tot.1 ∨ 0 < tot.2 then
    prorate (dir.pick lan) (dir.bytes p) (dir.pick tot) else 0) (dir.bytes p) = _
  rw [if_pos hgate, prorate_eq hlan hlt hp hle htot]
  unfold share
  split <;> simp

theorem pick_lanShareWith_zero (div : ℚ → ℚ → ℚ) {cfg : Config} {lan tot : ℤ × ℤ} {p : PerIf}
    {dir : Direction} (hp : dir.bytes p = 0) (htot : dir.pick tot = 0) :
    dir.pick (lanShareWith div cfg lan tot p) = 0 := by
  have hzero : prorateWith div (dir.pick lan) (dir.bytes p) (dir.pick tot) = 0 := by
    simp [prorateWith, htot, ratAsI64]
  rw [pick_lanShareWith, hzero, hp]
  split_ifs <;> rfl

section
variable (cfg : Config) (lan tot : ℤ × ℤ) (dir : Direction)

@[simp] theorem lan_sampleCounts (p : PerIf) :
    dir.lan (sampleCounts cfg lan tot p) = dir.pick (lanShare cfg lan tot p) := by
  cases dir <;> rfl

@[simp] theorem column_sampleCounts (p : PerIf) :
    dir.column (sampleCounts cfg lan tot p) = dir.bytes p := by
  cases dir <;> rfl

@[simp] theorem pick_perTotals (per : List PerIf) :
    dir.pick (perTotals per) = (per.map dir.bytes).sum := by
  cases dir <;> rfl

end

section
variable {cfg : Config} {d : Daemon} {r : Reading} {dir : Direction}

theorem bytes_le_perTotals (hp : ∀ p ∈ perIfs cfg d r, 0 ≤ dir.bytes p) {p : PerIf}
    (h : p ∈ perIfs cfg d r) : dir.bytes p ≤ dir.pick (perTotals (perIfs cfg d r)) := by
  rw [pick_perTotals]
  exact List.single_le_sum (by simpa using hp) _ (List.mem_map_of_mem h)

theorem perTotals_nonneg (hp : ∀ p ∈ perIfs cfg d r, 0 ≤ dir.bytes p) :
    0 ≤ dir.pick (perTotals (perIfs cfg d r)) := by
  rw [pick_perTotals]
  exact List.sum_nonneg (by simpa using hp)

theorem lan_of_idle (hp : ∀ p ∈ perIfs cfg d r, 0 ≤ dir.bytes p)
    (hz : dir.pick (perTotals (perIfs cfg d r)) = 0) (div : ℚ → ℚ → ℚ) {p : PerIf}
    (h : p ∈ perIfs cfg d r) :
    dir.bytes p = 0 ∧
      dir.pick (lanShareWith div cfg (lanDelta cfg d r) (perTotals (perIfs cfg d r)) p) = 0 := by
  have hbytes : dir.bytes p = 0 := le_antisymm (hz ▸ bytes_le_perTotals hp h) (hp p h)
  exact ⟨hbytes, pick_lanShareWith_zero div hbytes hz⟩

theorem lan_of_busy (hlan : 0 ≤ dir.pick (lanDelta cfg d r))
    (hp : ∀ p ∈ perIfs cfg d r, 0 ≤ dir.bytes p)
    (hpos : 0 < dir.pick (perTotals (perIfs cfg d r))) {p : PerIf} (h : p ∈ perIfs cfg d r) :
    dir.lan (sampleCounts cfg (lanDelta cfg d r) (perTotals (perIfs cfg d r)) p) =
      share (dir.pick (lanDelta cfg d r)) (dir.pick (perTotals (perIfs cfg d r)))
        (cfg.forcedLan p.iface) (dir.bytes p) :=
  (lan_sampleCounts cfg _ _ dir p).trans
    (pick_lanShare hlan (lanDelta_lt cfg d r dir) (hp p h) (bytes_le_perTotals hp h) hpos)

theorem idle_row (hp : ∀ p ∈ perIfs cfg d r, 0 ≤ dir.bytes p)
    (hz : dir.pick (perTotals (perIfs cfg d r)) = 0) {x : String × Counts}
    (hx : x ∈ sampleRows cfg d r) : dir.lan x.2 = 0 ∧ dir.column x.2 = 0 := by
  obtain ⟨p, hmem, rfl⟩ := List.mem_map.mp hx
  obtain ⟨hbytes, hpick⟩ := lan_of_idle hp hz (· / ·) hmem
  exact ⟨(lan_sampleCounts cfg _ _ dir p).trans hpick,
    (column_sampleCounts cfg _ _ dir p).trans hbytes⟩

theorem lan_of_row (hlan : 0 ≤ dir.pick (lanDelta cfg d r))
    (hp : ∀ p ∈ perIfs cfg d r, 0 ≤ dir.bytes p) {x : String × Counts}
    (hx : x ∈ sampleRows cfg d r) :
    (0 ≤ dir.lan x.2 ∧ dir.lan x.2 ≤ dir.column x.2) ∧
      (cfg.forcedLan x.1 = true → dir.lan x.2 = dir.column x.2) := by
  rcases (perTotals_nonneg hp).eq_or_lt with hz | hpos
  · obtain ⟨hl, hc⟩ := idle_row hp hz.symm hx
    rw [hl, hc]
    exact ⟨⟨le_rfl, le_rfl⟩, fun _ => rfl⟩
  · obtain ⟨p, hmem, rfl⟩ := List.mem_map.mp hx
    dsimp only
    rw [lan_of_busy hlan hp hpos hmem, column_sampleCounts]
    refine ⟨⟨share_nonneg hlan hpos (hp p hmem) _, share_le _ _ _ _⟩, fun hforced => ?_⟩
    rw [hforced]
    rfl

theorem sum_idle (hp : ∀ p ∈ perIfs cfg d r, 0 ≤ dir.bytes p)
    (hz : dir.pick (perTotals (perIfs cfg d r)) = 0) {l : List (String × Counts)}
    (hl : ∀ x ∈ l, x ∈ sampleRows cfg d r) : (l.map (fun x => dir.lan x.2)).sum = 0 := by
  refine List.sum_eq_zero (fun c hc => ?_)
  obtain ⟨x, hx, rfl⟩ := List.mem_map.mp hc
  exact (idle_row hp hz (hl x hx)).1

theorem sum_unforced_le (hlan : 0 ≤ dir.pick (lanDelta cfg d r))
    (hp : ∀ p ∈ perIfs cfg d r, 0 ≤ dir.bytes p) :
    (((sampleRows cfg d r).filter (fun x => !cfg.forcedLan x.1)).map (fun x => dir.lan x.2)).sum ≤
      dir.pick (lanDelta cfg d r) := by
  rcases (perTotals_nonneg hp).eq_or_lt with hz | hpos
  · rw [sum_idle hp hz.symm (fun x hx => List.mem_of_mem_filter hx)]
    exact hlan
  · refine le_of_eq_of_le ?_ (sum_unclaimed_le (fun p => cfg.forcedLan p.iface) dir.bytes
      hlan hpos hp (pick_perTotals dir _).ge)
    unfold sampleRows
    dsimp only
    rw [List.filter_map, List.map_map]
    exact congrArg List.sum (List.map_congr_left (fun p hmem =>
      lan_of_busy hlan hp hpos (List.mem_of_mem_filter hmem)))

theorem le_sum_lan (hlan : 0 ≤ dir.pick (lanDelta cfg d r))
    (hp : ∀ p ∈ perIfs cfg d r, 0 ≤ dir.bytes p) :
    min (dir.pick (lanDelta cfg d r)) (dir.pick (perTotals (perIfs cfg d r))) -
        ((sampleRows cfg d r).filter (fun x => !cfg.forcedLan x.1)).length ≤
      ((sampleRows cfg d r).map (fun x => dir.lan x.2)).sum := by
  rcases (perTotals_nonneg hp).eq_or_lt with hz | hpos
  · rw [sum_idle hp hz.symm (fun x hx => hx), ← hz]
    omega
  · have hcount : ((sampleRows cfg d r).filter (fun x => !cfg.forcedLan x.1)).length =
        ((perIfs cfg d r).filter (fun p => !cfg.forcedLan p.iface)).length := by
      unfold sampleRows
      dsimp only
      rw [List.filter_map, List.length_map]
      rfl
    have hsums : ((sampleRows cfg d r).map (fun x => dir.lan x.2)).sum =
        ((perIfs cfg d r).map (fun p => share (dir.pick (lanDelta cfg d r))
          (dir.pick (perTotals (perIfs cfg d r))) (cfg.forcedLan p.iface) (dir.bytes p))).sum := by
      unfold sampleRows
      dsimp only
      rw [List.map_map]
      exact congrArg List.sum (List.map_congr_left (fun p hmem =>
        lan_of_busy hlan hp hpos hmem))
    rw [hsums, hcount]
    exact le_sum_share _ _ hpos hp (pick_perTotals dir _).symm

end

/-- What a tick computes for an interface is what it stores for it. -/
theorem lookup_sampleRows {cfg : Config} {r : Reading} (h : gapBranch cfg r = false)
    (tz : TimeZone) (s : State) {x : String × Counts} (hx : x ∈ sampleRows cfg s.daemon r) :
    (tick cfg tz s r).db.samples.lookup ⟨r.nowWall.secs,x.1⟩ = some x.2 := by
  rw [(ticked h tz s).samples, samples_insertSamples, Table.lookup_setAll]
  have hlast : Table.lastValue (⟨r.nowWall.secs,x.1⟩ : Key)
      (tickRows r.nowWall.secs (sampleRows cfg s.daemon r)) = some x.2 := by
    rw [sampleRows_eq] at hx ⊢
    unfold tickRows
    rw [Table.lastValue_rekey (g := fun n => (⟨r.nowWall.secs,n⟩ : Key))
      (fun a b e => by simpa using e), Table.lastValue_rows]
    exact Table.mem_rows.mp hx
  rw [hlast]
  rfl

/-- The share of every recorded interface lies between nothing and its TOTAL,
all of it where LAN is forced; the others share at most the LAN delta, and
truncation loses less than one byte for each of them. A direction without
traffic forms no fraction and has no LAN. -/
theorem lan_apportioned (cfg : Config) (tz : TimeZone) (s : State) (r : Reading)
    (dir : Direction) (hlan : 0 ≤ dir.pick (lanDelta cfg s.daemon r))
    (hper : ∀ x ∈ sampleRows cfg s.daemon r, 0 ≤ dir.column x.2) :
    let rows := sampleRows cfg s.daemon r
    let lan := lanDelta cfg s.daemon r
    let tot := perTotals (perIfs cfg s.daemon r)
    let unforced := rows.filter (fun x => !cfg.forcedLan x.1)
    (gapBranch cfg r = false → ∀ x ∈ rows,
      (tick cfg tz s r).db.samples.lookup ⟨r.nowWall.secs,x.1⟩ = some x.2) ∧
    dir.pick tot = (rows.map (fun x => dir.column x.2)).sum ∧
    (∀ x ∈ rows, 0 ≤ dir.lan x.2 ∧ dir.lan x.2 ≤ dir.column x.2) ∧
    (∀ x ∈ rows, cfg.forcedLan x.1 = true → dir.lan x.2 = dir.column x.2) ∧
    (unforced.map (fun x => dir.lan x.2)).sum ≤ dir.pick lan ∧
    min (dir.pick lan) (dir.pick tot) - unforced.length ≤
      (rows.map (fun x => dir.lan x.2)).sum ∧
    (dir.pick tot = 0 → (∀ x ∈ rows, dir.lan x.2 = 0) ∧
      ∀ div, ∀ p ∈ perIfs cfg s.daemon r, dir.pick (lanShareWith div cfg lan tot p) = 0) := by
  intro rows lan tot unforced
  have hp : ∀ p ∈ perIfs cfg s.daemon r, 0 ≤ dir.bytes p := fun p hp => by
    simpa using hper _ (List.mem_map_of_mem hp)
  refine ⟨fun h x hx => lookup_sampleRows h tz s hx, ?_, fun x hx => (lan_of_row hlan hp hx).1,
    fun x hx => (lan_of_row hlan hp hx).2, sum_unforced_le hlan hp, le_sum_lan hlan hp,
    fun hz => ⟨fun x hx => (idle_row hp hz hx).1, fun div p hmem => (lan_of_idle hp hz div hmem).2⟩⟩
  show dir.pick (perTotals (perIfs cfg s.daemon r)) = _
  simp [rows, sampleRows, Function.comp_def]

def lanBase : Daemon where
  prev := ((∅ : Table String (UInt64 × UInt64)).set "eth0" (1000,100)).set "zt0" (500,50)
  prevLan := some (7,7)

def lanTick : Reading where
  gap := 5
  nowWall := .at 1800000005
  lanNow := some (107,47)
  totals := ((∅ : Table String (UInt64 × UInt64)).set "eth0" (1300,200)).set "zt0" (600,70)

theorem lan_apportioned_lanTick :
    min (Direction.rx.pick (lanDelta {} lanBase lanTick))
        (Direction.rx.pick (perTotals (perIfs {} lanBase lanTick))) -
      ((sampleRows {} lanBase lanTick).filter (fun x => !Config.forcedLan {} x.1)).length ≤
      ((sampleRows {} lanBase lanTick).map (fun x => Direction.rx.lan x.2)).sum :=
  (lan_apportioned {} .utc ⟨Db.init,lanBase⟩ lanTick .rx (by decide +kernel)
    (by decide +kernel)).2.2.2.2.2.1

example : (sampleRows {} lanBase lanTick).map (fun x => (x.1, x.2.rx, x.2.lanRx)) =
    [("eth0", 300, 75), ("zt0", 100, 100)] := by
  decide +kernel

end Netmeter
