import Netmeter.Show
set_option autoImplicit false

/-! LAN never exceeds TOTAL, in any table of any run and in every view of them. -/

namespace Netmeter
open Keyed Transaction

/-- LAN and WAN split the totals: no part is negative. -/
structure Counts.Split (c : Counts) : Prop where
  lanRx_nonneg : 0 ≤ c.lanRx
  lanRx_le : c.lanRx ≤ c.rx
  lanTx_nonneg : 0 ≤ c.lanTx
  lanTx_le : c.lanTx ≤ c.tx

namespace Counts.Split

theorem add {c c' : Counts} (h : c.Split) (h' : c'.Split) : (c + c').Split where
  lanRx_nonneg := add_nonneg h.lanRx_nonneg h'.lanRx_nonneg
  lanRx_le := add_le_add h.lanRx_le h'.lanRx_le
  lanTx_nonneg := add_nonneg h.lanTx_nonneg h'.lanTx_nonneg
  lanTx_le := add_le_add h.lanTx_le h'.lanTx_le

theorem wanRx_eq {c : Counts} (h : c.Split) : c.wanRx = c.rx - c.lanRx :=
  max_eq_left (by have := h.lanRx_le; omega)

theorem wanTx_eq {c : Counts} (h : c.Split) : c.wanTx = c.tx - c.lanTx :=
  max_eq_left (by have := h.lanTx_le; omega)

end Counts.Split

theorem delta_lt {old new b : UInt64} (hb : b.toNat < 9223372036854775808) :
    (delta old new b).1.toNat < 9223372036854775808 := by
  rw [delta_toNat]
  unfold deltaNat
  split
  · omega
  · split <;> omega

theorem asI64_delta_nonneg {old new b : UInt64} (hb : b.toNat < 9223372036854775808) :
    0 ≤ asI64 (delta old new b).1 := by
  rw [asI64_of_lt (delta_lt hb)]
  exact Int.natCast_nonneg _

theorem ratAsI64_nonneg {q : ℚ} (h : 0 ≤ q) : 0 ≤ ratAsI64 q := by
  have hnum : 0 ≤ q.num.tdiv q.den :=
    Int.tdiv_nonneg (Rat.num_nonneg.mpr h) (Int.natCast_nonneg _)
  unfold ratAsI64
  omega

theorem prorate_nonneg {lan p : ℤ} (hlan : 0 ≤ lan) (hp : 0 ≤ p) (tot : ℤ) :
    0 ≤ prorate lan p tot := by
  refine ratAsI64_nonneg (mul_nonneg (by exact_mod_cast hlan) ?_)
  split
  · next h => exact div_nonneg (by exact_mod_cast hp) (by exact_mod_cast h.le)
  · exact le_rfl

theorem split_sampleCounts (cfg : Config) {lan : ℤ × ℤ} (hlan : 0 ≤ lan.1 ∧ 0 ≤ lan.2)
    (tot : ℤ × ℤ) {p : PerIf} (hp : 0 ≤ p.rx ∧ 0 ≤ p.tx) :
    (sampleCounts cfg lan tot p).Split := by
  have hrx := prorate_nonneg hlan.1 hp.1 tot.1
  have htx := prorate_nonneg hlan.2 hp.2 tot.2
  unfold sampleCounts lanShare
  by_cases hforced : cfg.forcedLan p.iface
  · constructor <;> simp [hforced, hp.1, hp.2]
  · by_cases hpos : 0 < tot.1 ∨ 0 < tot.2
    · constructor <;> simp [hforced, hpos, hp.1, hp.2, hrx, htx]
    · constructor <;> simp [hforced, hpos, hp.1, hp.2]

/-- Every sanity bound a tick uses fits a signed column. -/
def BoundedSpeeds (cfg : Config) (r : Reading) : Prop :=
  ∀ i, (maxBytesPerTick cfg (r.speed i)).toNat < 9223372036854775808

theorem lanDelta_nonneg {cfg : Config} {r : Reading} (h : BoundedSpeeds cfg r) (d : Daemon) :
    0 ≤ (lanDelta cfg d r).1 ∧ 0 ≤ (lanDelta cfg d r).2 := by
  unfold lanDelta
  split
  · dsimp only
    exact ⟨asI64_delta_nonneg (h "lan"), asI64_delta_nonneg (h "lan")⟩
  · exact ⟨le_rfl, le_rfl⟩

theorem perIfs_nonneg {cfg : Config} {r : Reading} (h : BoundedSpeeds cfg r) {d : Daemon}
    {p : PerIf} (hp : p ∈ perIfs cfg d r) : 0 ≤ p.rx ∧ 0 ≤ p.tx := by
  obtain ⟨x, hx, hp⟩ := List.mem_filterMap.mp hp
  obtain ⟨e, -, he⟩ := List.mem_filterMap.mp hx
  unfold perIf at hp
  split at hp
  · obtain rfl := Option.some.inj hp
    unfold ifaceDelta at he
    split at he
    · simp at he
    · obtain ⟨o, -, rfl⟩ := Option.map_eq_some_iff.mp he
      dsimp only
      exact ⟨asI64_delta_nonneg (h e.1), asI64_delta_nonneg (h e.1)⟩
  · simp at hp

theorem split_sampleRows {cfg : Config} {r : Reading} (h : BoundedSpeeds cfg r) {d : Daemon}
    {x : String × Counts} (hx : x ∈ sampleRows cfg d r) : x.2.Split := by
  obtain ⟨p, hp, rfl⟩ := List.mem_map.mp hx
  exact split_sampleCounts cfg (lanDelta_nonneg h d) _ (perIfs_nonneg h hp)

abbrev Db.Split (db : Db) : Prop := db.All Counts.Split

/-- Ticks use bounds below 2^63; nothing is asked of the other jobs. -/
def Bounded (cfg : Config) (_ : State) : Event → Prop
  | .tick r => BoundedSpeeds cfg r
  | _ => True

theorem split_step (cfg : Config) (tz : TimeZone) (s : State) (e : Event) (h : s.db.Split)
    (he : Bounded cfg s e) : (step cfg tz s e).db.Split := by
  refine all_step (fun _ _ => Counts.Split.add) h tz e (fun r hr x hx => ?_)
  subst hr
  exact split_sampleRows he hx

/-- The aggregations `show` applies to a range query. -/
inductive View where
  | plain
  | week
  | bucket (period : Period)

def View.rows (tz : TimeZone) : View → List Row → List Row
  | .plain, rows => rows
  | .week, rows => rebucketWeek tz rows
  | .bucket period, rows => bucketSamples tz period rows

def View.floor (tz : TimeZone) : View → ℤ → ℤ
  | .plain, t => t
  | .week, t => floorWeek tz t
  | .bucket .week, t => floorWeek tz (floorDay tz t)
  | .bucket period, t => period.sampleFloor tz t

theorem total_view (tz : TimeZone) (v : View) (p : ℤ → Bool) (rows : List Row) :
    total p (pairs (v.rows tz rows)) = total (fun t => p (v.floor tz t)) (pairs rows) := by
  cases v with
  | plain => rfl
  | week => exact total_bucketRows _ _ _
  | bucket period =>
    cases period with
    | week =>
      simp only [View.rows, bucketSamples, if_true, rebucketWeek]
      rw [total_bucketRows, total_bucketRows]
      rfl
    | hour => exact total_bucketRows _ _ _
    | day => exact total_bucketRows _ _ _
    | month => exact total_bucketRows _ _ _

theorem pairs_view_none (tz : TimeZone) (v : View) (db : Db) (src : Source) (lo hi : ℤ) :
    ∃ items, pairs (v.rows tz (queryRange db src lo hi none)) = (Table.group items).rows := by
  cases v with
  | plain => exact ⟨_, pairs_queryRange_none db src lo hi⟩
  | week => exact ⟨_, pairs_bucketRows _ _⟩
  | bucket period =>
    cases period with
    | week => exact ⟨_, pairs_bucketRows _ _⟩
    | hour => exact ⟨_, pairs_bucketRows _ _⟩
    | day => exact ⟨_, pairs_bucketRows _ _⟩
    | month => exact ⟨_, pairs_bucketRows _ _⟩

theorem split_view {rows : List Row} (h : ∀ r ∈ rows, r.toCounts.Split) (tz : TimeZone)
    (v : View) : ∀ r ∈ v.rows tz rows, r.toCounts.Split := by
  have hadd : ∀ a b : Counts, a.Split → b.Split → (a + b).Split := fun _ _ => Counts.Split.add
  cases v with
  | plain => exact h
  | week => exact closed_bucketRows hadd h _
  | bucket period =>
    have hout := closed_bucketRows hadd h (period.sampleFloor tz)
    simp only [View.rows, bucketSamples]
    split
    · exact closed_bucketRows hadd hout _
    · exact hout

def Db.ifaces (db : Db) (src : Source) : List String :=
  ((db.table src).rows.map (·.1.name)).dedup

theorem total_view_ifaces (tz : TimeZone) (v : View) (db : Db) (src : Source) (lo hi : ℤ)
    (p : ℤ → Bool) :
    ((db.ifaces src).map (fun i =>
      total p (pairs (v.rows tz (queryRange db src lo hi (some i)))))).sum =
      total p (pairs (v.rows tz (queryRange db src lo hi none))) := by
  have hcover : ∀ x ∈ (db.table src).rows, x.1.name ∈ db.ifaces src := fun x hx =>
    List.mem_dedup.mpr (List.mem_map.mpr ⟨x, hx, rfl⟩)
  have hiface : ∀ i, total p (pairs (v.rows tz (queryRange db src lo hi (some i)))) =
      total (fun k => (lo ≤ k.ts && k.ts < hi && p (v.floor tz k.ts)) && k.name = i)
        (db.table src).rows := by
    intro i
    rw [total_view, total_queryRange]
    exact total_congr (fun x _ => by simp [matchesIface, Bool.and_comm, Bool.and_assoc,
      Bool.and_left_comm])
  simp only [hiface]
  have hnodup : (db.ifaces src).Nodup := List.nodup_dedup _
  rw [total_labels _ Key.name hnodup hcover, total_view, total_queryRange]
  exact total_congr (fun x _ => by simp [matchesIface])

def figures : List (Counts → ℤ) :=
  [Counts.rx, Counts.tx, Counts.lanRx, Counts.lanTx, Counts.wanRx, Counts.wanTx]

theorem figure_additive {f : Counts → ℤ} (hf : f ∈ figures) :
    ∃ φ : Counts →+ ℤ, ∀ c, c.Split → f c = φ c := by
  simp only [figures, List.mem_cons, List.not_mem_nil, or_false] at hf
  rcases hf with rfl | rfl | rfl | rfl | rfl | rfl
  · exact ⟨Counts.rxHom, fun _ _ => rfl⟩
  · exact ⟨Counts.txHom, fun _ _ => rfl⟩
  · exact ⟨Counts.lanRxHom, fun _ _ => rfl⟩
  · exact ⟨Counts.lanTxHom, fun _ _ => rfl⟩
  · exact ⟨Counts.rxHom - Counts.lanRxHom, fun _ h => h.wanRx_eq⟩
  · exact ⟨Counts.txHom - Counts.lanTxHom, fun _ h => h.wanTx_eq⟩

def figureAt (f : Counts → ℤ) (rows : List Row) (ts : ℤ) : ℤ :=
  ((rows.filter (fun r => r.ts = ts)).map (fun r => f r.toCounts)).sum

theorem figureAt_eq {f : Counts → ℤ} {φ : Counts →+ ℤ} (hφ : ∀ c, c.Split → f c = φ c)
    {rows : List Row} (h : ∀ r ∈ rows, r.toCounts.Split) (ts : ℤ) :
    figureAt f rows ts = φ (value (total (fun t => t = ts) (pairs rows))) := by
  rw [map_value_total]
  unfold figureAt pairs
  rw [List.filter_map, List.map_map]
  refine congrArg List.sum (List.map_congr_left (fun r hr => ?_))
  exact hφ _ (h r (List.mem_of_mem_filter hr))

theorem figure_all {db : Db} (h : db.Split) (tz : TimeZone) (v : View) (src : Source)
    (lo hi : ℤ) {r : Row} (hr : r ∈ v.rows tz (queryRange db src lo hi none))
    {f : Counts → ℤ} (hf : f ∈ figures) :
    f r.toCounts = ((db.ifaces src).map (fun i =>
      figureAt f (v.rows tz (queryRange db src lo hi (some i))) r.ts)).sum := by
  have hadd : ∀ a b : Counts, a.Split → b.Split → (a + b).Split := fun _ _ => Counts.Split.add
  have hsplit : ∀ iface, ∀ r ∈ v.rows tz (queryRange db src lo hi iface), r.toCounts.Split :=
    fun iface => split_view (closed_queryRange hadd (h src) lo hi iface) tz v
  obtain ⟨φ, hφ⟩ := figure_additive hf
  have hrow : total (fun t => t = r.ts) (pairs (v.rows tz (queryRange db src lo hi none))) =
      (r.toCounts : WithZero Counts) := by
    obtain ⟨items, hitems⟩ := pairs_view_none tz v db src lo hi
    have hmem : (r.ts, r.toCounts) ∈ pairs (v.rows tz (queryRange db src lo hi none)) :=
      List.mem_map_of_mem hr
    rw [hitems] at hmem ⊢
    rw [Table.total_key]
    exact Table.cell_eq_coe.mpr hmem
  have hvalue : ∀ l : List (WithZero Counts), φ (value l.sum) = (l.map (fun c => φ (value c))).sum := by
    intro l
    induction l with
    | nil => simp
    | cons c l ih => rw [List.sum_cons, value_add, map_add, ih, List.map_cons, List.sum_cons]
  calc f r.toCounts = φ (value (r.toCounts : WithZero Counts)) := hφ _ (hsplit none r hr)
    _ = φ (value ((db.ifaces src).map (fun i => total (fun t => t = r.ts)
          (pairs (v.rows tz (queryRange db src lo hi (some i)))))).sum) := by
        rw [total_view_ifaces, hrow]
    _ = _ := by
        rw [hvalue, List.map_map]
        exact congrArg List.sum (List.map_congr_left (fun i _ =>
          (figureAt_eq hφ (hsplit (some i)) r.ts).symm))

/-- In every reachable database LAN lies between nothing and TOTAL, every row of
every view splits into LAN and WAN, and the rows over all interfaces are the
sums of the interfaces' own rows, WAN included. -/
theorem lan_wan_total (cfg : Config) (tz : TimeZone) (es : List Event)
    (h : Along (step cfg tz) (Bounded cfg) State.init es) :
    let db := (es.foldl (step cfg tz) State.init).db
    (∀ src, ∀ x ∈ (db.table src).rows,
      0 ≤ x.2.lanRx ∧ x.2.lanRx ≤ x.2.rx ∧ 0 ≤ x.2.lanTx ∧ x.2.lanTx ≤ x.2.tx) ∧
    (∀ src lo hi iface v, ∀ r ∈ View.rows tz v (queryRange db src lo hi iface),
      r.lanRx + r.wanRx = r.rx ∧ r.lanTx + r.wanTx = r.tx ∧
        0 ≤ r.lanRx ∧ 0 ≤ r.wanRx ∧ 0 ≤ r.lanTx ∧ 0 ≤ r.wanTx) ∧
    (∀ src lo hi v, ∀ r ∈ View.rows tz v (queryRange db src lo hi none), ∀ f ∈ figures,
      f r.toCounts = ((db.ifaces src).map (fun i =>
        figureAt f (View.rows tz v (queryRange db src lo hi (some i))) r.ts)).sum) := by
  intro db
  have hdb : db.Split := along_invariant (fun s => s.db.Split) (split_step cfg tz) all_init h
  refine ⟨fun src x hx => ?_, fun src lo hi iface v r hr => ?_, fun src lo hi v r hr f hf =>
    figure_all hdb tz v src lo hi hr hf⟩
  · obtain ⟨h1, h2, h3, h4⟩ := hdb src x hx
    exact ⟨h1, h2, h3, h4⟩
  · have hsplit := split_view (closed_queryRange (fun _ _ => Counts.Split.add) (hdb src)
      lo hi iface) tz v r hr
    have hrx := hsplit.wanRx_eq
    have htx := hsplit.wanTx_eq
    obtain ⟨h1, h2, h3, h4⟩ := hsplit
    omega

def lanRun : List Event :=
  let reading (ts : ℤ) (h : 0 ≤ ts ∧ ts ≤ 253402207200) (eth zt : UInt64 × UInt64)
      (lan : UInt64 × UInt64) : Reading :=
    { gap := 5, nowWall := ⟨ts,h⟩, lanNow := some lan
      totals := ((∅ : Table String (UInt64 × UInt64)).set "eth0" eth).set "zt0" zt }
  [.tick (reading 1800000000 (by omega) (1000,100) (500,50) (7,7)),
    .tick (reading 1800000005 (by omega) (1300,200) (600,70) (107,47)),
    .rollup noFaults, .retain (.at 1800000005), .restart]

theorem defaultBound_lt : (maxBytesPerTick {} none).toNat < 9223372036854775808 := by decide

theorem lan_wan_total_lanRun :
    let db := (lanRun.foldl (step {} .utc) State.init).db
    ∀ src, ∀ x ∈ (db.table src).rows,
      0 ≤ x.2.lanRx ∧ x.2.lanRx ≤ x.2.rx ∧ 0 ≤ x.2.lanTx ∧ x.2.lanTx ≤ x.2.tx :=
  (lan_wan_total {} .utc lanRun
    ⟨fun _ => defaultBound_lt, fun _ => defaultBound_lt, trivial, trivial, trivial, trivial⟩).1

example : (lanRun.foldl (step {} .utc) State.init).db.daily.rows =
    [(⟨1799971200, "eth0"⟩, ⟨300, 100, 75, 33⟩), (⟨1799971200, "zt0"⟩, ⟨100, 20, 100, 20⟩)] := by
  decide +kernel

end Netmeter
