import Netmeter.Daemon
set_option autoImplicit false

/-! The range query and the views `show` builds from it. -/

namespace Netmeter
open Keyed

inductive Source where
  | samples
  | rollup (L : Level)
  deriving DecidableEq, Repr

def Db.table (db : Db) : Source → Table Key Counts
  | .samples => db.samples
  | .rollup L => db.level L

/-- Rows of one interface, or of all summed by timestamp, in `[lo, hi)`. -/
def queryRange (db : Db) (src : Source) (lo hi : ℤ) (iface : Option String) : List Row :=
  let rows := (db.table src).rows.filter (fun r => lo ≤ r.1.ts && r.1.ts < hi)
  match iface with
  | some i =>
    (rows.filter (fun r => r.1.name = i)).map
      (fun r => { r.2 with ts := r.1.ts, iface := r.1.name })
  | none =>
    (Table.group (rows.map (fun r => (r.1.ts,r.2)))).rows.map
      (fun r => { r.2 with ts := r.1, iface := "_all" })

def Row.addCounts (e r : Row) : Row := { e with toCounts := e.toCounts + r.toCounts }

/-- Sum rows into the buckets of `floor`, each labelled like its first row. -/
def bucketRows (floor : ℤ → ℤ) (rows : List Row) : List Row :=
  (rows.foldl (fun (m : Table ℤ Row) r =>
    m.upsert (floor r.ts) { r with ts := floor r.ts } (fun e => e.addCounts r)) ∅).rows.map (·.2)

inductive Period where
  | hour | day | week | month
  deriving DecidableEq, Repr

def rebucketWeek (tz : TimeZone) (rows : List Row) : List Row := bucketRows (floorWeek tz) rows

def Period.sampleFloor (tz : TimeZone) : Period → ℤ → ℤ
  | .hour => floorHour tz
  | .day => floorDay tz
  | .week => floorDay tz
  | .month => floorMonth tz

def bucketSamples (tz : TimeZone) (period : Period) (rows : List Row) : List Row :=
  let out := bucketRows (period.sampleFloor tz) rows
  if period = .week then rebucketWeek tz out else out

def Period.level : Period → Level
  | .hour => .hourly
  | .day => .daily
  | .week => .daily
  | .month => .monthly

theorem sampleFloor_eq (tz : TimeZone) (period : Period) :
    period.sampleFloor tz = period.level.floor tz := by
  cases period <;> rfl

def Period.span : Period → ℤ
  | .hour => 24 * 3600
  | .day => 30 * 86400
  | .week => 12 * 7 * 86400
  | .month => 365 * 86400

def rolledRows (tz : TimeZone) (period : Period) (lo hi : ℤ) (iface : Option String) (db : Db) :
    List Row :=
  let rows := queryRange db (.rollup period.level) lo hi iface
  if period = .week then rebucketWeek tz rows else rows

def showRows (tz : TimeZone) (period : Period) (last : ℤ) (iface : Option String) (db : Db) :
    List Row :=
  let lo := last - period.span
  let rows := rolledRows tz period lo (last + 1) iface db
  -- rollups run hourly: fall back to live samples so fresh data shows instantly
  if rows.isEmpty then bucketSamples tz period (queryRange db .samples lo (last + 1) iface)
  else rows

def budgetUsed (cfg : Config) (rows : List Row) (windowStart : ℤ) : ℤ :=
  ((rows.filter (fun r => windowStart ≤ r.ts)).map (fun r =>
    if cfg.budgetBasis = "wan" then r.wanRx + r.wanTx else r.total)).sum

def Period.view : Period → String
  | .hour => "hour"
  | .day => "day"
  | .week => "week"
  | .month => "month"

/-- The figure of the budget bar, when the view matches the budget window. -/
def showBudgetUsed (cfg : Config) (tz : TimeZone) (period : Period) (now last : ℤ)
    (iface : Option String) (db : Db) : Option ℤ :=
  match cfg.effectiveBudget with
  | none => none
  | some (bperiod, _) =>
    if bperiod = period.view then
      some (budgetUsed cfg (showRows tz period last iface db) (budgetWindowStart tz now bperiod))
    else none

def procTotals (db : Db) (start : ℤ) : List (String × (ℤ × ℤ)) :=
  (Table.group ((db.procHourly.rows.filter (fun r => start ≤ r.1.ts)).map
    (fun r => (r.1.name,r.2)))).rows

/-- Biggest first; `limit as i64` below zero is no limit. -/
def queryProc (db : Db) (start : ℤ) (limit : ℕ) : List (String × (ℤ × ℤ)) :=
  let rows := (procTotals db start).mergeSort (fun a b => b.2.1 + b.2.2 ≤ a.2.1 + a.2.2)
  if wrapI64 limit < 0 then rows else rows.take limit

/-! ## Rows as sums -/

theorem mem_queryProc {db : Db} {start : ℤ} {limit : ℕ}
    (h : (procTotals db start).length ≤ limit) {e : String × (ℤ × ℤ)} :
    e ∈ queryProc db start limit ↔ e ∈ procTotals db start := by
  unfold queryProc
  dsimp only
  split
  · exact List.mem_mergeSort
  · rw [List.take_of_length_le (by rwa [List.length_mergeSort])]
    exact List.mem_mergeSort

theorem mem_procTotals {db : Db} {start : ℤ} {comm : String} {v : ℤ × ℤ} :
    (comm,v) ∈ procTotals db start ↔
      total (fun k => start ≤ k.ts && k.name = comm) db.procHourly.rows =
        (v : WithZero (ℤ × ℤ)) := by
  unfold procTotals
  rw [← Table.cell_eq_coe, Table.cell_group, total_rekey (fun k : Key => k.name),
    total_filter _ (fun k : Key => start ≤ k.ts)]

def pairs (rows : List Row) : List (ℤ × Counts) := rows.map (fun r => (r.ts, r.toCounts))

def matchesIface (iface : Option String) (k : Key) : Bool :=
  match iface with
  | some i => k.name = i
  | none => true

theorem pairs_queryRange_none (db : Db) (src : Source) (lo hi : ℤ) :
    pairs (queryRange db src lo hi none) =
      (Table.group (((db.table src).rows.filter (fun r => lo ≤ r.1.ts && r.1.ts < hi)).map
        (fun r => (r.1.ts,r.2)))).rows := by
  simp [pairs, queryRange, List.map_map, Function.comp_def]

theorem total_queryRange (db : Db) (src : Source) (lo hi : ℤ) (iface : Option String)
    (p : ℤ → Bool) :
    total p (pairs (queryRange db src lo hi iface)) =
      total (fun k => lo ≤ k.ts && k.ts < hi && (matchesIface iface k && p k.ts))
        (db.table src).rows := by
  cases iface with
  | none =>
    rw [pairs_queryRange_none, Table.total_group, total_rekey (fun k : Key => k.ts),
      total_filter (fun k : Key => p k.ts) (fun k : Key => lo ≤ k.ts && k.ts < hi)]
    exact total_congr (fun r _ => by simp [matchesIface])
  | some i =>
    have hpairs : pairs (queryRange db src lo hi (some i)) =
        (((db.table src).rows.filter (fun r => lo ≤ r.1.ts && r.1.ts < hi)).filter
          (fun r => r.1.name = i)).map (fun r => (r.1.ts,r.2)) := by
      simp [pairs, queryRange, List.map_map, Function.comp_def]
    rw [hpairs, total_rekey (fun k : Key => k.ts),
      total_filter (fun k : Key => p k.ts) (fun k : Key => decide (k.name = i)),
      total_filter _ (fun k : Key => lo ≤ k.ts && k.ts < hi)]
    exact total_congr (fun r _ => rfl)

theorem total_of_mem_queryRange {db : Db} {src : Source} {lo hi : ℤ} {r : Row}
    (h : r ∈ queryRange db src lo hi none) :
    total (fun k => k.ts = r.ts) (db.table src).rows = (r.toCounts : WithZero Counts) := by
  have hcell : total (fun t => t = r.ts) (pairs (queryRange db src lo hi none)) =
      (r.toCounts : WithZero Counts) := by
    rw [pairs_queryRange_none, Table.total_key, Table.cell_eq_coe, ← pairs_queryRange_none]
    exact List.mem_map_of_mem h
  rw [total_queryRange] at hcell
  obtain ⟨x, -, hx⟩ := total_ne_zero.mp (hcell ▸ WithZero.coe_ne_zero)
  simp only [matchesIface, Bool.true_and, Bool.and_eq_true, decide_eq_true_eq] at hx
  obtain ⟨⟨hlo, hhi⟩, hts⟩ := hx
  rw [← hcell]
  refine total_congr (fun y _ => ?_)
  by_cases hy : y.1.ts = r.ts
  · simp [hy, ← hts, hlo, hhi, matchesIface]
  · simp [hy]

theorem Key.ts_lt_of_lt {k k' : Key} (h : k < k') (hname : k.name = k'.name) : k.ts < k'.ts := by
  rcases (Prod.Lex.toLex_lt_toLex (x := (k.ts,k.name)) (y := (k'.ts,k'.name))).mp h with h | ⟨-, h⟩
  · exact h
  · exact absurd hname h.ne

theorem queryRange_ascending (db : Db) (src : Source) (lo hi : ℤ) (iface : Option String) :
    (queryRange db src lo hi iface).Pairwise (fun a b => a.ts < b.ts) := by
  unfold queryRange
  cases iface with
  | none => exact List.pairwise_map.mpr (Table.sorted _)
  | some i =>
    refine List.pairwise_map.mpr ((((db.table src).sorted.filter _).filter _).imp_of_mem ?_)
    intro a b ha hb hab
    have hname : ∀ x : Sample, x ∈ ((db.table src).rows.filter
        (fun r => lo ≤ r.1.ts && r.1.ts < hi)).filter (fun r => r.1.name = i) → x.1.name = i :=
      fun x hx => by simpa using (List.mem_filter.mp hx).2
    exact Key.ts_lt_of_lt hab ((hname a ha).trans (hname b hb).symm)

theorem foldl_bucketRows (floor : ℤ → ℤ) (rows : List Row) (m : Table ℤ Row)
    (hm : ∀ x ∈ m.rows, x.2.ts = x.1) :
    let m' := rows.foldl (fun (m : Table ℤ Row) r =>
      m.upsert (floor r.ts) { r with ts := floor r.ts } (fun e => e.addCounts r)) m
    (∀ x ∈ m'.rows, x.2.ts = x.1) ∧
      m'.mapVal Row.toCounts =
        (m.mapVal Row.toCounts).addAll (rows.map (fun r => (floor r.ts, r.toCounts))) := by
  induction rows generalizing m with
  | nil => exact ⟨hm, rfl⟩
  | cons r rows ih =>
    intro m'
    have hstep := ih (m.upsert (floor r.ts) { r with ts := floor r.ts } (fun e => e.addCounts r))
      (fun x hx => by
        rcases Table.mem_upsert hx with rfl | ⟨v, hv, rfl⟩ | hx
        · rfl
        · exact hm (floor r.ts, v) hv
        · exact hm x hx)
    refine ⟨hstep.1, hstep.2.trans ?_⟩
    rw [Table.mapVal_upsert _ _ _ _ _ (fun c => c + r.toCounts) (fun _ => rfl)]
    rfl

theorem pairs_bucketRows (floor : ℤ → ℤ) (rows : List Row) :
    pairs (bucketRows floor rows) =
      (Table.group (rows.map (fun r => (floor r.ts, r.toCounts)))).rows := by
  obtain ⟨hts, hval⟩ := foldl_bucketRows floor rows ∅ (by simp)
  have hrows := congrArg Table.rows hval
  rw [Table.rows_mapVal] at hrows
  unfold pairs bucketRows
  rw [List.map_map]
  refine Eq.trans (List.map_congr_left (fun x hx => ?_)) hrows
  simp [hts x hx]

theorem total_bucketRows (floor : ℤ → ℤ) (rows : List Row) (p : ℤ → Bool) :
    total p (pairs (bucketRows floor rows)) = total (fun t => p (floor t)) (pairs rows) := by
  rw [pairs_bucketRows, Table.total_group]
  have hmap : rows.map (fun r => (floor r.ts, r.toCounts)) =
      (pairs rows).map (fun r => (floor r.1, r.2)) := by
    simp [pairs, List.map_map, Function.comp_def]
  rw [hmap, total_rekey floor]

theorem closed_queryRange {Q : Counts → Prop} (hadd : ∀ a b, Q a → Q b → Q (a + b)) {db : Db}
    {src : Source} (h : ∀ x ∈ (db.table src).rows, Q x.2) (lo hi : ℤ) (iface : Option String) :
    ∀ r ∈ queryRange db src lo hi iface, Q r.toCounts := by
  intro r hr
  cases iface with
  | some i =>
    obtain ⟨x, hx, rfl⟩ := List.mem_map.mp hr
    exact h x (List.mem_of_mem_filter (List.mem_of_mem_filter hx))
  | none =>
    have hp : (r.ts, r.toCounts) ∈ pairs (queryRange db src lo hi none) :=
      List.mem_map_of_mem hr
    rw [pairs_queryRange_none, ← Table.cell_eq_coe, Table.cell_group] at hp
    refine total_closed hadd (fun x hx _ => ?_) hp
    obtain ⟨y, hy, rfl⟩ := List.mem_map.mp hx
    exact h y (List.mem_of_mem_filter hy)

theorem closed_bucketRows {Q : Counts → Prop} (hadd : ∀ a b, Q a → Q b → Q (a + b))
    {rows : List Row} (h : ∀ r ∈ rows, Q r.toCounts) (floor : ℤ → ℤ) :
    ∀ r ∈ bucketRows floor rows, Q r.toCounts := by
  intro r hr
  have hp : (r.ts, r.toCounts) ∈ pairs (bucketRows floor rows) := List.mem_map_of_mem hr
  rw [pairs_bucketRows, ← Table.cell_eq_coe, Table.cell_group] at hp
  refine total_closed hadd (fun x hx _ => ?_) hp
  obtain ⟨y, hy, rfl⟩ := List.mem_map.mp hx
  exact h y hy

def Db.All (Q : Counts → Prop) (db : Db) : Prop := ∀ src, ∀ x ∈ (db.table src).rows, Q x.2

variable {Q : Counts → Prop}

theorem all_init : Db.init.All Q := by
  intro src x hx
  cases src with
  | samples => simp [Db.table, Db.init] at hx
  | rollup L => cases L <;> simp [Db.table, Db.level, Db.init] at hx

theorem closed_rollupCall (hadd : ∀ a b, Q a → Q b → Q (a + b)) {db : Db} {L : Level}
    (hsamples : ∀ x ∈ db.samples.rows, Q x.2) (hlevel : ∀ x ∈ (db.level L).rows, Q x.2)
    (bucket : Level → ℤ → ℤ) (f : Faults) :
    ∀ x ∈ ((rollupCall bucket f db).level L).rows, Q x.2 := by
  rcases rollupCall_cases bucket f db with ⟨-, he⟩ | ⟨-, he⟩
  · -- a bucket adds folded samples to what the table held, or to nothing
    intro x hx
    obtain ⟨k,c⟩ := x
    rw [he, Db.level_folded, ← Table.cell_eq_coe, Table.cell_addAll] at hx
    have hsum : total (fun k' => k' = k) ((if (rollupMarker f db).isNone then ∅
        else db.level L).rows ++ bucketed (bucket L) (rollupRows f db)) =
          (c : WithZero Counts) := by
      rw [total_append, Table.total_key]
      exact hx
    refine total_closed hadd (fun y hy _ => ?_) hsum
    rcases List.mem_append.mp hy with hy | hy
    · split at hy
      · simp at hy
      · exact hlevel y hy
    · obtain ⟨z, hz, rfl⟩ := List.mem_map.mp hy
      exact hsamples z (mem_of_rollupRows hz)
  · rw [he]
    exact hlevel

theorem all_rollupCall (hadd : ∀ a b, Q a → Q b → Q (a + b)) {db : Db} (h : db.All Q)
    (bucket : Level → ℤ → ℤ) (f : Faults) : (rollupCall bucket f db).All Q := by
  intro src x hx
  cases src with
  | samples =>
    refine h .samples x ?_
    simpa [Db.table] using hx
  | rollup L => exact closed_rollupCall hadd (h .samples) (h (.rollup L)) bucket f x hx

theorem all_tick {s : State} (h : s.db.All Q) {cfg : Config} {r : Reading}
    (hr : ∀ x ∈ sampleRows cfg s.daemon r, Q x.2) (tz : TimeZone) :
    (tick cfg tz s r).db.All Q := by
  cases hgap : gapBranch cfg r with
  | true => rwa [tick_gap hgap]
  | false =>
    have ht := ticked hgap tz s
    intro src x hx
    cases src with
    | samples =>
      change x ∈ (tick cfg tz s r).db.samples.rows at hx
      rw [ht.samples] at hx
      rcases mem_insertSamples hx with hx | hx
      · exact h .samples x hx
      · obtain ⟨p, hp, rfl⟩ := List.mem_map.mp hx
        exact hr p hp
    | rollup L =>
      change x ∈ ((tick cfg tz s r).db.level L).rows at hx
      rw [ht.level] at hx
      exact h (.rollup L) x hx

theorem all_retention {db : Db} (h : db.All Q) (cfg : Config) (now : ℤ) :
    (enforceRetention cfg now db).All Q := by
  intro src x hx
  cases src with
  | samples => exact h .samples x (List.mem_of_mem_filter hx)
  | rollup L =>
    cases L with
    | hourly => exact h (.rollup .hourly) x (List.mem_of_mem_filter hx)
    | daily => exact h (.rollup .daily) x hx
    | monthly => exact h (.rollup .monthly) x hx

theorem all_step (hadd : ∀ a b, Q a → Q b → Q (a + b)) {cfg : Config} {s : State}
    (h : s.db.All Q) (tz : TimeZone) (e : Event)
    (hr : ∀ r, e = .tick r → ∀ x ∈ sampleRows cfg s.daemon r, Q x.2) :
    (step cfg tz s e).db.All Q := by
  cases e with
  | tick r => exact all_tick h (hr r rfl) tz
  | rollup f => exact all_rollupCall hadd h _ f
  | retain now => exact all_retention h cfg now.secs
  | restart => exact h

end Netmeter
