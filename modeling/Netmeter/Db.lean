import Netmeter.Lib.Table
import Netmeter.Lib.Transaction
import Netmeter.Floors
set_option autoImplicit false

/-!
The database of `db.rs`: its tables, the incremental rollup and the range query.
Sums are exact: no column is assumed to reach 2^63.
-/

namespace Netmeter
open Keyed

/-- The primary key `(ts, iface)` of every traffic table, and `(ts_hour, comm)`. -/
@[ext] structure Key where
  ts : ℤ
  name : String
  deriving Repr

instance : LinearOrder Key :=
  LinearOrder.lift' (fun k => toLex (k.ts, k.name)) (fun a b h => by
    have h' := congrArg ofLex h
    simp only [ofLex_toLex, Prod.mk.injEq] at h'
    exact Key.ext h'.1 h'.2)

@[ext] structure Counts where
  rx : ℤ
  tx : ℤ
  lanRx : ℤ
  lanTx : ℤ
  deriving DecidableEq, Repr

namespace Counts

instance : Add Counts := ⟨fun a b =>
  ⟨a.rx + b.rx, a.tx + b.tx, a.lanRx + b.lanRx, a.lanTx + b.lanTx⟩⟩

instance : Zero Counts := ⟨⟨0, 0, 0, 0⟩⟩

@[simp] theorem rx_add (a b : Counts) : (a + b).rx = a.rx + b.rx := rfl
@[simp] theorem tx_add (a b : Counts) : (a + b).tx = a.tx + b.tx := rfl
@[simp] theorem lanRx_add (a b : Counts) : (a + b).lanRx = a.lanRx + b.lanRx := rfl
@[simp] theorem lanTx_add (a b : Counts) : (a + b).lanTx = a.lanTx + b.lanTx := rfl
@[simp] theorem rx_zero : (0 : Counts).rx = 0 := rfl
@[simp] theorem tx_zero : (0 : Counts).tx = 0 := rfl
@[simp] theorem lanRx_zero : (0 : Counts).lanRx = 0 := rfl
@[simp] theorem lanTx_zero : (0 : Counts).lanTx = 0 := rfl

instance : AddCommMonoid Counts where
  add_assoc a b c := by ext <;> simp [add_assoc]
  zero_add a := by ext <;> simp
  add_zero a := by ext <;> simp
  add_comm a b := by ext <;> simp [add_comm]
  nsmul := nsmulRec

def total (c : Counts) : ℤ := c.rx + c.tx

def rxHom : Counts →+ ℤ := ⟨⟨rx, rfl⟩, fun _ _ => rfl⟩
def txHom : Counts →+ ℤ := ⟨⟨tx, rfl⟩, fun _ _ => rfl⟩
def lanRxHom : Counts →+ ℤ := ⟨⟨lanRx, rfl⟩, fun _ _ => rfl⟩
def lanTxHom : Counts →+ ℤ := ⟨⟨lanTx, rfl⟩, fun _ _ => rfl⟩

def wanRx (c : Counts) : ℤ := max (c.rx - c.lanRx) 0

def wanTx (c : Counts) : ℤ := max (c.tx - c.lanTx) 0

end Counts

@[ext] structure Row extends Counts where
  ts : ℤ
  iface : String
  deriving DecidableEq, Repr

inductive Level where
  | hourly | daily | monthly
  deriving DecidableEq, Repr

def Level.floor (tz : TimeZone) : Level → ℤ → ℤ
  | .hourly => floorHour tz
  | .daily => floorDay tz
  | .monthly => floorMonth tz

def Level.starts : Level → Set ℤ
  | .hourly => hourStarts
  | .daily => dayStarts
  | .monthly => monthStarts

theorem isFloor_level (L : Level) : Floor.IsFloor L.starts (L.floor .utc) := by
  cases L
  · exact isFloor_hour
  · exact isFloor_day
  · exact isFloor_monthStarts

/-- The tables of `init`. The `meta` rows are kept decoded; a key that is absent
or whose text does not parse is `none`. -/
@[ext] structure Db where
  samples : Table Key Counts := ∅
  hourly : Table Key Counts := ∅
  daily : Table Key Counts := ∅
  monthly : Table Key Counts := ∅
  budgetEvents : Table String (ℤ × ℤ) := ∅
  procHourly : Table Key (ℤ × ℤ) := ∅
  lastRollupTs : Option ℤ := none
  nftOk : Option Bool := none
  discardedSamples : Option ℤ := none
  deriving DecidableEq

namespace Db

def init : Db := {}

def level (db : Db) : Level → Table Key Counts
  | .hourly => db.hourly
  | .daily => db.daily
  | .monthly => db.monthly

def setLevel (db : Db) (t : Table Key Counts) : Level → Db
  | .hourly => { db with hourly := t }
  | .daily => { db with daily := t }
  | .monthly => { db with monthly := t }

end Db

abbrev Sample := Key × Counts

def Db.insertSamples (db : Db) (ts : ℤ) (rows : List (String × Counts)) : Db :=
  { db with samples := rows.foldl (fun t p => t.set ⟨ts,p.1⟩ p.2) db.samples }

def tickRows (ts : ℤ) (rows : List (String × Counts)) : List Sample :=
  rows.map (fun p => (⟨ts,p.1⟩, p.2))

theorem ts_of_mem_tickRows {ts : ℤ} {rows : List (String × Counts)} {r : Sample}
    (h : r ∈ tickRows ts rows) : r.1.ts = ts := by
  obtain ⟨p, -, rfl⟩ := List.mem_map.mp h
  rfl

theorem samples_insertSamples (db : Db) (ts : ℤ) (rows : List (String × Counts)) :
    (db.insertSamples ts rows).samples = db.samples.setAll (tickRows ts rows) := by
  unfold Table.setAll tickRows
  rw [List.foldl_map]
  rfl

theorem mem_insertSamples {db : Db} {ts : ℤ} {rows : List (String × Counts)} {x : Sample}
    (h : x ∈ (db.insertSamples ts rows).samples.rows) :
    x ∈ db.samples.rows ∨ x ∈ tickRows ts rows := by
  rw [samples_insertSamples] at h
  exact Table.mem_setAll h

theorem total_insertSamples {p : Key → Bool} {ts : ℤ} (hp : ∀ k : Key, k.ts = ts → p k = false)
    (db : Db) (rows : List (String × Counts)) :
    total p (db.insertSamples ts rows).samples.rows = total p db.samples.rows := by
  rw [samples_insertSamples]
  exact Table.total_setAll_of_not (fun r hr => hp r.1 (ts_of_mem_tickRows hr)) _

theorem tickRows_nodup {rows : List (String × Counts)} (h : (rows.map (·.1)).Nodup) (ts : ℤ) :
    ((tickRows ts rows).map (·.1)).Nodup := by
  have hmap : (tickRows ts rows).map (·.1) = (rows.map (·.1)).map (fun n => ⟨ts,n⟩) := by
    simp [tickRows]
  rw [hmap]
  exact h.map (fun a b e => by simpa using e)

theorem insertSamples_perm {db : Db} {ts : ℤ} {rows : List (String × Counts)}
    (hts : ∀ r ∈ db.samples.rows, r.1.ts ≠ ts) (hnodup : (rows.map (·.1)).Nodup) :
    (db.insertSamples ts rows).samples.rows.Perm (db.samples.rows ++ tickRows ts rows) := by
  rw [samples_insertSamples]
  refine Table.setAll_perm (tickRows_nodup hnodup ts) (fun r hr x hx e => hts r hr ?_)
  rw [e, ts_of_mem_tickRows hx]

/-! ## The statements of a rollup -/

/-- Every point of `rollup` where SQLite can return an error. `step i` ends the
row iteration, `row i` makes `sample_row` fail on the `i`-th row alone. -/
inductive Stmt where
  | readMarker
  | select
  | step (i : ℕ)
  | row (i : ℕ)
  | beginTx
  | delete (L : Level)
  | prepare (L : Level)
  | upsert (L : Level) (i : ℕ)
  | writeMarker
  | commit
  deriving DecidableEq, Repr

abbrev Faults := Stmt → Bool

def noFaults : Faults := fun _ => false

/-- Newest sample ts already folded in; an error reads as "no marker" (`.ok()`). -/
def rollupMarker (f : Faults) (db : Db) : Option ℤ :=
  if f .readMarker then none else db.lastRollupTs

def newerThan (last : Option ℤ) (rows : List Sample) : List Sample :=
  match last with
  | none => rows
  | some m => rows.filter (fun r => m < r.1.ts)

/-- `query_map(..).filter_map(|r| r.ok())`: failing rows are dropped silently. -/
def fetch (f : Faults) : ℕ → List Sample → List Sample
  | _, [] => []
  | i, r :: rest =>
    if f (.step i) then []
    else if f (.row i) then fetch f (i+1) rest
    else r :: fetch f (i+1) rest

def maxTs (rows : List Sample) : ℤ := (rows.map (·.1.ts)).max?.getD 0

theorem maxTs_spec {rows : List Sample} (h : rows ≠ []) :
    (∃ r ∈ rows, r.1.ts = maxTs rows) ∧ ∀ r ∈ rows, r.1.ts ≤ maxTs rows := by
  unfold maxTs
  cases hm : (rows.map (·.1.ts)).max? with
  | none => simp [h] at hm
  | some m =>
    obtain ⟨hmem, hle⟩ := List.max?_eq_some_iff.mp hm
    obtain ⟨r, hr, he⟩ := List.mem_map.mp hmem
    exact ⟨⟨r, hr, he⟩, fun r hr => hle _ (List.mem_map_of_mem hr)⟩

theorem maxTs_eq {rows : List Sample} {m : ℤ} (hmem : ∃ r ∈ rows, r.1.ts = m)
    (hle : ∀ r ∈ rows, r.1.ts ≤ m) : maxTs rows = m := by
  obtain ⟨r, hr, rfl⟩ := hmem
  obtain ⟨⟨s, hs, he⟩, hmax⟩ := maxTs_spec (List.ne_nil_of_mem hr)
  exact le_antisymm (he ▸ hle s hs) (hmax r hr)

def bucketed (bucket : ℤ → ℤ) (rows : List Sample) : List Sample :=
  rows.map (fun r => (⟨bucket r.1.ts, r.1.name⟩, r.2))

def levels : List Level := [.hourly, .daily, .monthly]

def upsertLevel (L : Level) (e : Sample) (db : Db) : Db :=
  db.setLevel ((db.level L).add e.1 e.2) L

open Transaction in
/-- The write transaction: without a marker the tables are rebuilt, with one they
are added to. -/
def rollupScript (last : Option ℤ) (maps : Level → Table Key Counts) (newest : ℤ) :
    Script Stmt Db :=
  [(.beginTx, id)] ++
  (if last.isNone then levels.map (fun L => (.delete L, fun db => db.setLevel ∅ L)) else []) ++
  levels.flatMap (fun L =>
    (.prepare L, id) :: (maps L).rows.mapIdx (fun i e => (.upsert L i, upsertLevel L e))) ++
  [(.writeMarker, fun db => { db with lastRollupTs := some newest }), (.commit, id)]

/-- Roll raw samples into the bucket tables; `bucket` are the floors of the zone. -/
def rollup (bucket : Level → ℤ → ℤ) (f : Faults) (db : Db) : Except Stmt Db :=
  let last := rollupMarker f db
  if f .select then .error .select
  else
    let rows := fetch f 0 (newerThan last db.samples.rows)
    if rows.isEmpty then .ok db
    else
      Transaction.run f
        (rollupScript last (fun L => Table.group (bucketed (bucket L) rows)) (maxTs rows)) db

/-- `let _ = db::rollup(..)`: an error leaves the rolled back database. -/
def rollupCall (bucket : Level → ℤ → ℤ) (f : Faults) (db : Db) : Db :=
  Transaction.orRollback db (rollup bucket f db)

def Db.folded (bucket : Level → ℤ → ℤ) (clear : Bool) (rows : List Sample) (db : Db) : Db :=
  { db with
    hourly := (if clear then ∅ else db.hourly).addAll (bucketed (bucket .hourly) rows)
    daily := (if clear then ∅ else db.daily).addAll (bucketed (bucket .daily) rows)
    monthly := (if clear then ∅ else db.monthly).addAll (bucketed (bucket .monthly) rows)
    lastRollupTs := some (maxTs rows) }

theorem Db.level_folded (bucket : Level → ℤ → ℤ) (clear : Bool) (rows : List Sample) (db : Db)
    (L : Level) : (db.folded bucket clear rows).level L =
      (if clear then ∅ else db.level L).addAll (bucketed (bucket L) rows) := by
  cases L <;> rfl

theorem foldl_upsertLevel (L : Level) (l : List Sample) (db : Db) :
    l.foldl (fun db e => upsertLevel L e db) db = db.setLevel ((db.level L).addAll l) L := by
  induction l generalizing db with
  | nil => cases L <;> rfl
  | cons e l ih =>
    rw [List.foldl_cons, ih]
    cases L <;> rfl

theorem apply_rollupScript (bucket : Level → ℤ → ℤ) (last : Option ℤ) (rows : List Sample)
    (db : Db) :
    Transaction.apply
      (rollupScript last (fun L => Table.group (bucketed (bucket L) rows)) (maxTs rows)) db =
      db.folded bucket last.isNone rows := by
  unfold rollupScript
  cases last <;>
  · simp only [levels, Transaction.apply_append, Transaction.apply_cons, Transaction.apply_nil,
      Option.isNone_none, Option.isNone_some, if_true, Bool.false_eq_true, if_false,
      List.map_cons, List.map_nil, List.flatMap_cons, List.flatMap_nil,
      Transaction.apply_mapIdx, foldl_upsertLevel, Table.addAll_group, id]
    rfl

theorem fetch_sublist (f : Faults) (i : ℕ) (rows : List Sample) :
    (fetch f i rows).Sublist rows := by
  induction rows generalizing i with
  | nil => exact List.Sublist.refl _
  | cons r rows ih =>
    unfold fetch
    split
    · exact List.nil_sublist _
    · split
      · exact (ih _).cons _
      · exact (ih _).cons_cons _

def ReadsOk (f : Faults) : Prop :=
  f .readMarker = false ∧ ∀ i, f (.step i) = false ∧ f (.row i) = false

theorem fetch_of_readsOk {f : Faults} (h : ReadsOk f) (i : ℕ) (rows : List Sample) :
    fetch f i rows = rows := by
  induction rows generalizing i with
  | nil => rfl
  | cons r rows ih => simp [fetch, (h.2 i).1, (h.2 i).2, ih]

theorem rollupMarker_of_readsOk {f : Faults} (h : ReadsOk f) (db : Db) :
    rollupMarker f db = db.lastRollupTs := by
  simp [rollupMarker, h.1]

def rollupRows (f : Faults) (db : Db) : List Sample :=
  fetch f 0 (newerThan (rollupMarker f db) db.samples.rows)

theorem mem_of_rollupRows {f : Faults} {db : Db} {x : Sample} (h : x ∈ rollupRows f db) :
    x ∈ db.samples.rows := by
  have hx := (fetch_sublist f 0 _).subset h
  unfold newerThan at hx
  split at hx
  · exact hx
  · exact List.mem_of_mem_filter hx

/-- No statement that the call issues fails, and there is something to commit. -/
def Commits (bucket : Level → ℤ → ℤ) (f : Faults) (db : Db) : Prop :=
  f .select = false ∧ rollupRows f db ≠ [] ∧
    Transaction.succeeds f (rollupScript (rollupMarker f db)
      (fun L => Table.group (bucketed (bucket L) (rollupRows f db))) (maxTs (rollupRows f db)))

theorem rollupCall_cases (bucket : Level → ℤ → ℤ) (f : Faults) (db : Db) :
    (Commits bucket f db ∧ rollupCall bucket f db =
        db.folded bucket (rollupMarker f db).isNone (rollupRows f db)) ∨
      (¬ Commits bucket f db ∧ rollupCall bucket f db = db) := by
  unfold rollupCall rollup
  by_cases hsel : f .select
  · exact .inr ⟨fun h => by simp [h.1] at hsel, by simp [hsel, Transaction.orRollback]⟩
  by_cases hrows : rollupRows f db = []
  · refine .inr ⟨fun h => h.2.1 hrows, ?_⟩
    unfold rollupRows at hrows
    simp [hsel, hrows, Transaction.orRollback]
  have hne : (fetch f 0 (newerThan (rollupMarker f db) db.samples.rows)).isEmpty = false := by
    simpa [rollupRows, List.isEmpty_iff] using hrows
  simp only [hsel, Bool.false_eq_true, if_false, hne]
  rcases Transaction.orRollback_run f (rollupScript (rollupMarker f db)
      (fun L => Table.group (bucketed (bucket L) (rollupRows f db))) (maxTs (rollupRows f db))) db
    with ⟨hok, hrun⟩ | ⟨hok, hrun⟩
  · refine .inl ⟨⟨by simpa using hsel, hrows, hok⟩, ?_⟩
    rw [← apply_rollupScript]
    exact hrun
  · exact .inr ⟨fun h => hok h.2.2, hrun⟩

@[simp] theorem samples_rollupCall (bucket : Level → ℤ → ℤ) (f : Faults) (db : Db) :
    (rollupCall bucket f db).samples = db.samples := by
  rcases rollupCall_cases bucket f db with ⟨-, h⟩ | ⟨-, h⟩ <;> rw [h]
  rfl

@[simp] theorem procHourly_rollupCall (bucket : Level → ℤ → ℤ) (f : Faults) (db : Db) :
    (rollupCall bucket f db).procHourly = db.procHourly := by
  rcases rollupCall_cases bucket f db with ⟨-, h⟩ | ⟨-, h⟩ <;> rw [h]
  rfl

theorem total_bucketed (bucket : ℤ → ℤ) (k : Key) (rows : List Sample) :
    total (fun k' => k' = k) (bucketed bucket rows) =
      total (fun k' => k'.name = k.name && bucket k'.ts = k.ts) rows := by
  unfold bucketed
  rw [total_rekey (fun k' : Key => (⟨bucket k'.ts, k'.name⟩ : Key))]
  apply total_congr
  intro r _
  simp [Key.ext_iff, Bool.and_comm]

end Netmeter
