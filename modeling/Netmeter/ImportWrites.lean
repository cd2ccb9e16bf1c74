import Netmeter.Import
set_option autoImplicit false

/-!
What an import leaves behind: the statements it has committed when an entry or a
statement fails, the last entry of each day when none does, and the LAN columns
it never touches.
-/

namespace Netmeter
open Keyed Transaction

abbrev DayWrite := Key × (ℤ × ℤ)

inductive ImportFailure where
  | date (e : ImportError)
  | statement (i : ℕ)
  deriving DecidableEq, Repr

/-- `importRows` where the `i`-th upsert itself may fail. -/
def importRowsFailing (fails : ℕ → Bool) :
    ℕ → List (Except ImportError (Option DayWrite)) → Db → Db × Except ImportFailure ℕ
  | _, [], db => (db, .ok 0)
  | _, .error e :: _, db => (db, .error (.date e))
  | i, .ok none :: rest, db => importRowsFailing fails i rest db
  | i, .ok (some w) :: rest, db =>
    if fails i then (db, .error (.statement i))
    else
      let out := importRowsFailing fails (i+1) rest (db.importDaily w.1 w.2)
      (out.1, out.2.map (· + 1))

def cmdImportFailing (fails : ℕ → Bool) (cfg : Config) (tz : TimeZone) (doc : Json) (db : Db) :
    Db × Except ImportFailure ℕ :=
  importRowsFailing fails 0 (importResults cfg tz doc) db

/-- The writes before the first entry or statement that fails. -/
def writesBefore (fails : ℕ → Bool) :
    ℕ → List (Except ImportError (Option DayWrite)) → List DayWrite
  | _, [] => []
  | _, .error _ :: _ => []
  | i, .ok none :: rest => writesBefore fails i rest
  | i, .ok (some w) :: rest => if fails i then [] else w :: writesBefore fails (i+1) rest

/-- No entry has a bad date and no statement that is issued fails. -/
def AllWritten (fails : ℕ → Bool) : ℕ → List (Except ImportError (Option DayWrite)) → Prop
  | _, [] => True
  | _, .error _ :: _ => False
  | i, .ok none :: rest => AllWritten fails i rest
  | i, .ok (some _) :: rest => fails i = false ∧ AllWritten fails (i+1) rest

/-- The entries of interfaces that are not excluded and of years from 2000 on. -/
def acceptedDays (cfg : Config) (tz : TimeZone) (doc : Json) : List DayWrite :=
  (importResults cfg tz doc).filterMap (fun r => r.toOption.join)

def Db.importAll (db : Db) (ws : List DayWrite) : Db :=
  ws.foldl (fun db w => db.importDaily w.1 w.2) db

variable (fails : ℕ → Bool)

theorem importRowsFailing_none (i : ℕ) (results : List (Except ImportError (Option DayWrite)))
    (db : Db) : importRowsFailing (fun _ => false) i results db =
      ((importRows results db).1, (importRows results db).2.mapError .date) := by
  fun_induction importRows results db generalizing i with
  | case1 db => rfl
  | case2 e rest db => rfl
  | case3 rest db ih => exact ih i
  | case4 w rest db out ih =>
    simp only [importRowsFailing, Bool.false_eq_true, if_false, ih (i+1)]
    cases out.2 <;> rfl

theorem cmdImportFailing_none (cfg : Config) (tz : TimeZone) (doc : Json) (db : Db) :
    cmdImportFailing (fun _ => false) cfg tz doc db =
      ((cmdImport cfg tz doc db).1, (cmdImport cfg tz doc db).2.mapError .date) :=
  importRowsFailing_none 0 _ db

theorem importRowsFailing_db (i : ℕ) (results : List (Except ImportError (Option DayWrite)))
    (db : Db) :
    (importRowsFailing fails i results db).1 = db.importAll (writesBefore fails i results) := by
  fun_induction importRowsFailing fails i results db with
  | case1 i db => rfl
  | case2 i e rest db => rfl
  | case3 i rest db ih => exact ih
  | case4 i w rest db hf => simp [writesBefore, hf, Db.importAll]
  | case5 i w rest db hf out ih =>
    simp only [writesBefore, hf]
    exact ih

theorem importRowsFailing_ok (i : ℕ) (results : List (Except ImportError (Option DayWrite)))
    (db : Db) :
    ((∃ n, (importRowsFailing fails i results db).2 = .ok n) ↔ AllWritten fails i results) ∧
      (AllWritten fails i results →
        writesBefore fails i results = results.filterMap (fun r => r.toOption.join)) := by
  fun_induction importRowsFailing fails i results db with
  | case1 i db => simp [AllWritten, writesBefore]
  | case2 i e rest db => simp [AllWritten]
  | case3 i rest db ih =>
    simp only [AllWritten, writesBefore]
    exact ⟨ih.1, fun h => by rw [ih.2 h]; rfl⟩
  | case4 i w rest db hf => simp [AllWritten, hf]
  | case5 i w rest db hf out ih =>
    rw [Bool.not_eq_true] at hf
    simp only [AllWritten, writesBefore, hf, true_and, Bool.false_eq_true, if_false]
    refine ⟨?_, fun h => by rw [ih.2 h]; rfl⟩
    rw [← ih.1]
    cases out.2 <;> simp [Except.map]

/-- The row an entry leaves where `c` was. -/
def importedRow (c : Option Counts) (v : ℤ × ℤ) : Counts :=
  (c.map (fun c => { c with rx := v.1, tx := v.2 })).getD ⟨v.1,v.2,0,0⟩

@[simp] theorem importedRow_importedRow (c : Option Counts) (v v' : ℤ × ℤ) :
    importedRow (some (importedRow c v)) v' = importedRow c v' := by
  cases c <;> rfl

theorem lookup_importAll (db : Db) (ws : List DayWrite) (k : Key) :
    (db.importAll ws).daily.lookup k =
      ((Table.lastValue k ws).map (importedRow (db.daily.lookup k))).or (db.daily.lookup k) := by
  induction ws generalizing db with
  | nil => rfl
  | cons w ws ih =>
    have hstep : (db.importDaily w.1 w.2).daily.lookup k =
        if k = w.1 then some (importedRow (db.daily.lookup w.1) w.2) else db.daily.lookup k :=
      Table.lookup_upsert _ _ _ _ _
    rw [show w :: ws = [w] ++ ws from rfl, Table.lastValue_append, Table.lastValue_singleton]
    show ((db.importDaily w.1 w.2).importAll ws).daily.lookup k = _
    rw [ih, hstep]
    by_cases hk : k = w.1
    · subst hk
      cases Table.lastValue w.1 ws <;> simp
    · cases Table.lastValue k ws <;> simp [hk]

theorem importAll_eq (db : Db) (ws : List DayWrite) :
    db.importAll ws = { db with daily := (db.importAll ws).daily } := by
  induction ws generalizing db with
  | nil => rfl
  | cons w ws ih => exact ih (db.importDaily w.1 w.2)

/-- The last entry of every day repeats what the table already has. -/
def Repeats (db : Db) (ws : List DayWrite) : Prop :=
  ∀ k v, Table.lastValue k ws = some v →
    ∃ c, db.daily.lookup k = some c ∧ (c.rx,c.tx) = v

theorem importAll_daily_iff (db : Db) (ws : List DayWrite) :
    (db.importAll ws).daily = db.daily ↔ Repeats db ws := by
  constructor
  · intro h k v hv
    have hk := lookup_importAll db ws k
    rw [h, hv] at hk
    refine ⟨_, hk, ?_⟩
    cases db.daily.lookup k <;> rfl
  · intro h
    refine Table.ext_lookup (fun k => ?_)
    rw [lookup_importAll]
    cases hv : Table.lastValue k ws with
    | none => rfl
    | some v =>
      obtain ⟨c, hc, rfl⟩ := h k v hv
      simp [hc, importedRow]

theorem importAll_importAll (db : Db) (ws : List DayWrite) :
    (db.importAll ws).importAll ws = db.importAll ws := by
  have hdaily : ((db.importAll ws).importAll ws).daily = (db.importAll ws).daily := by
    refine (importAll_daily_iff _ _).mpr (fun k v hv => ?_)
    refine ⟨importedRow (db.daily.lookup k) v, ?_, ?_⟩
    · rw [lookup_importAll, hv]
      rfl
    · cases db.daily.lookup k <;> rfl
  rw [importAll_eq (db.importAll ws), hdaily]

section
variable (cfg : Config) (tz : TimeZone) (doc : Json) (db : Db)

/-- A failed import leaves `daily` as it was; one that succeeds leaves the last
entry of every accepted day, changes no other row, and done again does nothing. -/
def ImportAtomic : Prop :=
  let out := cmdImportFailing fails cfg tz doc db
  (∀ e, out.2 = .error e → out.1.daily = db.daily) ∧
  ∀ n, out.2 = .ok n →
    (∀ k v, Table.lastValue k (acceptedDays cfg tz doc) = some v →
      ∃ c, out.1.daily.lookup k = some c ∧ (c.rx,c.tx) = v) ∧
    (∀ k, Table.lastValue k (acceptedDays cfg tz doc) = none →
      out.1.daily.lookup k = db.daily.lookup k) ∧
    (cmdImportFailing fails cfg tz doc out.1).1 = out.1

theorem cmdImportFailing_db : (cmdImportFailing fails cfg tz doc db).1 =
    db.importAll (writesBefore fails 0 (importResults cfg tz doc)) :=
  importRowsFailing_db fails 0 _ db

theorem cmdImportFailing_ok :
    (∃ n, (cmdImportFailing fails cfg tz doc db).2 = .ok n) ↔
      AllWritten fails 0 (importResults cfg tz doc) :=
  (importRowsFailing_ok fails 0 _ db).1

theorem writesBefore_of_allWritten (h : AllWritten fails 0 (importResults cfg tz doc)) :
    writesBefore fails 0 (importResults cfg tz doc) = acceptedDays cfg tz doc :=
  (importRowsFailing_ok fails 0 _ Db.init).2 h

/-- Exactly the imports that meet no failure, or whose writes before it repeat
the rows already there, are all or nothing. -/
theorem import_atomic_iff :
    ImportAtomic fails cfg tz doc db ↔
      AllWritten fails 0 (importResults cfg tz doc) ∨
        Repeats db (writesBefore fails 0 (importResults cfg tz doc)) := by
  have hok := cmdImportFailing_ok fails cfg tz doc db
  have hdb := cmdImportFailing_db fails cfg tz doc db
  unfold ImportAtomic
  dsimp only
  by_cases hall : AllWritten fails 0 (importResults cfg tz doc)
  · obtain ⟨n, hn⟩ := hok.mpr hall
    rw [hn, hdb, writesBefore_of_allWritten fails cfg tz doc hall]
    refine iff_of_true
      ⟨fun e he => by simp at he, fun _ _ => ⟨fun k v hv => ?_, fun k hk => ?_, ?_⟩⟩ (.inl hall)
    · refine ⟨importedRow (db.daily.lookup k) v, ?_, ?_⟩
      · rw [lookup_importAll, hv]
        rfl
      · cases db.daily.lookup k <;> rfl
    · rw [lookup_importAll, hk]
      rfl
    · rw [cmdImportFailing_db, writesBefore_of_allWritten fails cfg tz doc hall,
        importAll_importAll]
  · have herr : ∃ e, (cmdImportFailing fails cfg tz doc db).2 = .error e := by
      cases hres : (cmdImportFailing fails cfg tz doc db).2 with
      | ok n => exact absurd (hok.mp ⟨n, hres⟩) hall
      | error e => exact ⟨e, rfl⟩
    obtain ⟨e, he⟩ := herr
    rw [or_iff_right hall, ← importAll_daily_iff, ← hdb, he]
    refine ⟨fun h => h.1 e rfl, fun h => ⟨fun _ _ => h, fun n hn => by simp at hn⟩⟩

end

def badMonthDoc : Json :=
  .obj [("interfaces", .arr [.obj [("name", .str "eth0"),
    ("traffic", .obj [("days", .arr [
      .obj [("date", .obj [("year", .int 2026), ("month", .int 1), ("day", .int 2)]),
        ("rx", .int 4096), ("tx", .int 512)],
      .obj [("date", .obj [("year", .int 2026), ("month", .int 13), ("day", .int 2)]),
        ("rx", .int 1), ("tx", .int 1)]])])]])]

theorem not_import_atomic :
    ¬ ∀ (fails : ℕ → Bool) (cfg : Config) (tz : TimeZone) (doc : Json) (db : Db),
      ImportAtomic fails cfg tz doc db := by
  intro h
  have hd := (h (fun _ => false) {} .utc badMonthDoc Db.init).1 (.date .civil) (by decide +kernel)
  exact absurd hd (by decide +kernel)

def Db.DailySplit (db : Db) : Prop := ∀ x ∈ db.daily.rows, x.2.Split

def rollups (tz : TimeZone) (db : Db) (calls : List (Table Key Counts × Faults)) : Db :=
  calls.foldl (fun db e => rollupCall (Level.floor tz) e.2 { db with samples := e.1 }) db

section
variable (cfg : Config) (tz : TimeZone) (doc : Json) (db : Db)

def NonnegDoc : Prop :=
  ∀ e ∈ importEntries cfg doc, 0 ≤ e.2.i64At ["rx"] 0 ∧ 0 ≤ e.2.i64At ["tx"] 0

/-- After the import and any rollups of samples with LAN within TOTAL every daily
row has LAN within TOTAL, and so every row a view makes of them. -/
def ImportKeepsLan : Prop :=
  ∀ calls : List (Table Key Counts × Faults), (∀ e ∈ calls, ∀ x ∈ e.1.rows, x.2.Split) →
    let db' := rollups tz (cmdImportFailing fails cfg tz doc db).1 calls
    db'.DailySplit ∧
    ∀ v lo hi iface, ∀ r ∈ View.rows tz v (queryRange db' (.rollup .daily) lo hi iface),
      r.lanRx + r.wanRx = r.rx ∧ r.lanTx + r.wanTx = r.tx

/-- Every day the document writes leaves room for the LAN bytes of the row it
writes over. -/
def RoomForLan : Prop :=
  ∀ k v c, Table.lastValue k (acceptedDays cfg tz doc) = some v → db.daily.lookup k = some c →
    c.lanRx ≤ v.1 ∧ c.lanTx ≤ v.2

end

theorem mem_acceptedDays {cfg : Config} {tz : TimeZone} {doc : Json} {w : DayWrite}
    (h : w ∈ acceptedDays cfg tz doc) :
    ∃ e ∈ importEntries cfg doc, w.2 = (e.2.i64At ["rx"] 0, e.2.i64At ["tx"] 0) := by
  obtain ⟨r, hr, hw⟩ := List.mem_filterMap.mp h
  obtain ⟨e, he, rfl⟩ := List.mem_map.mp hr
  refine ⟨e, he, ?_⟩
  unfold importDay at hw
  dsimp only at hw
  split at hw
  · simp [Except.toOption] at hw
  · cases hts : importTs tz (wrapBits 16 (wrapBits 32 (e.2.i64At ["date", "year"] 0)))
        (wrapBits 8 (wrapBits 32 (e.2.i64At ["date", "month"] 1)))
        (wrapBits 8 (wrapBits 32 (e.2.i64At ["date", "day"] 1))) with
    | error err => simp [hts, Except.map, Except.toOption] at hw
    | ok ts =>
      simp only [hts, Except.map, Except.toOption, Option.join_some, Option.some.injEq] at hw
      rw [← hw]

theorem lastValue_nonneg {cfg : Config} {tz : TimeZone} {doc : Json} (h : NonnegDoc cfg doc)
    {k : Key} {v : ℤ × ℤ} (hv : Table.lastValue k (acceptedDays cfg tz doc) = some v) :
    0 ≤ v.1 ∧ 0 ≤ v.2 := by
  obtain ⟨e, he, hbytes⟩ := mem_acceptedDays (Table.mem_of_lastValue hv)
  dsimp only at hbytes
  rw [hbytes]
  exact h e he

theorem dailySplit_rollups {db : Db} (h : db.DailySplit) (tz : TimeZone)
    {calls : List (Table Key Counts × Faults)} (hcalls : ∀ e ∈ calls, ∀ x ∈ e.1.rows, x.2.Split) :
    (rollups tz db calls).DailySplit := by
  induction calls generalizing db with
  | nil => exact h
  | cons e calls ih =>
    refine ih ?_ (fun e' he' => hcalls e' (List.mem_cons_of_mem e he'))
    have hsamples : ∀ x ∈ ({ db with samples := e.1 } : Db).samples.rows, x.2.Split :=
      hcalls e List.mem_cons_self
    exact closed_rollupCall (L := .daily) (fun _ _ => Counts.Split.add) hsamples h _ _

theorem dailySplit_importAll_iff {cfg : Config} {tz : TimeZone} {doc : Json} {db : Db}
    (hdoc : NonnegDoc cfg doc) (hdb : db.DailySplit) :
    (db.importAll (acceptedDays cfg tz doc)).DailySplit ↔ RoomForLan cfg tz doc db := by
  constructor
  · intro h k v c hv hc
    have hrow : (k, importedRow (some c) v) ∈
        (db.importAll (acceptedDays cfg tz doc)).daily.rows := by
      rw [Table.mem_rows, lookup_importAll, hv, hc]
      rfl
    have hsplit := h _ hrow
    exact ⟨hsplit.lanRx_le, hsplit.lanTx_le⟩
  · rintro h ⟨k,c⟩ hx
    rw [Table.mem_rows, lookup_importAll] at hx
    cases hv : Table.lastValue k (acceptedDays cfg tz doc) with
    | none =>
      rw [hv] at hx
      exact hdb (k,c) (Table.mem_rows.mpr hx)
    | some v =>
      rw [hv] at hx
      obtain rfl := Option.some.inj hx
      obtain ⟨hrx, htx⟩ := lastValue_nonneg hdoc hv
      cases hc : db.daily.lookup k with
      | none => exact ⟨le_rfl, hrx, le_rfl, htx⟩
      | some c =>
        obtain ⟨hroom, hroom'⟩ := h k v c hv hc
        have hold := hdb (k,c) (Table.mem_rows.mpr hc)
        exact ⟨hold.lanRx_nonneg, hroom, hold.lanTx_nonneg, hroom'⟩

theorem dailySplit_view {db : Db} (h : db.DailySplit) (tz : TimeZone) (v : View) (lo hi : ℤ)
    (iface : Option String) {r : Row}
    (hr : r ∈ View.rows tz v (queryRange db (.rollup .daily) lo hi iface)) :
    r.lanRx + r.wanRx = r.rx ∧ r.lanTx + r.wanTx = r.tx := by
  have hrows : ∀ x ∈ (db.table (.rollup .daily)).rows, x.2.Split := h
  have hview := split_view (closed_queryRange (fun _ _ => Counts.Split.add) hrows lo hi iface)
    tz v r hr
  have hrx := hview.wanRx_eq
  have htx := hview.wanTx_eq
  omega

/-- An import keeps LAN within TOTAL exactly when its days leave room for the LAN
bytes already there. -/
theorem import_keeps_lan_iff (cfg : Config) (tz : TimeZone) (doc : Json) {db : Db}
    (hdoc : NonnegDoc cfg doc) (hdb : db.DailySplit)
    (hok : ∃ n, (cmdImportFailing fails cfg tz doc db).2 = .ok n) :
    ImportKeepsLan fails cfg tz doc db ↔ RoomForLan cfg tz doc db := by
  have hall := (cmdImportFailing_ok fails cfg tz doc db).mp hok
  have himport : (cmdImportFailing fails cfg tz doc db).1 =
      db.importAll (acceptedDays cfg tz doc) := by
    rw [cmdImportFailing_db, writesBefore_of_allWritten fails cfg tz doc hall]
  rw [← dailySplit_importAll_iff hdoc hdb]
  unfold ImportKeepsLan
  rw [himport]
  constructor
  · intro h
    exact (h [] (by simp)).1
  · intro hsplit calls hcalls
    have hlater := dailySplit_rollups hsplit tz hcalls
    exact ⟨hlater, fun v lo hi iface r hr => dailySplit_view hlater tz v lo hi iface hr⟩

/-- The imported day, as the daemon has recorded it: `lan` of its 10000 bytes are LAN. -/
def recordedDay (lan : ℤ) : Db where
  daily := (∅ : Table Key Counts).set ⟨1767312000,"eth0"⟩ ⟨10000, 1000, lan, 0⟩

theorem dailySplit_recordedDay {lan : ℤ} (h : 0 ≤ lan ∧ lan ≤ 10000) :
    (recordedDay lan).DailySplit := by
  intro x hx
  obtain rfl := List.mem_singleton.mp hx
  exact ⟨h.1, h.2, le_rfl, by norm_num⟩

theorem nonnegDoc_importedDoc : NonnegDoc {} importedDoc := by
  unfold NonnegDoc
  decide +kernel

/-- 9000 LAN bytes of a day that vnStat gives 4096 bytes. -/
theorem not_import_keeps_lan :
    ¬ ∀ (fails : ℕ → Bool) (cfg : Config) (tz : TimeZone) (doc : Json) (db : Db),
      NonnegDoc cfg doc → db.DailySplit →
      (∃ n, (cmdImportFailing fails cfg tz doc db).2 = .ok n) →
      ImportKeepsLan fails cfg tz doc db := by
  intro h
  have hkeeps := h (fun _ => false) {} .utc importedDoc (recordedDay 9000) nonnegDoc_importedDoc
    (dailySplit_recordedDay (by norm_num)) ⟨1, by decide +kernel⟩
  have hrow : (⟨1767312000,"eth0"⟩, ⟨4096, 512, 9000, 0⟩) ∈
      (rollups .utc (cmdImportFailing (fun _ => false) {} .utc importedDoc
        (recordedDay 9000)).1 []).daily.rows := by decide +kernel
  have hsplit := (hkeeps [] (by simp)).1 _ hrow
  exact absurd hsplit.lanRx_le (by norm_num)

theorem import_keeps_lan_recordedDay :
    ImportKeepsLan (fun _ => false) {} .utc importedDoc (recordedDay 50) ↔
      RoomForLan {} .utc importedDoc (recordedDay 50) :=
  import_keeps_lan_iff (fun _ => false) {} .utc importedDoc nonnegDoc_importedDoc
    (dailySplit_recordedDay (by norm_num)) ⟨1, by decide +kernel⟩

end Netmeter
