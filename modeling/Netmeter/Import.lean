import Netmeter.Lan
set_option autoImplicit false

/-!
The vnStat import, which writes straight into `daily`, and what becomes of the
imported rows when the daemon runs.
-/

namespace Netmeter
open Keyed Transaction Gregorian

inductive Json where
  | null
  | bool (b : Bool)
  | int (n : ℤ)
  | float
  | str (s : String)
  | arr (items : List Json)
  | obj (fields : List (String × Json))

namespace Json

def get : Json → String → Option Json
  | .obj fields, key => fields.lookup key
  | _, _ => none

def pointer (j : Json) (path : List String) : Option Json := path.foldlM get j

def asArray : Json → Option (List Json)
  | .arr items => some items
  | _ => none

def asStr : Json → Option String
  | .str s => some s
  | _ => none

def asI64 : Json → Option ℤ
  | .int n => if -9223372036854775808 ≤ n ∧ n < 9223372036854775808 then some n else none
  | _ => none

/-- `.and_then(|x| x.as_i64()).unwrap_or(default)` -/
def i64At (j : Json) (path : List String) (default : ℤ) : ℤ :=
  ((j.pointer path).bind asI64).getD default

end Json

inductive ImportError where
  | civil
  | zoned
  deriving DecidableEq, Repr

def wrapBits (bits : ℕ) (n : ℤ) : ℤ := Int.bmod n (2 ^ bits)

def importTs (tz : TimeZone) (y mo da : ℤ) : Except ImportError ℤ :=
  if y < -9999 ∨ 9999 < y then .error .civil
  else
    match Date.new y mo da with
    | none => .error .civil
    | some date =>
      let ts := tz.toTimestamp ⟨date, 0, 0, 0, by omega⟩
      if ts < -377705023201 ∨ 253402207200 < ts then .error .zoned else .ok ts

/-- The key, rx and tx of one day entry, or `none` for a year before 2000. -/
def importDay (tz : TimeZone) (name : String) (d : Json) :
    Except ImportError (Option (Key × (ℤ × ℤ))) :=
  let y := wrapBits 32 (d.i64At ["date", "year"] 0)
  let mo := wrapBits 32 (d.i64At ["date", "month"] 1)
  let da := wrapBits 32 (d.i64At ["date", "day"] 1)
  let rx := d.i64At ["rx"] 0
  let tx := d.i64At ["tx"] 0
  if y < 2000 then .ok none
  else (importTs tz (wrapBits 16 y) (wrapBits 8 mo) (wrapBits 8 da)).map
    (fun ts => some (⟨ts,name⟩, (rx,tx)))

def importEntries (cfg : Config) (doc : Json) : List (String × Json) :=
  (((doc.get "interfaces").bind Json.asArray).getD []).flatMap (fun iface =>
    let name := ((iface.get "name").bind Json.asStr).getD "?"
    if cfg.excluded name then []
    else (((iface.pointer ["traffic", "days"]).bind Json.asArray).getD []).map (fun d => (name,d)))

/-- A conflicting row keeps its LAN columns. -/
def Db.importDaily (db : Db) (k : Key) (v : ℤ × ℤ) : Db :=
  { db with daily := db.daily.upsert k ⟨v.1,v.2,0,0⟩ (fun c => { c with rx := v.1, tx := v.2 }) }

/-- Each statement commits on its own; the first bad date ends the import. -/
def importRows : List (Except ImportError (Option (Key × (ℤ × ℤ)))) → Db →
    Db × Except ImportError ℕ
  | [], db => (db, .ok 0)
  | .error e :: _, db => (db, .error e)
  | .ok none :: rest, db => importRows rest db
  | .ok (some w) :: rest, db =>
    let out := importRows rest (db.importDaily w.1 w.2)
    (out.1, out.2.map (· + 1))

def importResults (cfg : Config) (tz : TimeZone) (doc : Json) :
    List (Except ImportError (Option (Key × (ℤ × ℤ)))) :=
  (importEntries cfg doc).map (fun e => importDay tz e.1 e.2)

def cmdImport (cfg : Config) (tz : TimeZone) (doc : Json) (db : Db) : Db × Except ImportError ℕ :=
  importRows (importResults cfg tz doc) db

def importWrites : List (Except ImportError (Option (Key × (ℤ × ℤ)))) → List (Key × (ℤ × ℤ))
  | [] => []
  | .error _ :: _ => []
  | .ok none :: rest => importWrites rest
  | .ok (some w) :: rest => w :: importWrites rest

theorem importRows_db (results : List (Except ImportError (Option (Key × (ℤ × ℤ))))) (db : Db) :
    (importRows results db).1 =
      (importWrites results).foldl (fun db w => db.importDaily w.1 w.2) db := by
  fun_induction importRows results db with
  | case1 db => rfl
  | case2 e rest db => rfl
  | case3 rest db ih => exact ih
  | case4 w rest db out ih => exact ih

theorem cmdImport_eq (cfg : Config) (tz : TimeZone) (doc : Json) (db : Db) :
    ∃ daily, (cmdImport cfg tz doc db).1 = { db with daily := daily } := by
  unfold cmdImport
  fun_induction importRows (importResults cfg tz doc) db with
  | case1 db => exact ⟨db.daily, rfl⟩
  | case2 e rest db => exact ⟨db.daily, rfl⟩
  | case3 rest db ih => exact ih
  | case4 w rest db out ih => exact ih

inductive SystemEvent where
  | daemon (e : Event)
  | vnstat (doc : Json)

/-- The state with the imported values that no later import has rewritten. -/
structure Archive where
  state : State
  imported : Table Key (ℤ × ℤ)

def Archive.step (cfg : Config) (tz : TimeZone) (a : Archive) : SystemEvent → Archive
  | .daemon e => { a with state := Netmeter.step cfg tz a.state e }
  | .vnstat doc =>
    { state := { a.state with db := (cmdImport cfg tz doc a.state.db).1 }
      imported := a.imported.setAll (importWrites (importResults cfg tz doc)) }

def Archive.init : Archive := ⟨State.init, ∅⟩

/-- Every imported row is there and at least as large. -/
def Archive.Survives (a : Archive) : Prop :=
  ∀ k v, a.imported.lookup k = some v →
    ∃ c, a.state.db.daily.lookup k = some c ∧ v.1 ≤ c.rx ∧ v.2 ≤ c.tx

/-- Ticks use bounds below 2^63 and imports succeed. -/
def Archive.Regular (cfg : Config) (tz : TimeZone) (a : Archive) : SystemEvent → Prop
  | .daemon e => Bounded cfg a.state e
  | .vnstat doc => ∃ n, (cmdImport cfg tz doc a.state.db).2 = .ok n

/-- The rows a rollup folds hold at least the imported bytes of every imported day. -/
def Archive.Resampled (tz : TimeZone) (a : Archive) (f : Faults) : Prop :=
  ∀ k v, a.imported.lookup k = some v →
    ∃ d : Counts, total (fun k' => k' = k)
      (bucketed (floorDay tz) (rollupRows f a.state.db)) = (d : WithZero Counts) ∧
      v.1 ≤ d.rx ∧ v.2 ≤ d.tx

/-- No rollup rebuilds the tables below an imported row: it reads a marker,
commits nothing, or finds the imported bytes among the samples. -/
def Archive.NoLoss (tz : TimeZone) (a : Archive) : SystemEvent → Prop
  | .daemon (.rollup f) => (rollupMarker f a.state.db).isSome ∨
      ¬ Commits (Level.floor tz) f a.state.db ∨ a.Resampled tz f
  | _ => True

structure Archive.Kept (a : Archive) : Prop where
  samples : ∀ x ∈ a.state.db.samples.rows, x.2.Split
  survives : a.Survives

theorem kept_init : Archive.init.Kept where
  samples x hx := by simp [Archive.init, State.init, Db.init] at hx
  survives k v h := by simp [Archive.init] at h

variable {cfg : Config} {tz : TimeZone}

theorem lookup_addAll_of_split {t : Table Key Counts} (items : List Sample) {k : Key} {c : Counts}
    (hk : t.lookup k = some c) (h : ∀ x ∈ items, x.2.Split) :
    ∃ c', (t.addAll items).lookup k = some c' ∧ c.rx ≤ c'.rx ∧ c.tx ≤ c'.tx := by
  have hcell := Table.cell_addAll t items k
  rw [show t.cell k = (c : WithZero Counts) from hk] at hcell
  cases htot : total (fun k' => k' = k) items with
  | zero =>
    rw [htot, add_zero] at hcell
    exact ⟨c, hcell, le_rfl, le_rfl⟩
  | coe d =>
    have hd : d.Split :=
      total_closed (fun _ _ => Counts.Split.add) (fun x hx _ => h x hx) htot
    rw [htot, ← WithZero.coe_add] at hcell
    have hrx := hd.lanRx_nonneg.trans hd.lanRx_le
    have htx := hd.lanTx_nonneg.trans hd.lanTx_le
    exact ⟨c + d, hcell, by simp [hrx], by simp [htx]⟩

theorem survives_rollup_iff {a : Archive} (h : a.Kept) (f : Faults) :
    (a.step cfg tz (.daemon (.rollup f))).Survives ↔ a.NoLoss tz (.daemon (.rollup f)) := by
  show (∀ k v, a.imported.lookup k = some v → ∃ c,
    (rollupCall (Level.floor tz) f a.state.db).daily.lookup k = some c ∧ _) ↔ _ ∨ _ ∨ _
  rcases rollupCall_cases (Level.floor tz) f a.state.db with ⟨hcommit, he⟩ | ⟨hnot, he⟩
  · rw [he, or_iff_right (not_not_intro hcommit)]
    cases hm : rollupMarker f a.state.db with
    | some m =>
      -- with a marker the fold is added on top
      refine iff_of_true (fun k v hv => ?_) (.inl rfl)
      obtain ⟨c, hc, hrx, htx⟩ := h.survives k v hv
      obtain ⟨c', hc', hrx', htx'⟩ := lookup_addAll_of_split
        (bucketed (floorDay tz) (rollupRows f a.state.db)) hc (fun x hx => by
          obtain ⟨y, hy, rfl⟩ := List.mem_map.mp hx
          exact h.samples y (mem_of_rollupRows hy))
      exact ⟨c', hc', hrx.trans hrx', htx.trans htx'⟩
    | none =>
      -- without one the table is the fold alone
      rw [or_iff_right (by simp)]
      refine forall₃_congr (fun k v _ => exists_congr (fun c => and_congr_left' ?_))
      show ((∅ : Table Key Counts).addAll
        (bucketed (floorDay tz) (rollupRows f a.state.db))).cell k = (c : WithZero Counts) ↔ _
      rw [Table.cell_addAll, Table.cell_empty, zero_add]
  · rw [he]
    exact iff_of_true h.survives (.inr (.inl hnot))

theorem survives_import {a : Archive} (h : a.Survives) (doc : Json) :
    (a.step cfg tz (.vnstat doc)).Survives := by
  show Archive.Survives ⟨{ a.state with db := (importRows (importResults cfg tz doc) a.state.db).1 }, _⟩
  rw [importRows_db]
  generalize importWrites (importResults cfg tz doc) = ws
  suffices hws : ∀ (db : Db) (t : Table Key (ℤ × ℤ)),
      (∀ k v, t.lookup k = some v → ∃ c, db.daily.lookup k = some c ∧ v.1 ≤ c.rx ∧ v.2 ≤ c.tx) →
      ∀ k v, (t.setAll ws).lookup k = some v →
        ∃ c, (ws.foldl (fun db w => db.importDaily w.1 w.2) db).daily.lookup k = some c ∧
          v.1 ≤ c.rx ∧ v.2 ≤ c.tx from hws a.state.db a.imported h
  induction ws with
  | nil => exact fun db t hdb => hdb
  | cons w ws ih =>
    intro db t hdb
    refine ih (db.importDaily w.1 w.2) (t.set w.1 w.2) (fun k v hv => ?_)
    rw [Table.lookup_set] at hv
    show ∃ c, (db.daily.upsert w.1 _ _).lookup k = some c ∧ _
    rw [Table.lookup_upsert]
    split at hv
    · next hk =>
      -- the write itself, whatever row it lands on
      obtain rfl := Option.some.inj hv
      rw [if_pos hk]
      cases db.daily.lookup w.1 with
      | none => exact ⟨_, rfl, le_rfl, le_rfl⟩
      | some c => exact ⟨_, rfl, le_rfl, le_rfl⟩
    · next hk =>
      rw [if_neg hk]
      exact hdb k v hv

theorem kept_step (a : Archive) (e : SystemEvent) (h : a.Kept)
    (he : a.Regular cfg tz e ∧ a.NoLoss tz e) : (a.step cfg tz e).Kept := by
  obtain ⟨hreg, hnoloss⟩ := he
  cases e with
  | vnstat doc =>
    refine ⟨?_, survives_import h.survives doc⟩
    obtain ⟨daily, hd⟩ := cmdImport_eq cfg tz doc a.state.db
    intro x hx
    change x ∈ (cmdImport cfg tz doc a.state.db).1.samples.rows at hx
    rw [hd] at hx
    exact h.samples x hx
  | daemon e =>
    cases e with
    | tick r =>
      cases hgap : gapBranch cfg r with
      | true =>
        have hs : a.step cfg tz (.daemon (.tick r)) = { a with state := tick cfg tz a.state r } := rfl
        rw [hs, tick_gap hgap]
        exact ⟨h.samples, h.survives⟩
      | false =>
        have ht := ticked hgap tz a.state
        constructor
        · intro x hx
          change x ∈ (tick cfg tz a.state r).db.samples.rows at hx
          rw [ht.samples] at hx
          rcases mem_insertSamples hx with hx | hx
          · exact h.samples x hx
          · obtain ⟨p, hp, rfl⟩ := List.mem_map.mp hx
            exact split_sampleRows hreg hp
        · intro k v hv
          show ∃ c, ((tick cfg tz a.state r).db.level .daily).lookup k = some c ∧ _
          rw [ht.level]
          exact h.survives k v hv
    | rollup f =>
      refine ⟨fun x hx => h.samples x ?_, (survives_rollup_iff h f).mpr hnoloss⟩
      change x ∈ (rollupCall _ f a.state.db).samples.rows at hx
      simpa using hx
    | retain now =>
      exact ⟨fun x hx => h.samples x (List.mem_of_mem_filter hx), h.survives⟩
    | restart => exact ⟨h.samples, h.survives⟩

/-- In every run whose rollups are without loss, imported rows stay and never
shrink. -/
theorem imported_rows_survive (cfg : Config) (tz : TimeZone) (es : List SystemEvent)
    (h : Along (Archive.step cfg tz)
      (fun a e => a.Regular cfg tz e ∧ a.NoLoss tz e) Archive.init es) :
    (es.foldl (Archive.step cfg tz) Archive.init).Survives :=
  (along_invariant Archive.Kept kept_step kept_init h).survives

def importedDoc : Json :=
  .obj [("interfaces", .arr [.obj [("name", .str "eth0"),
    ("traffic", .obj [("days", .arr [.obj [
      ("date", .obj [("year", .int 2026), ("month", .int 1), ("day", .int 2)]),
      ("rx", .int 4096), ("tx", .int 512)]])])]])]

/-- The first rollup after the import, with no marker yet, drops the imported day. -/
theorem not_imported_rows_survive :
    ¬ ∀ (cfg : Config) (tz : TimeZone) (es : List SystemEvent),
      Along (Archive.step cfg tz) (Archive.Regular cfg tz) Archive.init es →
        (es.foldl (Archive.step cfg tz) Archive.init).Survives := by
  intro h
  obtain ⟨c, hc, -⟩ := h {} .utc
    [.vnstat importedDoc, .daemon (.tick (rxReading 1800000000 1000)),
      .daemon (.tick (rxReading 1800000005 1300)), .daemon (.rollup noFaults)]
    ⟨⟨1, by decide⟩, fun _ => defaultBound_lt, fun _ => defaultBound_lt, trivial, trivial⟩
    ⟨1767312000, "eth0"⟩ (4096,512) (by decide)
  exact absurd (Eq.trans (by decide) hc) (Option.some_ne_none c).symm

theorem imported_rows_survive_marker :
    Archive.Survives ([.daemon (.tick (rxReading 1800000000 1000)),
      .daemon (.tick (rxReading 1800000005 1300)), .daemon (.rollup noFaults),
      .vnstat importedDoc, .daemon (.tick (rxReading 1800000010 1700)),
      .daemon (.rollup noFaults)].foldl (Archive.step {} .utc) Archive.init) :=
  imported_rows_survive {} .utc
    [.daemon (.tick (rxReading 1800000000 1000)),
      .daemon (.tick (rxReading 1800000005 1300)), .daemon (.rollup noFaults),
      .vnstat importedDoc, .daemon (.tick (rxReading 1800000010 1700)),
      .daemon (.rollup noFaults)]
    ⟨⟨fun _ => defaultBound_lt, trivial⟩, ⟨fun _ => defaultBound_lt, trivial⟩,
      ⟨trivial, .inr (.inr (fun _ _ hv => by simp [Archive.step, Archive.init] at hv))⟩,
      ⟨⟨1, by decide⟩, trivial⟩, ⟨fun _ => defaultBound_lt, trivial⟩,
      ⟨trivial, .inl (by decide)⟩, trivial⟩

end Netmeter
