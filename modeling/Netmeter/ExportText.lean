import Netmeter.Export
import Netmeter.Import
import Netmeter.Lib.Text
set_option autoImplicit false

/-!
What `export` prints: the text of its rows, a reader of it, and the exports of two ranges
joined to one.
-/

namespace Netmeter
open Keyed Gregorian Text

inductive OutFmt where
  | csv
  | json
  deriving DecidableEq, Repr

def intText (n : ℤ) : List Char :=
  if n < 0 then '-' :: Nat.toDigits 10 n.natAbs else Nat.toDigits 10 n.natAbs

def csvHeader : List Char := "ts,rx,tx,lan_rx,lan_tx,wan_rx,wan_tx".toList

namespace ExportRow

def columns (r : ExportRow) : List ℤ := [r.ts, r.rx, r.tx, r.lanRx, r.lanTx, r.wanRx, r.wanTx]

def csv (r : ExportRow) : List Char := [','].intercalate (r.columns.map intText)

def json (r : ExportRow) : Json :=
  .obj [("ts", .int r.ts), ("rx", .int r.rx), ("tx", .int r.tx), ("lan_rx", .int r.lanRx),
    ("lan_tx", .int r.lanTx), ("wan_rx", .int r.wanRx), ("wan_tx", .int r.wanTx)]

end ExportRow

def printed (lines : List (List Char)) : List Char := (lines.map (· ++ ['\n'])).flatten

def csvText (rows : List ExportRow) : List Char := printed (csvHeader :: rows.map ExportRow.csv)

/-- The output of `export`; without a database it is the header of the CSV in either format. -/
def exportText (pretty : Json → List Char) (civil : String → Option Date) (tz : TimeZone)
    (start stop : String) (format : OutFmt) (db : Option Db) : Except DateError (List Char) :=
  (cmdExport civil tz start stop db).map (fun rows =>
    match db, format with
    | none, _ => printed [csvHeader]
    | some _, .json => printed [pretty (.arr (rows.map ExportRow.json))]
    | some _, .csv => csvText rows)

def readNat (s : List Char) : Option ℕ :=
  if s ≠ [] ∧ s.all Char.isDigit then some (Nat.ofDigitChars 10 s 0) else none

def readInt : List Char → Option ℤ
  | '-' :: s => (readNat s).map (fun n : ℕ => -(n : ℤ))
  | s => (readNat s).map (fun n : ℕ => (n : ℤ))

def readExport (line : List Char) : Option ExportRow :=
  match (line.splitOn ',').map readInt with
  | [some ts, some rx, some tx, some lanRx, some lanTx, some wanRx, some wanTx] =>
    some ⟨ts, rx, tx, lanRx, lanTx, wanRx, wanTx⟩
  | _ => none

def readCsv (text : List Char) : List ExportRow :=
  ((text.splitOn '\n').drop 1).filterMap readExport

theorem readNat_toDigits (n : ℕ) : readNat (Nat.toDigits 10 n) = some n := by
  have hne : Nat.toDigits 10 n ≠ [] := (Numeral.toDigits n).ne_nil
  have hdigits : (Nat.toDigits 10 n).all Char.isDigit = true :=
    List.all_eq_true.mpr (fun c hc => Nat.isDigit_of_mem_toDigits (by norm_num) (by norm_num) hc)
  rw [readNat, if_pos ⟨hne, hdigits⟩, Nat.ofDigitChars_ten_toDigits]

theorem mem_intText {n : ℤ} {c : Char} (h : c ∈ intText n) :
    c = '-' ∨ c ∈ Nat.toDigits 10 n.natAbs := by
  unfold intText at h
  split at h
  · exact List.mem_cons.mp h
  · exact .inr h

theorem not_mem_intText {c : Char} (hc : c.toNat < 45) (n : ℤ) : c ∉ intText n := by
  intro h
  rcases mem_intText h with rfl | hdigit
  · exact absurd hc (by decide)
  · exact (Numeral.toDigits n.natAbs).not_mem (.inl (by omega)) hdigit

theorem readInt_intText (n : ℤ) : readInt (intText n) = some n := by
  unfold intText
  split
  · next hneg =>
    rw [readInt, readNat_toDigits, Option.map_some]
    congr 1
    omega
  · next hpos =>
    have hminus : ∀ s, Nat.toDigits 10 n.natAbs ≠ '-' :: s := fun s hs =>
      (Numeral.toDigits n.natAbs).not_mem (c := '-') (.inl (by decide))
        (hs ▸ List.mem_cons_self)
    rw [readInt, readNat_toDigits, Option.map_some]
    · congr 1
      omega
    · exact hminus

theorem readExport_csv (r : ExportRow) : readExport r.csv = some r := by
  have hsplit : r.csv.splitOn ',' = r.columns.map intText := by
    refine List.splitOn_intercalate ',' (fun field hfield => ?_) (by simp [ExportRow.columns])
    obtain ⟨n, -, rfl⟩ := List.mem_map.mp hfield
    exact not_mem_intText (by decide) n
  rw [readExport, hsplit]
  simp [ExportRow.columns, readInt_intText]

theorem mem_intercalate {sep c : Char} {parts : List (List Char)}
    (h : c ∈ [sep].intercalate parts) : c = sep ∨ ∃ part ∈ parts, c ∈ part := by
  induction parts with
  | nil => cases h
  | cons part parts ih =>
    cases parts with
    | nil =>
      rw [List.intercalate_singleton] at h
      exact .inr ⟨part, List.mem_cons_self, h⟩
    | cons part' parts =>
      rw [List.intercalate_cons_cons, List.append_assoc, List.mem_append, List.mem_append,
        List.mem_singleton] at h
      rcases h with h | h | h
      · exact .inr ⟨part, List.mem_cons_self, h⟩
      · exact .inl h
      · obtain heq | ⟨p, hp, hc⟩ := ih h
        · exact .inl heq
        · exact .inr ⟨p, List.mem_cons_of_mem part hp, hc⟩

theorem not_mem_csv (r : ExportRow) : '\n' ∉ r.csv := by
  intro h
  rcases mem_intercalate h with h | ⟨part, hpart, h⟩
  · exact absurd h (by decide)
  · obtain ⟨n, -, rfl⟩ := List.mem_map.mp hpart
    exact not_mem_intText (by decide) n h

theorem printed_eq (lines : List (List Char)) :
    printed lines = ['\n'].intercalate (lines ++ [[]]) := by
  induction lines with
  | nil => rfl
  | cons l lines ih =>
    have hprinted : printed (l :: lines) = l ++ ['\n'] ++ printed lines := rfl
    rw [hprinted, ih, List.cons_append, List.intercalate_cons_of_ne_nil (by simp)]

theorem splitOn_printed {lines : List (List Char)} (h : ∀ l ∈ lines, '\n' ∉ l) :
    (printed lines).splitOn '\n' = lines ++ [[]] := by
  rw [printed_eq]
  refine List.splitOn_intercalate '\n' (fun l hl => ?_) (by simp)
  rcases List.mem_append.mp hl with hl | hl
  · exact h l hl
  · rw [List.mem_singleton.mp hl]
    exact List.not_mem_nil

theorem readCsv_csvText (rows : List ExportRow) : readCsv (csvText rows) = rows := by
  have hlines : ∀ l ∈ csvHeader :: rows.map ExportRow.csv, '\n' ∉ l := by
    intro l hl
    rcases List.mem_cons.mp hl with rfl | hl
    · decide
    · obtain ⟨r, -, rfl⟩ := List.mem_map.mp hl
      exact not_mem_csv r
  have hempty : readExport [] = none := by decide
  rw [readCsv, csvText, splitOn_printed hlines, List.cons_append, List.drop_one, List.tail_cons,
    List.filterMap_append, List.filterMap_map]
  have hread : rows.filterMap (readExport ∘ ExportRow.csv) = rows := by
    have hsome : readExport ∘ ExportRow.csv = some := funext readExport_csv
    rw [hsome, List.filterMap_some]
  rw [hread]
  simp [hempty]

theorem csvText_injective : Function.Injective csvText :=
  Function.LeftInverse.injective readCsv_csvText

theorem group_filter (items : List (ℤ × Counts)) (keep : ℤ → Bool) :
    Table.group (items.filter (fun r => keep r.1)) = (Table.group items).filter keep := by
  refine Table.ext_cell (fun k => ?_)
  rw [Table.cell_filter, Table.cell_group, Table.cell_group, total_filter]
  split
  · next hkeep =>
    refine total_congr (fun r _ => ?_)
    by_cases hr : r.1 = k
    · simp [hr, hkeep]
    · simp [hr]
  · next hkeep =>
    refine total_eq_zero.mpr (fun r _ => ?_)
    by_cases hr : r.1 = k
    · simp [hr, hkeep]
    · simp [hr]

theorem queryRange_narrow (db : Db) (src : Source) {lo hi lo' hi' : ℤ} (hlo : lo' ≤ lo)
    (hhi : hi ≤ hi') : queryRange db src lo hi none =
      (queryRange db src lo' hi' none).filter (fun r => lo ≤ r.ts && r.ts < hi) := by
  have hrows : (db.table src).rows.filter (fun r => lo ≤ r.1.ts && r.1.ts < hi) =
      ((db.table src).rows.filter (fun r => lo' ≤ r.1.ts && r.1.ts < hi')).filter
        (fun r => lo ≤ r.1.ts && r.1.ts < hi) := by
    rw [List.filter_filter]
    refine List.filter_congr (fun r _ => ?_)
    rw [Bool.eq_iff_iff]
    simp only [Bool.and_eq_true, decide_eq_true_eq]
    omega
  have hgroup := group_filter (((db.table src).rows.filter
    (fun r => lo' ≤ r.1.ts && r.1.ts < hi')).map (fun r => (r.1.ts, r.2)))
    (fun t => lo ≤ t && t < hi)
  rw [List.filter_map] at hgroup
  unfold queryRange
  dsimp only
  rw [hrows, List.filter_map]
  exact congrArg (fun t : Table ℤ Counts => t.rows.map
    (fun r => ({ r.2 with ts := r.1, iface := "_all" } : Row))) hgroup

section Ascending
variable {α : Type} {key : α → ℤ} {rows : List α}

theorem filter_split (h : rows.Pairwise (fun a b => key a < key b)) (cut : ℤ) :
    rows.filter (fun r => key r < cut) ++ rows.filter (fun r => cut ≤ key r) = rows := by
  induction rows with
  | nil => rfl
  | cons r rows ih =>
    obtain ⟨hr, hrows⟩ := List.pairwise_cons.mp h
    by_cases hcut : key r < cut
    · rw [List.filter_cons_of_pos (by simpa using hcut),
        List.filter_cons_of_neg (by simpa using hcut), List.cons_append, ih hrows]
    · have hnone : rows.filter (fun r => key r < cut) = [] := by
        refine List.filter_eq_nil_iff.mpr (fun r' hr' => ?_)
        have hlater := hr r' hr'
        simp only [decide_eq_true_eq]
        omega
      have hall : rows.filter (fun r => cut ≤ key r) = rows := by
        refine List.filter_eq_self.mpr (fun r' hr' => ?_)
        have hlater := hr r' hr'
        simp only [decide_eq_true_eq]
        omega
      rw [List.filter_cons_of_neg (by simpa using hcut),
        List.filter_cons_of_pos (by simpa using hcut), hnone, hall, List.nil_append]

/-- A beginning up to `cut` and an end from `next` make the whole exactly when nothing lies
between the two: it would be missing, or there twice. -/
theorem filter_join_iff (h : rows.Pairwise (fun a b => key a < key b)) (cut next : ℤ) :
    rows.filter (fun r => key r < cut) ++ rows.filter (fun r => next ≤ key r) = rows ↔
      ∀ r ∈ rows, ¬ (min cut next ≤ key r ∧ key r < max cut next) := by
  constructor
  · rintro heq r hr ⟨hlo, hhi⟩
    have hnodup : rows.Nodup := h.imp (fun hab e => absurd (congrArg key e) hab.ne)
    rcases le_or_gt cut next with hle | hlt
    · rw [min_eq_left hle] at hlo
      rw [max_eq_right hle] at hhi
      rw [← heq, List.mem_append, List.mem_filter, List.mem_filter, decide_eq_true_eq,
        decide_eq_true_eq] at hr
      omega
    · rw [min_eq_right hlt.le] at hlo
      rw [max_eq_left hlt.le] at hhi
      rw [← heq] at hnodup
      exact (List.nodup_append.mp hnodup).2.2 r (List.mem_filter.mpr ⟨hr, by simpa using hhi⟩) r
        (List.mem_filter.mpr ⟨hr, by simpa using hlo⟩) rfl
  · intro hnone
    have hsame : rows.filter (fun r => key r < cut) = rows.filter (fun r => key r < next) := by
      refine List.filter_congr (fun r hr => ?_)
      have hout := hnone r hr
      rw [Bool.eq_iff_iff, decide_eq_true_eq, decide_eq_true_eq]
      rcases le_or_gt cut next with hle | hlt
      · rw [min_eq_left hle, max_eq_right hle] at hout
        omega
      · rw [min_eq_right hlt.le, max_eq_left hlt.le] at hout
        omega
    rw [hsame, filter_split h]

end Ascending

theorem queryRange_join_iff (db : Db) {lo cut next hi : ℤ} (hlo : lo ≤ min cut next)
    (hhi : max cut next ≤ hi) :
    (queryRange db .samples lo cut none).map Row.export ++
        (queryRange db .samples next hi none).map Row.export =
        (queryRange db .samples lo hi none).map Row.export ↔
      ∀ x ∈ db.samples.rows, ¬ (min cut next ≤ x.1.ts ∧ x.1.ts < max cut next) := by
  obtain ⟨hlocut, hlonext⟩ := le_min_iff.mp hlo
  obtain ⟨hcuthi, hnexthi⟩ := max_le_iff.mp hhi
  have hrows := exportsRange_queryRange db lo hi
  set rows := (queryRange db .samples lo hi none).map Row.export with hrowsdef
  have hin : ∀ r ∈ rows, lo ≤ r.ts ∧ r.ts < hi :=
    fun r hr => ((hrows.timestamps r.ts).mp ⟨r, hr, rfl⟩).1
  have hpart : ∀ lo' hi', lo ≤ lo' → hi' ≤ hi →
      (queryRange db .samples lo' hi' none).map Row.export =
        rows.filter (fun r => lo' ≤ r.ts && r.ts < hi') := by
    intro lo' hi' hlo' hhi'
    rw [queryRange_narrow db .samples hlo' hhi', hrowsdef, List.filter_map]
    rfl
  have hbegin : (queryRange db .samples lo cut none).map Row.export =
      rows.filter (fun r => r.ts < cut) := by
    rw [hpart _ _ le_rfl hcuthi]
    exact List.filter_congr (fun r hr => by simp [(hin r hr).1])
  have hend : (queryRange db .samples next hi none).map Row.export =
      rows.filter (fun r => next ≤ r.ts) := by
    rw [hpart _ _ hlonext le_rfl]
    exact List.filter_congr (fun r hr => by simp [(hin r hr).2])
  rw [hbegin, hend, filter_join_iff hrows.ascending]
  constructor
  · intro h x hx hbetween
    obtain ⟨r, hr, hts⟩ := (hrows.timestamps x.1.ts).mpr ⟨by omega, x, hx, rfl⟩
    rw [← hts] at hbetween
    exact h r hr hbetween
  · intro h r hr hbetween
    obtain ⟨-, x, hx, hts⟩ := (hrows.timestamps r.ts).mp ⟨r, hr, rfl⟩
    rw [← hts] at hbetween
    exact h x hx hbetween

theorem exportText_ok {pretty : Json → List Char} {civil : String → Option Date} {tz : TimeZone}
    {start stop : String} {A B : Date} (hA : civil start = some A) (hB : civil stop = some B)
    {db : Db} {text : List Char}
    (h : exportText pretty civil tz start stop .csv (some db) = .ok text) :
    text = csvText ((queryRange db .samples (midnight tz A + 86400)
      (midnight tz B + 86400 + 86400) none).map Row.export) := by
  unfold exportText at h
  cases hrun : cmdExport civil tz start stop (some db) with
  | error e =>
    rw [hrun] at h
    cases h
  | ok rows =>
    rw [hrun] at h
    obtain ⟨-, -, rfl⟩ := (cmdExport_ok hA hB db rows).mp hrun
    exact (Except.ok.inj h).symm

theorem csvText_append (rows rows' : List ExportRow) :
    csvText rows ++ (csvText rows').drop (csvHeader.length + 1) = csvText (rows ++ rows') := by
  have hbody : ∀ l : List ExportRow, csvText l =
      (csvHeader ++ ['\n']) ++ printed (l.map ExportRow.csv) := fun l => rfl
  have hdrop : (csvText rows').drop (csvHeader.length + 1) =
      printed (rows'.map ExportRow.csv) := by
    rw [hbody]
    exact List.drop_left' (by simp)
  rw [hdrop, hbody, hbody]
  simp [printed]

/-- An export that is read back has one row for each timestamp of its range. One up to `B`
and one from `B'` without its header make the export of both ranges exactly when no sample
lies between where the first ends and where the second begins: with the days adjacent, that
is where `B'` does not begin 24 hours after `B`. -/
theorem exports_join_iff (pretty : Json → List Char) (civil : String → Option Date)
    (tz : TimeZone) {a b b' c : String} {A B B' C : Date} (ha : civil a = some A)
    (hb : civil b = some B) (hb' : civil b' = some B') (hc : civil c = some C)
    (hA : midnight tz A ≤ midnight tz B) (hB : midnight tz B ≤ midnight tz B')
    (hC : midnight tz B' ≤ midnight tz C) (db : Db) {text text' whole : List Char}
    (hfirst : exportText pretty civil tz a b .csv (some db) = .ok text)
    (hsecond : exportText pretty civil tz b' c .csv (some db) = .ok text')
    (hwhole : exportText pretty civil tz a c .csv (some db) = .ok whole) :
    ExportsRange db (midnight tz A + 86400) (midnight tz C + 172800) (readCsv whole) ∧
      (text ++ text'.drop (csvHeader.length + 1) = whole ↔ ∀ x ∈ db.samples.rows,
        ¬ (min (midnight tz B + 172800) (midnight tz B' + 86400) ≤ x.1.ts ∧
          x.1.ts < max (midnight tz B + 172800) (midnight tz B' + 86400))) := by
  have hday : ∀ D : Date, midnight tz D + 86400 + 86400 = midnight tz D + 172800 :=
    fun D => by omega
  have htext := exportText_ok ha hb hfirst
  have htext' := exportText_ok hb' hc hsecond
  have hwhole' := exportText_ok ha hc hwhole
  rw [hday] at htext htext' hwhole'
  have hlo : midnight tz A + 86400 ≤ min (midnight tz B + 172800) (midnight tz B' + 86400) := by
    omega
  have hhi : max (midnight tz B + 172800) (midnight tz B' + 86400) ≤ midnight tz C + 172800 := by
    omega
  rw [hwhole', readCsv_csvText]
  refine ⟨exportsRange_queryRange db _ _, ?_⟩
  rw [htext, htext', csvText_append, csvText_injective.eq_iff]
  exact queryRange_join_iff db hlo hhi

/-- Two hours ahead of UTC until 3 o'clock on 25 October 2026, then one: a day of 25 hours. -/
def autumnZone : TimeZone where
  toZoned := fun ts =>
    DateTime.ofSeconds (if ts < 1792890000 then ts + 7200 else ts + 3600)
  toTimestamp := fun dt =>
    if dt.toSeconds < 1792897200 then dt.toSeconds - 7200 else dt.toSeconds - 3600

def autumnDb : Db :=
  { Db.init with samples := Table.set ∅ ⟨1793053800, "eth0"⟩ ⟨1000, 100, 0, 0⟩ }

/-- It is in the export of both days, and in neither day's. -/
theorem exports_join_iff_autumn :
    let day := fun start stop => exportText (fun _ => []) isoDate autumnZone start stop .csv
      (some autumnDb)
    day "2026-10-25" "2026-10-25" = .ok (csvText []) ∧
      day "2026-10-26" "2026-10-26" = .ok (csvText []) ∧
      day "2026-10-25" "2026-10-26" = .ok (csvText [⟨1793053800, 1000, 100, 0, 0, 1000, 100⟩]) ∧
      csvText [] ++ (csvText []).drop (csvHeader.length + 1) ≠
        csvText [⟨1793053800, 1000, 100, 0, 0, 1000, 100⟩] := by
  intro day
  have hfirst : day "2026-10-25" "2026-10-25" = .ok (csvText []) := by decide +kernel
  have hsecond : day "2026-10-26" "2026-10-26" = .ok (csvText []) := by decide +kernel
  have hwhole : day "2026-10-25" "2026-10-26" =
      .ok (csvText [⟨1793053800, 1000, 100, 0, 0, 1000, 100⟩]) := by decide +kernel
  have hjoin := (exports_join_iff (fun _ => []) isoDate autumnZone (A := isoDay "2026-10-25")
    (B := isoDay "2026-10-25") (C := isoDay "2026-10-26") (by decide +kernel) (by decide +kernel)
    (show isoDate "2026-10-26" = some (isoDay "2026-10-26") by decide +kernel)
    (by decide +kernel) (by decide +kernel) (by decide +kernel) (by decide +kernel) autumnDb
    hfirst hsecond hwhole).2
  exact ⟨hfirst, hsecond, hwhole, fun h => hjoin.mp h
    ⟨⟨1793053800, "eth0"⟩, ⟨1000, 100, 0, 0⟩⟩ (by decide +kernel) (by decide +kernel)⟩

end Netmeter
