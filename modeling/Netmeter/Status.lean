import Netmeter.Extension
set_option autoImplicit false

/-!
`netmeter status`: what it reads of the machine and of the database, and what the
daemon has published there over a run.
-/

namespace Netmeter
open Keyed

/-- What `status` finds outside the database; `none` is a call that failed. -/
structure StatusHost where
  home : Option String
  databasePath : String
  dbLen : Option ℕ
  walLen : Option ℕ
  nftTableExists : Bool
  isActive : Option Bool
  version : String

structure StatusReport where
  apiVersion : ℤ
  version : String
  daemonActive : Bool
  nftSplit : Bool
  lanSplit : String
  dbPath : String
  dbBytes : ℕ
  walBytes : ℕ
  discardedSamples : String
  deriving DecidableEq

def shellexpandTilde (home : Option String) (s : String) : String :=
  match s.toList, home with
  | '~' :: '/' :: rest, some h => h ++ "/" ++ String.ofList rest
  | _, _ => s

/-- `SUM(lan_rx) + SUM(lan_tx)` over the samples. -/
def lanSeen (db : Db) : ℤ :=
  let sums := (db.samples.rows.map (·.2)).sum
  sums.lanRx + sums.lanTx

/-- The daemon's own view; before it has published one, LAN bytes ever recorded. -/
def nftOk (direct : Bool) (db : Option Db) : Bool :=
  let flag := db.bind (·.nftOk)
  direct || flag == some true || (flag.isNone && decide (0 < (db.map lanSeen).getD 0))

def cmdStatus (host : StatusHost) (db : Option Db) : StatusReport where
  apiVersion := apiVersion
  version := host.version
  daemonActive := host.isActive.getD false
  nftSplit := nftOk host.nftTableExists db
  lanSplit := if nftOk host.nftTableExists db then "available" else "unavailable (TOTAL-only)"
  dbPath := shellexpandTilde host.home host.databasePath
  dbBytes := host.dbLen.getD 0
  walBytes := host.walLen.getD 0
  discardedSamples := ((db.bind (·.discardedSamples)).map toString).getD "0"

def StatusReport.text (r : StatusReport) : List String :=
  let walHint := if 50 * 1024 * 1024 < r.walBytes then
    "  (checkpoint starvation — a long-lived reader is pinning the WAL)" else ""
  ["netmeter " ++ r.version,
    "daemon:  " ++ if r.daemonActive then "active" else
      "inactive (run `netmeter daemon install`)",
    "nft:     " ++ if r.nftSplit then "split available (LAN/WAN/TOTAL)" else
      "unavailable → TOTAL-only",
    "db:      " ++ r.dbPath ++ " (" ++ toString r.dbBytes ++ " bytes, wal " ++
      toString r.walBytes ++ " bytes)" ++ walHint,
    "discarded spike samples: " ++ r.discardedSamples]

def StatusReport.json (r : StatusReport) : StatusJson := ⟨r.version, r.daemonActive, r.nftSplit⟩

/-- Whether a tick read both LAN counters; a tick after a suspend reports nothing. -/
def splitSeen (cfg : Config) : Event → Option Bool
  | .tick r => if gapBranch cfg r then none else some r.lanNow.isSome
  | _ => none

def lastSplit (cfg : Config) (es : List Event) : Option Bool :=
  (es.filterMap (splitSeen cfg)).getLast?

def baseline (cfg : Config) (prev : Table String (UInt64 × UInt64)) :
    Event → Table String (UInt64 × UInt64)
  | .tick r => if gapBranch cfg r then ∅ else r.totals.filter (fun i => !cfg.excluded i)
  | .restart => ∅
  | _ => prev

def spikesIn (cfg : Config) (prev : Table String (UInt64 × UInt64)) : Event → ℕ
  | .tick r => if gapBranch cfg r then 0 else discarded cfg { prev := prev } r
  | _ => 0

def spikes (cfg : Config) : Table String (UInt64 × UInt64) → List Event → ℕ
  | _, [] => 0
  | prev, e :: es => spikesIn cfg prev e + spikes cfg (baseline cfg prev e) es

theorem nftOk_recordSamples (cfg : Config) (tz : TimeZone) (r : Reading)
    (rows : List (String × Counts)) (db : Db) :
    (recordSamples cfg tz r rows db).nftOk = db.nftOk := by
  obtain ⟨events, h⟩ := recordSamples_eq cfg tz r rows db
  rw [h]
  rfl

theorem discardedSamples_recordSamples (cfg : Config) (tz : TimeZone) (r : Reading)
    (rows : List (String × Counts)) (db : Db) :
    (recordSamples cfg tz r rows db).discardedSamples = db.discardedSamples := by
  obtain ⟨events, h⟩ := recordSamples_eq cfg tz r rows db
  rw [h]
  rfl

theorem nftOk_rollupCall (bucket : Level → ℤ → ℤ) (f : Faults) (db : Db) :
    (rollupCall bucket f db).nftOk = db.nftOk := by
  rcases rollupCall_cases bucket f db with ⟨-, h⟩ | ⟨-, h⟩ <;> rw [h]
  rfl

theorem discardedSamples_rollupCall (bucket : Level → ℤ → ℤ) (f : Faults) (db : Db) :
    (rollupCall bucket f db).discardedSamples = db.discardedSamples := by
  rcases rollupCall_cases bucket f db with ⟨-, h⟩ | ⟨-, h⟩ <;> rw [h]
  rfl

theorem nftOk_reportNft (d : Daemon) (lanNow : Option (UInt64 × UInt64)) (db : Db) :
    (reportNft d lanNow db).nftOk =
      if some lanNow.isSome = d.nftOkReported then db.nftOk else some lanNow.isSome := by
  unfold reportNft
  split <;> rfl

theorem discarded_countDiscarded (n : ℕ) (db : Db) :
    (countDiscarded n db).discardedSamples.getD 0 = db.discardedSamples.getD 0 + n := by
  unfold countDiscarded
  split
  · rfl
  · next h => simp [Nat.eq_zero_of_not_pos h]

variable {cfg : Config} {tz : TimeZone} {prev : Table String (UInt64 × UInt64)} {s : State}

/-- The daemon takes for published only what the database says. -/
structure Published (prev : Table String (UInt64 × UInt64)) (s : State) : Prop where
  flag : ∀ b, s.daemon.nftOkReported = some b → s.db.nftOk = some b
  prev : s.daemon.prev = prev

theorem nftOkReported_nftStep (d : Daemon) (lanNow : Option (UInt64 × UInt64)) (table : Bool) :
    (nftStep d lanNow table).1.nftOkReported = some lanNow.isSome := by
  unfold nftStep
  dsimp only
  split <;> rfl

theorem status_tick {r : Reading} (hgap : gapBranch cfg r = false) (h : Published prev s) :
    (tick cfg tz s r).db.nftOk = some r.lanNow.isSome ∧
      (tick cfg tz s r).db.discardedSamples.getD 0 =
        s.db.discardedSamples.getD 0 + discarded cfg { prev := prev } r ∧
      (tick cfg tz s r).daemon.nftOkReported = some r.lanNow.isSome := by
  have hproc : ∀ db, (recordProc cfg tz r db).nftOk = db.nftOk ∧
      (recordProc cfg tz r db).discardedSamples = db.discardedSamples := by
    intro db
    unfold recordProc
    split <;> exact ⟨rfl, rfl⟩
  have hflag : (reportNft s.daemon r.lanNow s.db).nftOk = some r.lanNow.isSome := by
    rw [nftOk_reportNft]
    split
    · next hsame => exact h.flag _ hsame.symm
    · rfl
  have hcount : ∀ n, (countDiscarded n (reportNft s.daemon r.lanNow s.db)).nftOk =
      some r.lanNow.isSome := by
    intro n
    obtain ⟨o, ho⟩ := countDiscarded_eq n (reportNft s.daemon r.lanNow s.db)
    rw [ho]
    exact hflag
  have hsame : discarded cfg s.daemon r = discarded cfg { prev := prev } r := by
    unfold discarded ifaceDeltas
    rw [h.prev]
  have hreport : (reportNft s.daemon r.lanNow s.db).discardedSamples = s.db.discardedSamples := by
    obtain ⟨o, ho⟩ := reportNft_eq s.daemon r.lanNow s.db
    rw [ho]
  simp only [tick, tickSamples, hgap, Bool.false_eq_true, if_false, (hproc _).1, (hproc _).2,
    nftOk_recordSamples, discardedSamples_recordSamples, discarded_countDiscarded, hcount, hreport,
    hsame, nftOkReported_nftStep, and_self]

theorem published_step (h : Published prev s) (e : Event) :
    Published (baseline cfg prev e) (step cfg tz s e) := by
  cases e with
  | tick r =>
    cases hgap : gapBranch cfg r with
    | true =>
      have htick : step cfg tz s (.tick r) = _ := tick_gap hgap tz s
      rw [htick]
      exact ⟨h.flag, by simp [baseline, hgap]⟩
    | false =>
      obtain ⟨hflag, -, hreported⟩ := @status_tick cfg tz prev s r hgap h
      constructor
      · intro b hb
        obtain rfl := Option.some.inj (hreported.symm.trans hb)
        exact hflag
      · have hprev := (ticked hgap tz s).prev
        simpa [step, baseline, hgap] using hprev
  | rollup f => exact ⟨fun b hb => (nftOk_rollupCall _ f s.db).trans (h.flag b hb), h.prev⟩
  | retain now => exact ⟨h.flag, h.prev⟩
  | restart => exact ⟨fun b hb => by simp [step] at hb, rfl⟩

theorem nftOk_step (h : Published prev s) (e : Event) :
    (step cfg tz s e).db.nftOk = (splitSeen cfg e).or s.db.nftOk := by
  cases e with
  | tick r =>
    cases hgap : gapBranch cfg r with
    | true => simp [step, splitSeen, tick_gap hgap, hgap]
    | false =>
      obtain ⟨hflag, -, -⟩ := @status_tick cfg tz prev s r hgap h
      simpa [step, splitSeen, hgap] using hflag
  | rollup f => exact nftOk_rollupCall _ f s.db
  | retain now => rfl
  | restart => rfl

theorem discardedSamples_step (h : Published prev s) (e : Event) :
    (step cfg tz s e).db.discardedSamples.getD 0 =
      s.db.discardedSamples.getD 0 + spikesIn cfg prev e := by
  cases e with
  | tick r =>
    cases hgap : gapBranch cfg r with
    | true => simp [step, spikesIn, tick_gap hgap, hgap]
    | false =>
      obtain ⟨-, hcount, -⟩ := @status_tick cfg tz prev s r hgap h
      simpa [step, spikesIn, hgap] using hcount
  | rollup f => simp [step, spikesIn, discardedSamples_rollupCall]
  | retain now => simp [step, spikesIn, enforceRetention]
  | restart => simp [step, spikesIn]

theorem lastSplit_cons (cfg : Config) (e : Event) (es : List Event) :
    lastSplit cfg (e :: es) = (lastSplit cfg es).or (splitSeen cfg e) := by
  unfold lastSplit
  cases h : splitSeen cfg e with
  | none => simp [h]
  | some b => simp [h, List.getLast?_cons]

theorem nftOk_run (es : List Event) (h : Published prev s) :
    (es.foldl (step cfg tz) s).db.nftOk = (lastSplit cfg es).or s.db.nftOk := by
  induction es generalizing prev s with
  | nil => rfl
  | cons e es ih =>
    rw [List.foldl_cons, ih (published_step h e), nftOk_step h e, lastSplit_cons, Option.or_assoc]

theorem discardedSamples_run (es : List Event) (h : Published prev s) :
    (es.foldl (step cfg tz) s).db.discardedSamples.getD 0 =
      s.db.discardedSamples.getD 0 + spikes cfg prev es := by
  induction es generalizing prev s with
  | nil => simp [spikes]
  | cons e es ih =>
    rw [List.foldl_cons, ih (published_step h e), discardedSamples_step h e, spikes]
    push_cast
    ring

theorem published_start (db : Db) : Published ∅ { db := db } where
  flag b hb := by simp at hb
  prev := rfl

theorem nftOk_eq (direct : Bool) (db : Db) :
    nftOk direct (some db) = (direct || db.nftOk.getD (decide (0 < lanSeen db))) := by
  unfold nftOk
  simp only [Option.bind_some, Option.map_some, Option.getD_some]
  cases db.nftOk with
  | none => simp
  | some b => cases b <;> simp

/-- After any run from any database, over restarts and suspends: `status` and the
panel show the split as the last full tick saw it, or before one as the database had
it, and the count has grown by exactly the deltas that were discarded. -/
theorem status_reports (cfg : Config) (tz : TimeZone) (db : Db) (es : List Event)
    (host : StatusHost) :
    let s := es.foldl (step cfg tz) { db := db }
    let report := cmdStatus host (some s.db)
    report.nftSplit = (host.nftTableExists ||
      ((lastSplit cfg es).or db.nftOk).getD (decide (0 < lanSeen s.db))) ∧
    (∀ (replies : Replies) (now : ℤ),
      (buildModel true tz now { replies with status := some report.json }).split =
        report.nftSplit) ∧
    report.discardedSamples = toString (db.discardedSamples.getD 0 + spikes cfg ∅ es) := by
  intro s report
  have hflag : s.db.nftOk = (lastSplit cfg es).or db.nftOk := nftOk_run es (published_start db)
  have hcount : s.db.discardedSamples.getD 0 = db.discardedSamples.getD 0 + spikes cfg ∅ es :=
    discardedSamples_run es (published_start db)
  refine ⟨?_, fun replies now => rfl, ?_⟩
  · rw [← hflag]
    exact nftOk_eq host.nftTableExists s.db
  · rw [← hcount]
    show ((s.db.discardedSamples).map toString).getD "0" = _
    cases s.db.discardedSamples with
    | none => rfl
    | some n => rfl

end Netmeter
