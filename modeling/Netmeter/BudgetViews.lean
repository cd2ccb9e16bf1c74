import Netmeter.RollupRuns
import Netmeter.Show
set_option autoImplicit false

/-!
Three ways to the budget figure: the daemon's check and the live view sum raw
samples, the bar of `show` goes through rollup buckets or their fallback.
-/

namespace Netmeter
open Keyed Transaction Floor

/-- From `start` on, a rollup table holds the sums of the samples up to the
watermark. -/
def Db.BookedFrom (start : ℤ) (L : Level) (db : Db) : Prop :=
  ∀ k : Key, start ≤ k.ts → (db.level L).cell k =
    total (inBucket (Level.floor .utc L) k) (upTo db.lastRollupTs db.samples.rows)

/-- Rollups that commit read all they should, and retention leaves the samples
since `start`. -/
def Undisturbed (cfg : Config) (start : ℤ) (s : State) : Event → Prop
  | .rollup f => Commits (Level.floor .utc) f s.db → Complete f s.db
  | .retain now => ∀ x ∈ s.db.samples.rows, start ≤ x.1.ts →
      retentionCut now.secs cfg.retentionDaysRaw ≤ x.1.ts
  | _ => True

/-- A tick that records rows since `start` is later than the watermark. -/
def NewerTicks (cfg : Config) (start : ℤ) (s : State) : Event → Prop
  | .tick r => sampleRows cfg s.daemon r ≠ [] → start ≤ r.nowWall.secs →
      ∀ m, s.db.lastRollupTs = some m → m < r.nowWall.secs
  | _ => True

variable {cfg : Config} {start : ℤ} {L : Level} {s : State} {db : Db}

theorem start_le_of_inBucket {k k' : Key} (hk : start ≤ k.ts)
    (hb : inBucket (Level.floor .utc L) k k' = true) : start ≤ k'.ts :=
  ((inBucket_iff.mp hb).2 ▸ hk).trans ((isFloor_level L).le k'.ts)

theorem bookedFrom_init : Db.init.BookedFrom start L := by
  intro k _
  cases L <;> rfl

theorem bookedFrom_tick (h : s.db.BookedFrom start L) {r : Reading}
    (hn : NewerTicks cfg start s (.tick r)) : (tick cfg .utc s r).db.BookedFrom start L := by
  cases hgap : gapBranch cfg r with
  | true => rwa [tick_gap hgap]
  | false =>
    have ht := ticked hgap .utc s
    intro k hk
    rw [ht.level, ht.marker, ht.samples, h k hk, total_upTo, total_upTo]
    by_cases hrows : sampleRows cfg s.daemon r = []
    · rw [hrows]
      rfl
    · -- rows at or below the watermark lie before `start`, so outside the bucket
      refine (total_insertSamples (fun k' hk' => ?_) _ _).symm
      by_cases hb : inBucket (Level.floor .utc L) k k' = true
      · have hstart := start_le_of_inBucket hk hb
        have hnew := hn hrows (hk' ▸ hstart)
        cases hm : s.db.lastRollupTs with
        | none => simp [notAfter]
        | some m =>
          have hlt := hnew m hm
          simp [notAfter, hk', hlt]
      · simp [hb]

theorem bookedFrom_rollup (h : s.db.BookedFrom start L) {f : Faults}
    (hok : Undisturbed cfg start s (.rollup f)) :
    (rollupCall (Level.floor .utc) f s.db).BookedFrom start L := by
  rcases rollupCall_cases (Level.floor .utc) f s.db with ⟨hcommit, he⟩ | ⟨-, he⟩
  · obtain ⟨hmarker, hrows⟩ := hok hcommit
    have hne := hcommit.2.1
    have hall : ∀ x ∈ s.db.samples.rows, x.1.ts ≤ maxTs (rollupRows f s.db) := by
      rw [hrows] at hne ⊢
      exact le_maxTs_newerThan hne
    rw [he, hmarker]
    intro k hk
    show ((s.db.folded _ _ _).level L).cell k =
      total _ (upTo (some (maxTs (rollupRows f s.db))) s.db.samples.rows)
    rw [upTo_eq_self hall, Db.level_folded, Table.cell_addAll, total_bucketed,
      ← total_upTo_add s.db.lastRollupTs _ s.db.samples.rows, hrows]
    cases hl : s.db.lastRollupTs with
    | none => rfl
    | some m =>
      have hcell := h k hk
      rw [hl] at hcell
      rw [Option.isNone_some, if_neg (by simp), hcell]
      rfl
  · rw [he]
    exact h

theorem bookedFrom_retain {now : WallClock}
    (hlevel : ∀ k : Key, start ≤ k.ts →
      ((enforceRetention cfg now.secs s.db).level L).cell k = (s.db.level L).cell k)
    (h : s.db.BookedFrom start L) (hok : Undisturbed cfg start s (.retain now)) :
    (enforceRetention cfg now.secs s.db).BookedFrom start L := by
  intro k hk
  rw [hlevel k hk, h k hk, total_upTo, total_upTo]
  show _ = total _ (s.db.samples.filter _).rows
  rw [Table.rows_filter, total_filter _ (fun k' : Key =>
    decide (retentionCut now.secs cfg.retentionDaysRaw ≤ k'.ts))]
  refine total_congr (fun x hx => ?_)
  by_cases hb : inBucket (Level.floor .utc L) k x.1 = true
  · have hcut := hok x hx (start_le_of_inBucket hk hb)
    show (notAfter s.db.lastRollupTs x.1.ts && _) = _
    simp [hb, hcut, enforceRetention]
  · simp [hb]

theorem bookedFrom_step (hL : L ≠ .hourly) (s : State) (e : Event) (h : s.db.BookedFrom start L)
    (he : Undisturbed cfg start s e ∧ NewerTicks cfg start s e) :
    (step cfg .utc s e).db.BookedFrom start L := by
  cases e with
  | tick r => exact bookedFrom_tick h he.2
  | rollup f => exact bookedFrom_rollup h he.1
  | retain now =>
    refine bookedFrom_retain (fun k _ => ?_) h he.1
    cases L with
    | hourly => exact absurd rfl hL
    | daily => rfl
    | monthly => rfl
  | restart => exact h

theorem total_level (h : db.BookedFrom start L)
    (hall : upTo db.lastRollupTs db.samples.rows = db.samples.rows) {p : Key → Bool}
    (hp : ∀ k, p k = true → start ≤ k.ts) :
    total p (db.level L).rows =
      total (fun k => p ⟨Level.floor .utc L k.ts, k.name⟩) db.samples.rows := by
  have hfilter : (db.level L).filter (fun k => start ≤ k.ts) =
      (Table.group (bucketed (Level.floor .utc L) db.samples.rows)).filter
        (fun k => start ≤ k.ts) := by
    apply Table.ext_cell
    intro k
    rw [Table.cell_filter, Table.cell_filter, Table.cell_group, total_bucketed]
    split
    · next hk =>
      rw [h k (by simpa using hk), hall]
      rfl
    · rfl
  have hsupport : ∀ l : List Sample,
      total p l = total p (l.filter (fun x => start ≤ x.1.ts)) := by
    intro l
    rw [total_filter p (fun k : Key => decide (start ≤ k.ts))]
    refine total_congr (fun x _ => ?_)
    cases hx : p x.1 with
    | false => simp
    | true => simp [hp x.1 hx]
  rw [hsupport, ← Table.rows_filter _ (fun k : Key => decide (start ≤ k.ts)), hfilter,
    Table.rows_filter, ← hsupport, Table.total_group]
  exact total_rekey (fun k : Key => (⟨Level.floor .utc L k.ts, k.name⟩ : Key)) p _

/-- The cap every tick applies: clamping WAN at zero changes nothing. -/
structure Counts.Capped (c : Counts) : Prop where
  rx : c.lanRx ≤ c.rx
  tx : c.lanTx ≤ c.tx

theorem Counts.Capped.add {c c' : Counts} (h : c.Capped) (h' : c'.Capped) : (c + c').Capped :=
  ⟨add_le_add h.rx h'.rx, add_le_add h.tx h'.tx⟩

theorem capped_sampleRows (cfg : Config) (d : Daemon) (r : Reading) :
    ∀ x ∈ sampleRows cfg d r, x.2.Capped := by
  intro x hx
  obtain ⟨p, -, rfl⟩ := List.mem_map.mp hx
  exact ⟨min_le_right _ _, min_le_right _ _⟩

theorem capped_run (cfg : Config) (tz : TimeZone) (es : List Event) :
    (es.foldl (step cfg tz) State.init).db.All Counts.Capped :=
  invariant (fun s : State => s.db.All Counts.Capped)
    (fun s e hs => all_step (fun _ _ => Counts.Capped.add) hs tz e
      (fun r _ => capped_sampleRows cfg s.daemon r)) all_init es

def basisHom (cfg : Config) : Counts →+ ℤ :=
  if cfg.budgetBasis = "wan" then
    Counts.rxHom - Counts.lanRxHom + (Counts.txHom - Counts.lanTxHom)
  else Counts.rxHom + Counts.txHom

theorem basisUsed_eq (cfg : Config) {c : Counts} (h : c.Capped) :
    basisUsed cfg c = basisHom cfg c := by
  unfold basisUsed basisHom
  split
  · have hrx : c.wanRx = c.rx - c.lanRx := max_eq_left (by have := h.rx; omega)
    have htx : c.wanTx = c.tx - c.lanTx := max_eq_left (by have := h.tx; omega)
    rw [hrx, htx]
    rfl
  · rfl

theorem budgetUsed_eq (cfg : Config) {rows : List Row} (h : ∀ r ∈ rows, r.toCounts.Capped)
    (start : ℤ) :
    budgetUsed cfg rows start = basisHom cfg (value (total (fun t => start ≤ t) (pairs rows))) := by
  rw [map_value_total]
  unfold budgetUsed pairs
  rw [List.filter_map, List.map_map]
  exact congrArg List.sum (List.map_congr_left (fun r hr =>
    basisUsed_eq cfg (h r (List.mem_of_mem_filter hr))))

theorem checkBudgetUsed_eq (cfg : Config) (h : db.All Counts.Capped) (tz : TimeZone) (now : ℤ)
    (period : String) : checkBudgetUsed cfg tz now period db = basisHom cfg
      (value (total (fun k => budgetWindowStart tz now period ≤ k.ts) db.samples.rows)) := by
  have hcapped : (db.windowSum (budgetWindowStart tz now period)).Capped := by
    unfold Db.windowSum
    cases hc : total (fun k => budgetWindowStart tz now period ≤ k.ts) db.samples.rows with
    | zero => exact ⟨le_rfl, le_rfl⟩
    | coe c => exact total_closed (fun _ _ => Counts.Capped.add) (fun x hx _ => h .samples x hx) hc
  exact basisUsed_eq cfg hcapped

theorem capped_showRows (h : db.All Counts.Capped) (tz : TimeZone) (period : Period) (last : ℤ)
    (iface : Option String) : ∀ r ∈ showRows tz period last iface db, r.toCounts.Capped := by
  have hadd : ∀ a b : Counts, a.Capped → b.Capped → (a + b).Capped := fun _ _ => Counts.Capped.add
  have hquery : ∀ src, ∀ r ∈ queryRange db src (last - period.span) (last + 1) iface,
      r.toCounts.Capped := fun src => closed_queryRange hadd (h src) _ _ iface
  unfold showRows
  dsimp only
  split
  · have hout := closed_bucketRows hadd (hquery .samples) (period.sampleFloor tz)
    unfold bucketSamples
    dsimp only
    split
    · exact closed_bucketRows hadd hout _
    · exact hout
  · unfold rolledRows
    dsimp only
    split
    · exact closed_bucketRows hadd (hquery _) _
    · exact hquery _

def Period.window : Period → Window
  | .hour => .day
  | .day => .day
  | .week => .week
  | .month => .month

theorem start_mem_level (period : Period) (now : ℤ) :
    windowFloor .utc now period.window ∈ period.level.starts := by
  cases period with
  | hour => exact dayStarts_subset (isFloor_day.mem now)
  | day => exact isFloor_day.mem now
  | week => exact weekStarts_subset (isFloor_week.mem now)
  | month => exact isFloor_monthStarts.mem now

theorem sub_floorMonth_lt (ts : ℤ) : ts - floorMonth .utc ts < 31 * 86400 := by
  have hv := (Gregorian.Date.ofDays (ts / 86400)).valid
  have hd := Gregorian.daysIn_le (Gregorian.leap (Gregorian.Date.ofDays (ts / 86400)).year)
    (Gregorian.Date.ofDays (ts / 86400)).month
  rw [floorMonth_utc, Gregorian.Date.toDays_firstOfMonth, Gregorian.Date.toDays_ofDays]
  omega

theorem span_covers (period : Period) (now : ℤ) :
    now - period.span ≤ windowFloor .utc now period.window := by
  cases period with
  | hour =>
    show now - 24 * 3600 ≤ floorDay .utc now
    rw [floorDay_utc]
    omega
  | day =>
    show now - 30 * 86400 ≤ floorDay .utc now
    rw [floorDay_utc]
    omega
  | week =>
    show now - 12 * 7 * 86400 ≤ floorWeek .utc now
    rw [floorWeek_utc]
    omega
  | month =>
    have h := sub_floorMonth_lt now
    show now - 365 * 86400 ≤ floorMonth .utc now
    omega

theorem start_le_bucket (period : Period) (now t : ℤ) :
    windowFloor .utc now period.window ≤ Level.floor .utc period.level t ↔
      windowFloor .utc now period.window ≤ t :=
  (isFloor_level period.level).le_iff (start_mem_level period now)

theorem start_le_week (now t : ℤ) :
    windowFloor .utc now Period.week.window ≤ floorWeek .utc t ↔
      windowFloor .utc now Period.week.window ≤ t :=
  isFloor_week.le_iff (isFloor_week.mem now)

variable {period : Period} {now : ℤ}

theorem total_rolledRows (h : db.BookedFrom (windowFloor .utc now period.window) period.level)
    (hall : upTo db.lastRollupTs db.samples.rows = db.samples.rows)
    (hpast : ∀ x ∈ db.samples.rows, x.1.ts ≤ now) :
    total (fun t => windowFloor .utc now period.window ≤ t)
        (pairs (rolledRows .utc period (now - period.span) (now + 1) none db)) =
      total (fun k => windowFloor .utc now period.window ≤ k.ts) db.samples.rows := by
  have hspan := span_covers period now
  have hquery : total (fun t => windowFloor .utc now period.window ≤ t)
      (pairs (queryRange db (.rollup period.level) (now - period.span) (now + 1) none)) =
      total (fun k => windowFloor .utc now period.window ≤ k.ts) db.samples.rows := by
    rw [total_queryRange]
    show total _ (db.level period.level).rows = _
    rw [total_level h hall (fun k hk => by
      simp only [Bool.and_eq_true, decide_eq_true_eq] at hk
      exact hk.2.2)]
    refine total_congr (fun x hx => ?_)
    -- the bucket of a sample in the window lies in the range that is queried
    have hle := hpast x hx
    have hfloor := (isFloor_level period.level).le x.1.ts
    have hiff := start_le_bucket period now x.1.ts
    by_cases hstart : windowFloor .utc now period.window ≤ x.1.ts
    · have hb := hiff.mpr hstart
      have hlo : now - period.span ≤ Level.floor .utc period.level x.1.ts := hspan.trans hb
      have hhi : Level.floor .utc period.level x.1.ts < now + 1 := by omega
      simp [hstart, hb, hlo, hhi, matchesIface]
    · have hb : ¬ windowFloor .utc now period.window ≤ Level.floor .utc period.level x.1.ts :=
        fun hb => hstart (hiff.mp hb)
      simp [hstart, hb]
  unfold rolledRows
  dsimp only
  split
  · next hweek =>
    subst hweek
    unfold rebucketWeek
    rw [total_bucketRows]
    simp only [start_le_week]
    exact hquery
  · exact hquery

theorem total_bucketSamples (hpast : ∀ x ∈ db.samples.rows, x.1.ts ≤ now) :
    total (fun t => windowFloor .utc now period.window ≤ t)
        (pairs (bucketSamples .utc period
          (queryRange db .samples (now - period.span) (now + 1) none))) =
      total (fun k => windowFloor .utc now period.window ≤ k.ts) db.samples.rows := by
  have hspan := span_covers period now
  have hquery : total (fun t => windowFloor .utc now period.window ≤ period.sampleFloor .utc t)
      (pairs (queryRange db .samples (now - period.span) (now + 1) none)) =
      total (fun k => windowFloor .utc now period.window ≤ k.ts) db.samples.rows := by
    rw [total_queryRange]
    refine total_congr (fun x hx => ?_)
    have hle := hpast x hx
    simp only [sampleFloor_eq, start_le_bucket]
    by_cases hstart : windowFloor .utc now period.window ≤ x.1.ts
    · have hlo : now - period.span ≤ x.1.ts := hspan.trans hstart
      have hhi : x.1.ts < now + 1 := by omega
      simp [hstart, hlo, hhi, matchesIface]
    · simp [hstart]
  unfold bucketSamples
  dsimp only
  split
  · next hweek =>
    subst hweek
    unfold rebucketWeek
    rw [total_bucketRows]
    simp only [start_le_week]
    rw [total_bucketRows]
    exact hquery
  · rw [total_bucketRows]
    exact hquery

theorem total_showRows (period : Period)
    (h : db.BookedFrom (windowFloor .utc now period.window) period.level)
    (hall : upTo db.lastRollupTs db.samples.rows = db.samples.rows)
    (hpast : ∀ x ∈ db.samples.rows, x.1.ts ≤ now) :
    total (fun t => windowFloor .utc now period.window ≤ t)
        (pairs (showRows .utc period now none db)) =
      total (fun k => windowFloor .utc now period.window ≤ k.ts) db.samples.rows := by
  unfold showRows
  dsimp only
  split
  · exact total_bucketSamples hpast
  · exact total_rolledRows h hall hpast

theorem effectiveBudget_period {cfg : Config} {p : String} {gb : ℚ}
    (h : cfg.effectiveBudget = some (p, gb)) : p = "day" ∨ p = "week" ∨ p = "month" := by
  unfold Config.effectiveBudget at h
  split at h
  · split at h
    · next hp =>
      simp only [Option.some.injEq, Prod.mk.injEq] at h
      exact h.1 ▸ hp
    · simp only [Option.some.injEq, Prod.mk.injEq] at h
      exact .inr (.inr h.1.symm)
  · simp at h

theorem ofPeriod_view (hp : period ≠ .hour) : Window.ofPeriod period.view = period.window := by
  cases period with
  | hour => exact absurd rfl hp
  | day => rfl
  | week => decide
  | month => decide

/-- With the watermark at the newest sample and every tick of the window later
than the watermark it found, the three budget figures are one. -/
theorem budget_figures_agree (cfg : Config) (period : Period) (gb : ℚ) (es : List Event) (now : ℤ)
    (hb : cfg.effectiveBudget = some (period.view, gb))
    (hrun : Along (step cfg .utc)
      (fun s e => Undisturbed cfg (budgetWindowStart .utc now period.view) s e ∧
        NewerTicks cfg (budgetWindowStart .utc now period.view) s e) State.init es)
    (hpast : ∀ x ∈ (es.foldl (step cfg .utc) State.init).db.samples.rows, x.1.ts ≤ now)
    (hcaught : (es.foldl (step cfg .utc) State.init).db.samples.rows ≠ [] →
      (es.foldl (step cfg .utc) State.init).db.lastRollupTs =
        some (maxTs (es.foldl (step cfg .utc) State.init).db.samples.rows)) :
    let db := (es.foldl (step cfg .utc) State.init).db
    (queryBudget cfg .utc now db).1 = checkBudgetUsed cfg .utc now period.view db ∧
      showBudgetUsed cfg .utc period now now none db =
        some (checkBudgetUsed cfg .utc now period.view db) := by
  intro db
  have hp : period ≠ .hour := by
    rintro rfl
    have h := effectiveBudget_period hb
    revert h
    decide
  have hstart : budgetWindowStart .utc now period.view = windowFloor .utc now period.window := by
    rw [budgetWindowStart_eq, ofPeriod_view hp]
  have hlevel : period.level ≠ .hourly := by
    cases period with
    | hour => exact absurd rfl hp
    | day => decide
    | week => decide
    | month => decide
  have hbooked : db.BookedFrom (windowFloor .utc now period.window) period.level := by
    rw [hstart] at hrun
    exact along_invariant
      (fun s : State => s.db.BookedFrom (windowFloor .utc now period.window) period.level)
      (bookedFrom_step hlevel) bookedFrom_init hrun
  have hcapped : db.All Counts.Capped := capped_run cfg .utc es
  have hall := upTo_caughtUp hcaught
  refine ⟨queryBudget_used hb .utc now db, ?_⟩
  have hused : budgetUsed cfg (showRows .utc period now none db)
      (budgetWindowStart .utc now period.view) =
      checkBudgetUsed cfg .utc now period.view db := by
    rw [budgetUsed_eq cfg (capped_showRows hcapped .utc period now none),
      checkBudgetUsed_eq cfg hcapped, hstart, total_showRows period hbooked hall hpast]
  unfold showBudgetUsed
  rw [hb]
  simp only [if_true]
  rw [hused]

theorem undisturbed_noFaults (cfg : Config) (start : ℤ) (s : State) :
    Undisturbed cfg start s (.rollup noFaults) := fun _ =>
  ⟨rollupMarker_of_readsOk readsOk_noFaults _, rollupRows_of_readsOk readsOk_noFaults _⟩

def dayBudget : Config := { budgetGb := 1, budgetPeriod := "day" }

/-- A rollup, and a tick after the clock stepped back three seconds: the daemon
counts the late sample, the bar of `show` never will. -/
theorem not_budget_figures_agree :
    ¬ ∀ (cfg : Config) (period : Period) (gb : ℚ) (es : List Event) (now : ℤ),
      cfg.effectiveBudget = some (period.view, gb) →
      Along (step cfg .utc) (Undisturbed cfg (budgetWindowStart .utc now period.view))
        State.init es →
      let db := (es.foldl (step cfg .utc) State.init).db
      (∀ x ∈ db.samples.rows, x.1.ts ≤ now) →
      (db.samples.rows ≠ [] → db.lastRollupTs = some (maxTs db.samples.rows)) →
      showBudgetUsed cfg .utc period now now none db =
        some (checkBudgetUsed cfg .utc now period.view db) := by
  intro h
  have hd := h dayBudget .day 1
    [.tick (rxReading 1800000000 1000), .tick (rxReading 1800000005 1300),
      .rollup noFaults, .tick (rxReading 1800000002 1350)]
    1800000005 (by decide +kernel)
    ⟨trivial, trivial, undisturbed_noFaults _ _ _, trivial, trivial⟩
    (by decide +kernel) (by decide +kernel)
  exact absurd hd (by decide +kernel)

def dayRun : List Event :=
  [.tick (rxReading 1800000000 1000), .tick (rxReading 1800000005 1300),
    .rollup noFaults]

theorem dayRun_newerTicks (start : ℤ) : Along (step dayBudget .utc)
    (fun s e => Undisturbed dayBudget start s e ∧ NewerTicks dayBudget start s e)
    State.init dayRun := by
  have hnone : (tick dayBudget .utc State.init
      (rxReading 1800000000 1000)).db.lastRollupTs = none := (ticked rfl .utc State.init).marker
  refine ⟨⟨trivial, fun _ _ m hm => ?_⟩, ⟨trivial, fun _ _ m hm => ?_⟩,
    ⟨undisturbed_noFaults _ _ _, trivial⟩, trivial⟩
  · simp [State.init, Db.init] at hm
  · exact absurd (hnone.symm.trans hm) (by simp)

theorem budget_figures_agree_day :
    let db := (dayRun.foldl (step dayBudget .utc) State.init).db
    showBudgetUsed dayBudget .utc .day 1800000005 1800000005 none db =
      some (checkBudgetUsed dayBudget .utc 1800000005 "day" db) :=
  (budget_figures_agree dayBudget .day 1 dayRun 1800000005 (by decide +kernel)
    (dayRun_newerTicks _) (by decide +kernel) (by decide +kernel)).2

end Netmeter
