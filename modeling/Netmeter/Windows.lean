import Netmeter.Show
set_option autoImplicit false

/-!
Calendar windows against retention: what the budget figures and the per-app
totals of the current window still add up.
-/

namespace Netmeter
open Keyed Transaction Floor

/-- The daemon with all it has recorded: samples, per-app bytes at the time of
their tick, the clock of the last job and the cuts of the retention passes. -/
structure Records where
  state : State
  clock : ℤ
  samples : List Sample
  apps : List (Key × (ℤ × ℤ))
  cuts : List ℤ

def Records.init : Records := ⟨State.init, 0, [], [], []⟩

def Records.step (cfg : Config) (h : Records) (e : Event) : Records :=
  let h' := { h with state := Netmeter.step cfg .utc h.state e }
  match e with
  | .tick r =>
    if gapBranch cfg r then { h' with clock := r.nowWall.secs }
    else
      { h' with
        clock := r.nowWall.secs
        samples := h.samples ++ tickRows r.nowWall.secs (sampleRows cfg h.state.daemon r)
        apps := h.apps ++
          if cfg.procRecording then procRows r.nowWall.secs r.procDeltas else [] }
  | .retain now =>
    { h' with clock := now.secs, cuts := retentionCut now.secs cfg.retentionDaysRaw :: h.cuts }
  | _ => h'

/-- The clock increases from tick to tick and never steps back. -/
def Records.Ordered (h : Records) : Event → Prop
  | .tick r => h.clock ≤ r.nowWall.secs ∧ ∀ x ∈ h.samples, x.1.ts < r.nowWall.secs
  | .retain now => h.clock ≤ now.secs
  | _ => True

/-- No retention pass falls after midnight on the 31st. -/
def Records.MonthSafe : Event → Prop
  | .retain now => now.secs - floorMonth .utc now.secs ≤ 30 * 86400
  | _ => True

def Records.since (h : Records) (start : ℤ) : Counts :=
  ((h.samples.filter (fun x => start ≤ x.1.ts)).map (·.2)).sum

def Records.appSince (h : Records) (start : ℤ) (comm : String) : List (Key × (ℤ × ℤ)) :=
  h.apps.filter (fun e => start ≤ e.1.ts && e.1.name = comm)

/-- Above every cut nothing is missing, and every cut lies at or before the start
of each current window. -/
structure Records.Intact (h : Records) : Prop where
  kept : ∀ x ∈ h.state.db.samples.rows, x ∈ h.samples
  cuts : ∀ c ∈ h.cuts, ∀ w, c ≤ windowFloor .utc h.clock w
  samples : ∀ p : Key → Bool, (∀ k, p k = true → ∀ c ∈ h.cuts, c ≤ k.ts) →
    total p h.state.db.samples.rows = total p h.samples
  apps : ∀ p : Key → Bool, (∀ k, p k = true → ∀ c ∈ h.cuts, c ≤ k.ts) →
    total p h.state.db.procHourly.rows =
      total (fun k => p ⟨floorHour .utc k.ts, k.name⟩) h.apps

variable {cfg : Config} {h : Records}

theorem intact_init : Records.init.Intact where
  kept x hx := by simp [Records.init, State.init, Db.init] at hx
  cuts c hc := by simp [Records.init] at hc
  samples p _ := rfl
  apps p _ := rfl

theorem windowFloor_mono {s t : ℤ} (hst : s ≤ t) (w : Window) :
    windowFloor .utc s w ≤ windowFloor .utc t w := (isFloor_window w).mono hst

theorem total_procRows (p : Key → Bool) (hour t : ℤ) (deltas : Table String (ℕ × ℕ)) :
    total p (procRows hour deltas) =
      total (fun k => p ⟨hour, k.name⟩) (procRows t deltas) := by
  have hmap : procRows hour deltas =
      (procRows t deltas).map (fun e => ((⟨hour, e.1.name⟩ : Key), e.2)) := by
    unfold procRows
    rw [List.map_filterMap]
    refine List.filterMap_congr (fun e _ => ?_)
    split <;> rfl
  rw [hmap, total_rekey (fun k : Key => (⟨hour, k.name⟩ : Key))]

theorem intact_tick {r : Reading} (hi : h.Intact) (ho : h.Ordered (.tick r)) :
    (h.step cfg (.tick r)).Intact := by
  obtain ⟨hclock, hnew⟩ := ho
  have hcuts : ∀ c ∈ h.cuts, ∀ w, c ≤ windowFloor .utc r.nowWall.secs w := fun c hc w =>
    (hi.cuts c hc w).trans (windowFloor_mono hclock w)
  cases hgap : gapBranch cfg r with
  | true =>
    have hh : h.step cfg (.tick r) =
        { h with state := tick cfg .utc h.state r, clock := r.nowWall.secs } := by
      simp [Records.step, hgap, Netmeter.step]
    rw [hh, tick_gap hgap]
    exact ⟨hi.kept, hcuts, hi.samples, hi.apps⟩
  | false =>
    have ht := ticked hgap .utc h.state
    have hh : h.step cfg (.tick r) =
        { h with
          state := tick cfg .utc h.state r
          clock := r.nowWall.secs
          samples := h.samples ++ tickRows r.nowWall.secs (sampleRows cfg h.state.daemon r)
          apps := h.apps ++
            if cfg.procRecording then procRows r.nowWall.secs r.procDeltas else [] } := by
      simp [Records.step, hgap, Netmeter.step]
    have hperm := insertSamples_perm (fun x hx => (hnew x (hi.kept x hx)).ne)
      (sampleRows_nodup cfg h.state.daemon r)
    rw [hh]
    constructor
    · intro x hx
      change x ∈ (tick cfg .utc h.state r).db.samples.rows at hx
      rw [ht.samples] at hx
      rcases List.mem_append.mp (hperm.mem_iff.mp hx) with hx | hx
      · exact List.mem_append_left _ (hi.kept x hx)
      · exact List.mem_append_right _ hx
    · exact hcuts
    · intro p hp
      show total p (tick cfg .utc h.state r).db.samples.rows = total p (h.samples ++ _)
      rw [ht.samples, total_perm p hperm, total_append, total_append, hi.samples p hp]
    · intro p hp
      show total p (tick cfg .utc h.state r).db.procHourly.rows = total _ (h.apps ++ _)
      rw [ht.proc, total_append, ← hi.apps p hp]
      cases cfg.procRecording with
      | false => simp
      | true =>
        rw [if_pos rfl, if_pos rfl, Table.total_addAll,
          total_procRows p (floorHour .utc r.nowWall.secs) r.nowWall.secs]
        congr 1
        exact total_congr (fun e he => by rw [ts_of_mem_procRows he])

theorem retentionCut_default (now : WallClock) : retentionCut now.secs 30 = now.secs - 2592000 := by
  have hv := now.valid
  unfold retentionCut
  rw [wrapI64_of_bounds (x := 30 * 86400) (by omega), wrapI64_of_bounds (by omega)]
  norm_num

/-- Thirty days reach back before every day and every week, and before a month
that is not in its 31st day. -/
theorem cut_le_window {now : WallClock}
    (hm : now.secs - floorMonth .utc now.secs ≤ 30 * 86400) (w : Window) :
    retentionCut now.secs 30 ≤ windowFloor .utc now.secs w := by
  rw [retentionCut_default]
  cases w with
  | day =>
    show _ ≤ floorDay .utc now.secs
    rw [floorDay_utc]
    omega
  | week =>
    show _ ≤ floorWeek .utc now.secs
    rw [floorWeek_utc]
    omega
  | month =>
    show _ ≤ floorMonth .utc now.secs
    omega

theorem intact_retain {now : WallClock} (hraw : cfg.retentionDaysRaw = 30)
    (hproc : cfg.procRetentionDays = 30) (hi : h.Intact) (ho : h.Ordered (.retain now))
    (hm : Records.MonthSafe (.retain now)) : (h.step cfg (.retain now)).Intact := by
  have hkeep : ∀ (p : Key → Bool) (cut : ℤ), (∀ k, p k = true → cut ≤ k.ts) →
      (fun k : Key => decide (cut ≤ k.ts) && p k) = p := by
    intro p cut hp
    funext k
    cases hk : p k with
    | false => simp
    | true => simp [hp k hk]
  constructor
  · intro x hx
    exact hi.kept x (List.mem_of_mem_filter hx)
  · intro c hc w
    rcases List.mem_cons.mp hc with rfl | hc
    · rw [hraw]
      exact cut_le_window hm w
    · exact (hi.cuts c hc w).trans (windowFloor_mono ho w)
  · intro p hp
    show total p (h.state.db.samples.filter _).rows = total p h.samples
    rw [Table.rows_filter, total_filter p (fun k : Key =>
        decide (retentionCut now.secs cfg.retentionDaysRaw ≤ k.ts)),
      hkeep p _ (fun k hk => hp k hk _ List.mem_cons_self)]
    exact hi.samples p (fun k hk c hc => hp k hk c (List.mem_cons_of_mem _ hc))
  · intro p hp
    show total p (h.state.db.procHourly.filter _).rows = _
    have hsame : retentionCut now.secs (max cfg.procRetentionDays 1) =
        retentionCut now.secs cfg.retentionDaysRaw := by rw [hraw, hproc]; rfl
    rw [Table.rows_filter, total_filter p (fun k : Key =>
        decide (retentionCut now.secs (max cfg.procRetentionDays 1) ≤ k.ts)), hsame,
      hkeep p _ (fun k hk => hp k hk _ List.mem_cons_self)]
    exact hi.apps p (fun k hk c hc => hp k hk c (List.mem_cons_of_mem _ hc))

theorem intact_step (hraw : cfg.retentionDaysRaw = 30) (hproc : cfg.procRetentionDays = 30)
    (h : Records) (e : Event) (hi : h.Intact) (he : h.Ordered e ∧ Records.MonthSafe e) :
    (h.step cfg e).Intact := by
  cases e with
  | tick r => exact intact_tick hi he.1
  | rollup f =>
    have hsamples := samples_rollupCall (Level.floor .utc) f h.state.db
    refine ⟨fun x hx => hi.kept x ?_, hi.cuts, fun p hp => ?_, fun p hp => ?_⟩
    · change x ∈ (rollupCall _ f h.state.db).samples.rows at hx
      rwa [hsamples] at hx
    · show total p (rollupCall _ f h.state.db).samples.rows = _
      rw [hsamples]
      exact hi.samples p hp
    · show total p (rollupCall _ f h.state.db).procHourly.rows = _
      rw [procHourly_rollupCall]
      exact hi.apps p hp
  | retain now => exact intact_retain hraw hproc hi he.1 he.2
  | restart => exact ⟨hi.kept, hi.cuts, hi.samples, hi.apps⟩

theorem windowSum_since (hi : h.Intact) {now : ℤ} (hnow : h.clock ≤ now) (w : Window) :
    h.state.db.windowSum (windowFloor .utc now w) = h.since (windowFloor .utc now w) := by
  unfold Db.windowSum Records.since
  rw [hi.samples, value_total]
  intro k hk c hc
  exact ((hi.cuts c hc w).trans (windowFloor_mono hnow w)).trans (by simpa using hk)

theorem procTotals_since (hi : h.Intact) {now : ℤ} (hnow : h.clock ≤ now) (w : Window)
    (comm : String) (v : ℤ × ℤ) :
    (comm,v) ∈ procTotals h.state.db (windowFloor .utc now w) ↔
      h.appSince (windowFloor .utc now w) comm ≠ [] ∧
        v = ((h.appSince (windowFloor .utc now w) comm).map (·.2)).sum := by
  have hstart : windowFloor .utc now w ∈ hourStarts :=
    dayStarts_subset (windowStarts_subset w ((isFloor_window w).mem now))
  have htotal : total (fun k => windowFloor .utc now w ≤ k.ts && k.name = comm)
      h.state.db.procHourly.rows =
      total (fun k => windowFloor .utc now w ≤ k.ts && k.name = comm) h.apps := by
    rw [hi.apps]
    · -- an hour starts in the window exactly when its instants lie in it
      refine total_congr (fun e _ => ?_)
      simp only [isFloor_hour.le_iff hstart]
    · intro k hk c hc
      simp only [Bool.and_eq_true, decide_eq_true_eq] at hk
      exact ((hi.cuts c hc w).trans (windowFloor_mono hnow w)).trans hk.1
  have hvalue := value_total (fun k : Key => windowFloor .utc now w ≤ k.ts && k.name = comm) h.apps
  change _ = ((h.appSince (windowFloor .utc now w) comm).map (·.2)).sum at hvalue
  rw [mem_procTotals, htotal]
  constructor
  · intro he
    refine ⟨fun hnil => ?_, ?_⟩
    · obtain ⟨x, hx, hpx⟩ := total_ne_zero.mp (he ▸ WithZero.coe_ne_zero)
      have hmem : x ∈ h.appSince (windowFloor .utc now w) comm := List.mem_filter.mpr ⟨hx, hpx⟩
      simp [hnil] at hmem
    · rw [he, value_coe] at hvalue
      exact hvalue
  · rintro ⟨hne, rfl⟩
    obtain ⟨x, hx⟩ := List.exists_mem_of_ne_nil _ hne
    obtain ⟨hx, hpx⟩ := List.mem_filter.mp hx
    obtain ⟨c, hc⟩ := WithZero.ne_zero_iff_exists.mp (total_ne_zero
      (p := fun k : Key => windowFloor .utc now w ≤ k.ts && k.name = comm) |>.mpr ⟨x, hx, hpx⟩)
    rw [← hvalue, ← hc, value_coe]

/-- With thirty days of raw and per-app retention and no pass on a 31st, the
budget figures and the per-app totals of every current window miss nothing. -/
theorem window_totals_complete (cfg : Config) (es : List Event) (now : WallClock)
    (hraw : cfg.retentionDaysRaw = 30) (hproc : cfg.procRetentionDays = 30)
    (hrun : Along (Records.step cfg) (fun h e => h.Ordered e ∧ Records.MonthSafe e)
      Records.init es) (hnow : (es.foldl (Records.step cfg) Records.init).clock ≤ now.secs) :
    let h := es.foldl (Records.step cfg) Records.init
    (∀ period, checkBudgetUsed cfg .utc now.secs period h.state.db =
      basisUsed cfg (h.since (budgetWindowStart .utc now.secs period))) ∧
    (queryBudget cfg .utc now.secs h.state.db).1 =
      basisUsed cfg (h.since (budgetWindowStart .utc now.secs (livePeriod cfg))) ∧
    ∀ w limit, (procTotals h.state.db (windowFloor .utc now.secs w)).length ≤ limit →
      ∀ comm v, (comm,v) ∈ queryProc h.state.db (windowFloor .utc now.secs w) limit ↔
        h.appSince (windowFloor .utc now.secs w) comm ≠ [] ∧
          v = ((h.appSince (windowFloor .utc now.secs w) comm).map (·.2)).sum := by
  intro h
  have hi : h.Intact := along_invariant Records.Intact (intact_step hraw hproc) intact_init hrun
  have hused : ∀ period, checkBudgetUsed cfg .utc now.secs period h.state.db =
      basisUsed cfg (h.since (budgetWindowStart .utc now.secs period)) := by
    intro period
    unfold checkBudgetUsed
    rw [budgetWindowStart_eq, windowSum_since hi hnow]
  refine ⟨hused, hused (livePeriod cfg), fun w limit hlimit comm v => ?_⟩
  rw [mem_queryProc hlimit]
  exact procTotals_since hi hnow w comm v

/-- Traffic on 1 January 2027, and a pass at noon on the 31st. -/
def januaryRun : List Event :=
  [.tick (rxReading 1798761610 1000), .tick (rxReading 1798761615 1300),
    .retain (.at 1801396800)]

/-- On the 31st the cut lies in the current month: its first day is gone. -/
theorem not_window_totals_complete :
    ¬ ∀ (cfg : Config) (es : List Event) (now : WallClock), cfg.retentionDaysRaw = 30 →
      cfg.procRetentionDays = 30 → Along (Records.step cfg) Records.Ordered Records.init es →
      (es.foldl (Records.step cfg) Records.init).clock ≤ now.secs →
      let h := es.foldl (Records.step cfg) Records.init
      ∀ period, checkBudgetUsed cfg .utc now.secs period h.state.db =
        basisUsed cfg (h.since (budgetWindowStart .utc now.secs period)) := by
  intro h
  have hd := h { budgetGb := 1 } januaryRun (.at 1801396800) rfl rfl
    ⟨by unfold Records.Ordered; decide +kernel, by unfold Records.Ordered; decide +kernel,
      by unfold Records.Ordered; decide +kernel, trivial⟩ (by decide +kernel) "month"
  exact absurd hd (by decide +kernel)

/-- The same traffic and a pass at noon on the 30th: the month still has all of it. -/
theorem window_totals_complete_month_end :
    let h := (januaryRun.take 2 ++ [Event.retain (.at 1801310400)]).foldl
      (Records.step { budgetGb := 1 }) Records.init
    (∀ period, checkBudgetUsed { budgetGb := 1 } .utc 1801310400 period h.state.db =
      basisUsed { budgetGb := 1 } (h.since (budgetWindowStart .utc 1801310400 period))) ∧
    basisUsed { budgetGb := 1 } (h.since (budgetWindowStart .utc 1801310400 "month")) = 300 :=
  ⟨(window_totals_complete { budgetGb := 1 }
    (januaryRun.take 2 ++ [Event.retain (.at 1801310400)]) (.at 1801310400) rfl rfl
    ⟨⟨by unfold Records.Ordered; decide +kernel, trivial⟩,
      ⟨by unfold Records.Ordered; decide +kernel, trivial⟩,
      ⟨by unfold Records.Ordered; decide +kernel, by unfold Records.MonthSafe; decide +kernel⟩,
      trivial⟩ (by decide +kernel)).1, by decide +kernel⟩

end Netmeter
