import Netmeter.Schedule
set_option autoImplicit false

/-!
What the timers guarantee: rollup tables at most an hour behind, and samples kept
for the configured days, and for no more than seven hours longer.
-/

namespace Netmeter
open Keyed Transaction

/-- Whole days that no conversion to seconds overflows. -/
def DaysInRange (days : ℤ) : Prop := 1 ≤ days ∧ days ≤ 106751991167300

theorem retentionCut_eq {days : ℤ} (h : DaysInRange days) (now : WallClock) :
    retentionCut now.secs days = now.secs - days * 86400 := by
  have hv := now.valid
  obtain ⟨hlo, hhi⟩ := h
  unfold retentionCut
  rw [wrapI64_of_bounds (by omega : -(2 ^ 63) ≤ days * 86400 ∧ days * 86400 < 2 ^ 63),
    wrapI64_of_bounds (by omega)]

variable {cfg : Config} {tz : TimeZone} {m : Timeline} {t : Timers} {p : TimedPass}

/-- The running process, against the samples and its own clock. -/
structure Timeline.Up (cfg : Config) (m : Timeline) (t : Timers) : Prop where
  seen : m.offset + t.lastTick ≤ m.seen ∧ m.offset + t.lastRollup ≤ m.seen ∧
    m.offset + t.lastRetain ≤ m.seen
  started : m.started ≤ t.lastTick
  past : ∀ r ∈ m.hist, r.1.ts * second ≤ m.offset + t.lastTick
  lag : (∀ r ∈ newerThan m.state.db.lastRollupTs m.hist,
      m.offset + t.lastRollup < (r.1.ts + 1) * second) ∨
    t.lastRollup + 3600 * second ≤ t.lastTick
  age : t.lastRetain = m.started ∨ ∀ x ∈ m.state.db.samples.rows,
    m.offset + t.lastRetain ≤ (x.1.ts + 1 + cfg.retentionDaysRaw * 86400 + 3600) * second

/-- Every sample is in the ledger, and in `samples` while it is young enough. -/
structure Timeline.Kept (cfg : Config) (tz : TimeZone) (m : Timeline) : Prop where
  books : Books (Level.floor tz) m.state.db m.hist
  past : ∀ r ∈ m.hist, r.1.ts * second ≤ m.seen
  young : ∀ r ∈ m.hist, m.seen / second ≤ r.1.ts + cfg.retentionDaysRaw * 86400 →
    r ∈ m.state.db.samples.rows
  up : ∀ t, m.timers = some t → m.Up cfg t

theorem timeline_kept_init : Timeline.Kept cfg tz {} where
  books := books_init
  past r hr := by simp at hr
  young r hr := by simp at hr
  up t ht := by simp at ht

theorem samples_tick (h : gapBranch cfg (p.read t) = false) (s : State) :
    SameBooks (tick cfg tz s (p.read t)).db
      (s.db.insertSamples p.reading.nowWall.secs (sampleRows cfg s.daemon (p.read t))) where
  samples := (ticked h tz s).samples
  level L _ := by
    rw [(ticked h tz s).level L]
    cases L <;> rfl
  marker := (ticked h tz s).marker

theorem books_retain {db : Db} {hist : List Sample} (h : Books (Level.floor tz) db hist)
    (hdays : DaysInRange cfg.retentionDaysRaw) {now : WallClock}
    (hcut : ∀ r ∈ newerThan db.lastRollupTs hist,
      now.secs - cfg.retentionDaysRaw * 86400 ≤ r.1.ts) :
    Books (Level.floor tz) (enforceRetention cfg now.secs db) hist := by
  refine h.prune hcut ?_ (fun L hL => ?_) rfl
  · rw [← retentionCut_eq hdays]
    rfl
  · cases L with
    | hourly => exact absurd rfl hL
    | daily => rfl
    | monthly => rfl

theorem mem_retain {db : Db} (hdays : DaysInRange cfg.retentionDaysRaw) (now : WallClock)
    {x : Sample} : x ∈ (enforceRetention cfg now.secs db).samples.rows ↔
      x ∈ db.samples.rows ∧ now.secs - cfg.retentionDaysRaw * 86400 ≤ x.1.ts := by
  rw [← retentionCut_eq hdays]
  simp [enforceRetention]

def TimedPass.jobs (cfg : Config) (tz : TimeZone) (p : TimedPass) (t : Timers) (db : Db) : Db :=
  let db := if p.rollupDue t then rollupCall (Level.floor tz) p.faults db else db
  if p.retainDue t then enforceRetention cfg p.retainNow.secs db else db

theorem timedPass_db (h : gapBranch cfg (p.read t) = false) (s : State) :
    (timedPass cfg tz s t p).1.db = p.jobs cfg tz t (tick cfg tz s (p.read t)).db := by
  unfold timedPass TimedPass.jobs
  rw [h]
  cases p.rollupDue t <;> cases p.retainDue t <;> rfl

theorem timedPass_timers (h : gapBranch cfg (p.read t) = false) (s : State) :
    (timedPass cfg tz s t p).2 = p.timers t := by
  unfold timedPass
  rw [h]
  rfl

theorem fresh_tick (hup : m.Up cfg t) (hin : m.InOrder cfg t p)
    (hwall : p.reading.nowWall.secs = m.wall p.wallAt) :
    ∀ r ∈ m.hist, r.1.ts < p.reading.nowWall.secs := by
  intro r hr
  have hpast := hup.past r hr
  have hslept := hin.slept
  have hpoll : 1 ≤ max cfg.pollIntervalSec 1 := le_max_right _ _
  rw [hwall, Timeline.wall]
  unfold second at *
  omega

/-- What a pass leaves, before its timers are set. -/
structure TimedPass.Ticked (cfg : Config) (tz : TimeZone) (m : Timeline) (t : Timers)
    (p : TimedPass) (db : Db) : Prop where
  books : Books (Level.floor tz) db (m.hist ++ m.recorded cfg t p)
  samples : ∀ x, x ∈ db.samples.rows ↔
    x ∈ m.state.db.samples.rows ∨ x ∈ m.recorded cfg t p
  marker : db.lastRollupTs = m.state.db.lastRollupTs

theorem passTicked (hkept : m.Kept cfg tz) (hup : m.Up cfg t) (hin : m.InOrder cfg t p)
    (hwall : p.reading.nowWall.secs = m.wall p.wallAt) (h : gapBranch cfg (p.read t) = false) :
    p.Ticked cfg tz m t (tick cfg tz m.state (p.read t)).db := by
  have hsame : SameBooks (tick cfg tz m.state (p.read t)).db _ := samples_tick h m.state
  have hfresh := fresh_tick hup hin hwall
  have hnodup := sampleRows_nodup cfg m.state.daemon (p.read t)
  have hperm := insertSamples_perm
    (fun r hr => (hfresh r (hkept.books.subset r hr)).ne) hnodup
  constructor
  · simp only [Timeline.recorded, h, Bool.false_eq_true, if_false]
    exact (hkept.books.insert hfresh hnodup).congr hsame
  · intro x
    rw [hsame.samples, hperm.mem_iff, List.mem_append]
    simp [Timeline.recorded, h]
  · exact hsame.marker

theorem ts_of_recorded (hwall : p.reading.nowWall.secs = m.wall p.wallAt) {x : Sample}
    (hx : x ∈ m.recorded cfg t p) : x.1.ts = m.wall p.wallAt := by
  unfold Timeline.recorded at hx
  split at hx
  · simp at hx
  · rw [ts_of_mem_tickRows hx, hwall]

/-- What the rollup of a pass leaves out is newer than the last one. -/
structure TimedPass.Folded (cfg : Config) (tz : TimeZone) (m : Timeline) (t : Timers)
    (p : TimedPass) (db : Db) : Prop where
  books : Books (Level.floor tz) db (m.hist ++ m.recorded cfg t p)
  lag : ∀ r ∈ newerThan db.lastRollupTs (m.hist ++ m.recorded cfg t p),
    m.offset + (p.timers t).lastRollup < (r.1.ts + 1) * second ∧
      m.offset + p.rollupCheck < (r.1.ts + 1 + 3600) * second

theorem passFolded (hup : m.Up cfg t) (hin : m.InOrder cfg t p)
    (hwall : p.reading.nowWall.secs = m.wall p.wallAt) {db : Db}
    (h : p.Ticked cfg tz m t db) : p.Folded cfg tz m t
      (if p.rollupDue t then rollupCall (Level.floor tz) noFaults db else db) := by
  cases hdue : p.rollupDue t with
  | true =>
    obtain ⟨hbooks, hall⟩ := h.books.rollup
    refine ⟨hbooks, fun r hr => ?_⟩
    rw [if_pos rfl, hall] at hr
    simp at hr
  | false =>
    refine ⟨h.books, fun r hr => ?_⟩
    simp only [Bool.false_eq_true, if_false] at hr
    have hslept := hin.slept
    have hpoll : 1 ≤ max cfg.pollIntervalSec 1 := le_max_right _ _
    have hlater := hin.later
    have hwake := hin.wake
    have hseen := hup.seen
    have hlast : (p.timers t).lastRollup = t.lastRollup := by simp [TimedPass.timers, hdue]
    simp only [TimedPass.rollupDue, decide_eq_false_iff_not, not_lt] at hdue
    rw [hlast]
    rw [newerThan_append, List.mem_append, h.marker] at hr
    have hts : m.offset + t.lastRollup < (r.1.ts + 1) * second := by
      rcases hr with hr | hr
      · rcases hup.lag with hlag | hlag
        · exact hlag r hr
        · -- a start makes the first rollup due at once
          unfold second at *
          omega
      · rw [ts_of_recorded hwall (mem_newerThan.mp hr).1, Timeline.wall]
        unfold second at *
        omega
    refine ⟨hts, ?_⟩
    unfold second at *
    omega

structure TimedPass.Done (cfg : Config) (tz : TimeZone) (m : Timeline) (t : Timers)
    (p : TimedPass) (db : Db) : Prop extends p.Folded cfg tz m t db where
  young : ∀ x, x ∈ m.state.db.samples.rows ∨ x ∈ m.recorded cfg t p →
    m.wall p.retained ≤ x.1.ts + cfg.retentionDaysRaw * 86400 → x ∈ db.samples.rows
  age : (p.timers t).lastRetain = m.started ∧ p.retainCheck ≤ m.started + 6 * 3600 * second ∨
    ∀ x ∈ db.samples.rows,
      m.offset + (p.timers t).lastRetain ≤
        (x.1.ts + 1 + cfg.retentionDaysRaw * 86400 + 3600) * second ∧
      m.offset + p.retainCheck ≤
        (x.1.ts + 1 + cfg.retentionDaysRaw * 86400 + 7 * 3600) * second

theorem passDone (hdays : DaysInRange cfg.retentionDaysRaw) (hup : m.Up cfg t)
    (hin : m.InOrder cfg t p) (hwall : p.reading.nowWall.secs = m.wall p.wallAt)
    (hnow : p.retainNow.secs = m.wall p.retainAt) {db : Db} (h : p.Folded cfg tz m t db)
    (hmem : ∀ x, x ∈ db.samples.rows ↔
      x ∈ m.state.db.samples.rows ∨ x ∈ m.recorded cfg t p) :
    p.Done cfg tz m t
      (if p.retainDue t then enforceRetention cfg p.retainNow.secs db else db) := by
  have hwake := hin.wake
  have hjobs := hin.jobs
  have hwork := hin.work
  have hlo := hdays.1
  cases hdue : p.retainDue t with
  | true =>
    rw [if_pos rfl]
    have hcut : ∀ r ∈ newerThan db.lastRollupTs (m.hist ++ m.recorded cfg t p),
        p.retainNow.secs - cfg.retentionDaysRaw * 86400 ≤ r.1.ts := by
      intro r hr
      have hlag := (h.lag r hr).2
      rw [hnow, Timeline.wall]
      unfold second at *
      omega
    have hlast : (p.timers t).lastRetain = p.retained := by simp [TimedPass.timers, hdue]
    refine ⟨⟨books_retain h.books hdays hcut, h.lag⟩, fun x hx hyoung => ?_, .inr ?_⟩
    · rw [mem_retain hdays, hmem]
      refine ⟨hx, ?_⟩
      rw [hnow]
      unfold Timeline.wall second at *
      omega
    · intro x hx
      rw [mem_retain hdays, hnow] at hx
      have hcut := hx.2
      rw [hlast]
      unfold Timeline.wall second at *
      omega
  | false =>
    rw [if_neg Bool.false_ne_true]
    have hlast : (p.timers t).lastRetain = t.lastRetain := by simp [TimedPass.timers, hdue]
    simp only [TimedPass.retainDue, decide_eq_false_iff_not, not_lt] at hdue
    refine ⟨h, fun x hx _ => (hmem x).mpr hx, ?_⟩
    rw [hlast]
    rcases hup.age with hage | hage
    · exact .inl ⟨hage, by omega⟩
    · refine .inr (fun x hx => ?_)
      have hx' : m.offset + t.lastRetain ≤
          (x.1.ts + 1 + cfg.retentionDaysRaw * 86400 + 3600) * second := by
        rcases (hmem x).mp hx with hx | hx
        · exact hage x hx
        · -- a row of this pass is newer than the last retention
          have hts := ts_of_recorded hwall hx
          have hseen := hup.seen
          have hlater := hin.later
          unfold Timeline.wall second at *
          omega
      refine ⟨hx', ?_⟩
      unfold second at *
      omega

theorem pass_done (hdays : DaysInRange cfg.retentionDaysRaw) (hkept : m.Kept cfg tz)
    (ht : m.timers = some t) (hsteady : m.Steady cfg (.pass p))
    (h : gapBranch cfg (p.read t) = false) :
    p.Done cfg tz m t (timedPass cfg tz m.state t p).1.db := by
  obtain ⟨t', ht', hin, hwall, hnow, hfaults⟩ := hsteady
  obtain rfl : t = t' := Option.some.inj (ht ▸ ht')
  have hup := hkept.up t ht
  have hticked := passTicked hkept hup hin hwall h
  rw [timedPass_db h, TimedPass.jobs, hfaults]
  refine passDone hdays hup hin hwall hnow (passFolded hup hin hwall hticked) (fun x => ?_)
  rw [← hticked.samples x]
  cases p.rollupDue t with
  | true => rw [if_pos rfl, samples_rollupCall]
  | false => rfl

theorem Timeline.step_pass (ht : m.timers = some t) : m.step cfg tz (.pass p) =
    { m with
      state := (timedPass cfg tz m.state t p).1
      timers := some (timedPass cfg tz m.state t p).2
      seen := m.offset + p.retained
      hist := m.hist ++ m.recorded cfg t p } := by
  simp [Timeline.step, ht]

theorem kept_start (hkept : m.Kept cfg tz) {now offset : ℤ}
    (h : m.Steady cfg (.start now offset)) : (m.step cfg tz (.start now offset)).Kept cfg tz where
  books := hkept.books
  past r hr := (hkept.past r hr).trans h.2
  young r hr hyoung := by
    refine hkept.young r hr (le_trans ?_ hyoung)
    exact Int.ediv_le_ediv (by decide) h.2
  up t ht := by
    obtain rfl := Option.some.inj ht
    constructor
    · simp only [Timeline.step, Timers.start]
      unfold second
      omega
    · exact le_refl _
    · exact fun r hr => (hkept.past r hr).trans h.2
    · exact .inr (by simp [Timers.start])
    · exact .inl rfl

theorem kept_gap (hkept : m.Kept cfg tz) (ht : m.timers = some t)
    (hin : m.InOrder cfg t p) (h : gapBranch cfg (p.read t) = true) :
    (m.step cfg tz (.pass p)).Kept cfg tz := by
  have hup := hkept.up t ht
  have hlater := hin.later
  have hwake := hin.wake
  have hjobs := hin.jobs
  have hslept := hin.slept
  have hseen : m.seen ≤ m.offset + p.retained := by omega
  have hpass : timedPass cfg tz m.state t p =
      (tick cfg tz m.state (p.read t), { t with lastTick := p.tickAt }) := by
    simp [timedPass, h]
  rw [Timeline.step_pass ht, hpass, tick_gap h, Timeline.recorded, if_pos h, List.append_nil]
  have hlast : t.lastTick ≤ p.tickAt := by
    have hpoll : 1 ≤ max cfg.pollIntervalSec 1 := le_max_right _ _
    unfold second at *
    omega
  constructor
  · exact hkept.books
  · exact fun r hr => (hkept.past r hr).trans hseen
  · refine fun r hr hyoung => hkept.young r hr (le_trans ?_ hyoung)
    exact Int.ediv_le_ediv (by decide) hseen
  · intro t' ht'
    obtain rfl := Option.some.inj ht'
    obtain ⟨hu, hstarted, hpast, hlag, hage⟩ := hup
    refine ⟨?_, hstarted.trans hlast, fun r hr => ?_, ?_, hage⟩
    · dsimp only
      omega
    · have := hpast r hr
      dsimp only
      omega
    · exact hlag.imp_right (fun h => h.trans hlast)

theorem kept_pass (hdays : DaysInRange cfg.retentionDaysRaw) (hkept : m.Kept cfg tz)
    (hsteady : m.Steady cfg (.pass p)) : (m.step cfg tz (.pass p)).Kept cfg tz := by
  obtain ⟨t, ht, hin, hwall, hnow, hfaults⟩ := hsteady
  cases h : gapBranch cfg (p.read t) with
  | true => exact kept_gap hkept ht hin h
  | false =>
    have hup := hkept.up t ht
    have hdone := pass_done hdays hkept ht ⟨t, ht, hin, hwall, hnow, hfaults⟩ h
    have hlater := hin.later
    have hwake := hin.wake
    have hjobs := hin.jobs
    have hslept := hin.slept
    have hpoll : 1 ≤ max cfg.pollIntervalSec 1 := le_max_right _ _
    have hpast : ∀ r ∈ m.hist ++ m.recorded cfg t p, r.1.ts * second ≤ m.offset + p.tickAt := by
      intro r hr
      rcases List.mem_append.mp hr with hr | hr
      · have := hkept.past r hr
        omega
      · rw [ts_of_recorded hwall hr]
        unfold Timeline.wall second
        omega
    rw [Timeline.step_pass ht, timedPass_timers h]
    constructor
    · exact hdone.books
    · intro r hr
      have := hpast r hr
      dsimp only
      omega
    · intro r hr hyoung
      refine hdone.young r ?_ hyoung
      rcases List.mem_append.mp hr with hr | hr
      · have hseen : m.seen ≤ m.offset + p.retained := by omega
        exact .inl (hkept.young r hr ((Int.ediv_le_ediv (by decide) hseen).trans hyoung))
      · exact .inr hr
    · intro t' ht'
      obtain rfl := Option.some.inj ht'
      have hseen := hup.seen
      have hstarted := hup.started
      refine ⟨?_, ?_, hpast, .inl (fun r hr => (hdone.lag r hr).1), ?_⟩
      · simp only [TimedPass.timers]
        split <;> split <;> omega
      · simp only [TimedPass.timers]
        unfold second at *
        omega
      · exact hdone.age.imp (fun h => h.1) (fun h x hx => (h x hx).1)

theorem kept_stop (hdays : DaysInRange cfg.retentionDaysRaw) (hkept : m.Kept cfg tz)
    {instant : ℤ} {f : Faults} {now : WallClock} (h : m.Steady cfg (.stop instant f now)) :
    (m.step cfg tz (.stop instant f now)).Kept cfg tz := by
  obtain ⟨-, hseen, hnow, rfl⟩ := h
  obtain ⟨hbooks, hall⟩ := hkept.books.rollup
  constructor
  · exact books_retain hbooks hdays (fun r hr => by simp [hall] at hr)
  · exact fun r hr => (hkept.past r hr).trans hseen
  · intro r hr hyoung
    have hold : m.seen / second ≤ (m.offset + instant) / second :=
      Int.ediv_le_ediv (by decide) hseen
    show r ∈ (enforceRetention cfg now.secs (rollupCall _ noFaults m.state.db)).samples.rows
    rw [mem_retain hdays, samples_rollupCall]
    refine ⟨hkept.young r hr (le_trans hold hyoung), ?_⟩
    have hyoung' : (m.offset + instant) / second ≤ r.1.ts + cfg.retentionDaysRaw * 86400 := hyoung
    rw [hnow, Timeline.wall]
    omega
  · simp [Timeline.step]

theorem timeline_kept_step (hdays : DaysInRange cfg.retentionDaysRaw) (m : Timeline)
    (e : TimedEvent) (hkept : m.Kept cfg tz) (h : m.Steady cfg e) : (m.step cfg tz e).Kept cfg tz := by
  cases e with
  | start now offset => exact kept_start hkept h
  | pass p => exact kept_pass hdays hkept h
  | stop instant f now => exact kept_stop hdays hkept h
  | kill => exact ⟨hkept.books, hkept.past, hkept.young, by simp [Timeline.step]⟩

theorem kept_run (hdays : DaysInRange cfg.retentionDaysRaw) {es : List TimedEvent}
    (h : Along (Timeline.step cfg tz) (Timeline.Steady cfg) {} es) :
    (es.foldl (Timeline.step cfg tz) {}).Kept cfg tz :=
  along_invariant (Timeline.Kept cfg tz) (timeline_kept_step hdays) timeline_kept_init h

/-- After every pass that is no gap, in every run with starts, stops and kills: what
is an hour old is in the rollups, what is within the retention days is in `samples`,
and six hours into the process nothing there is seven hours older than that. -/
theorem recorded_within_an_hour (cfg : Config) (tz : TimeZone)
    (hdays : DaysInRange cfg.retentionDaysRaw) (es : List TimedEvent) (p : TimedPass) (t : Timers)
    (h : Along (Timeline.step cfg tz) (Timeline.Steady cfg) {} (es ++ [.pass p]))
    (ht : (es.foldl (Timeline.step cfg tz) {}).timers = some t)
    (hgap : gapBranch cfg (p.read t) = false) :
    let m : Timeline := (es ++ [TimedEvent.pass p]).foldl (Timeline.step cfg tz) {}
    let db := m.state.db
    (∀ r ∈ m.hist, r.1.ts + 3600 < m.wall p.rollupCheck →
        ∃ marker, db.lastRollupTs = some marker ∧ r.1.ts ≤ marker) ∧
      (∀ L, L ≠ .hourly → ∀ k, (db.level L).cell k =
        total (inBucket (Level.floor tz L) k) (upTo db.lastRollupTs m.hist)) ∧
      (∀ r ∈ m.hist, m.wall p.retained ≤ r.1.ts + cfg.retentionDaysRaw * 86400 →
        r ∈ db.samples.rows) ∧
      (m.started + 6 * 3600 * second < p.retainCheck → ∀ x ∈ db.samples.rows,
        m.wall p.retainCheck ≤ x.1.ts + cfg.retentionDaysRaw * 86400 + 7 * 3600 + 1) := by
  rw [List.foldl_append, List.foldl_cons, List.foldl_nil]
  obtain ⟨hes, hsteady, -⟩ := along_append.mp h
  have hkept := kept_run hdays hes
  generalize es.foldl (Timeline.step cfg tz) {} = m at *
  have hdone := pass_done hdays hkept ht hsteady hgap
  have hkept' := kept_pass hdays hkept hsteady
  rw [Timeline.step_pass ht] at hkept' ⊢
  dsimp only at hkept' ⊢
  refine ⟨fun r hr hold => ?_, fun L hL => hkept'.books.cells hL, hkept'.young, fun hsix x hx => ?_⟩
  · by_contra hnew
    push Not at hnew
    have hlag := (hdone.lag r (mem_newerThan.mpr ⟨hr, hnew⟩)).2
    unfold Timeline.wall second at *
    dsimp only at hold
    omega
  · rcases hdone.age with hage | hage
    · omega
    · have hx' := (hage x hx).2
      unfold Timeline.wall second at *
      dsimp only
      omega

def passAt (s : ℕ) (rx : UInt64) : TimedPass :=
  let now := s * second
  ⟨rxReading (1750000000 + s) rx, now, now, now, now, now, now, now, now, noFaults,
    .at (1750000000 + s)⟩

theorem steady_passAt {s : ℕ} {rx : UInt64} (ht : m.timers = some t)
    (hslept : t.lastTick + max cfg.pollIntervalSec 1 * second ≤ s * second)
    (hseen : m.seen ≤ m.offset + s * second) (hoffset : m.offset = 1750000000 * second)
    (hs : s ≤ 100000) : m.Steady cfg (.pass (passAt s rx)) := by
  have hnow : ((WallClock.at (1750000000 + s)).secs : ℤ) = m.wall (s * second) := by
    simp only [WallClock.at, Timeline.wall, hoffset]
    unfold second
    omega
  refine ⟨t, ht, ⟨hslept, hseen, ?_, ?_, ?_⟩, hnow, hnow, rfl⟩
  · simp [passAt]
  · simp [passAt]
  · simp [passAt, second]

/-- Two passes, seven hours on both clocks without one, and two passes more. -/
def sevenHours : List TimedEvent :=
  [.start 0 (1750000000 * second), .pass (passAt 5 1000), .pass (passAt 10 3000),
    .pass (passAt 25000 4000), .pass (passAt 25005 5000)]

theorem recorded_within_an_hour_sevenHours :
    let m : Timeline :=
      (sevenHours ++ [TimedEvent.pass (passAt 25010 9000)]).foldl (Timeline.step {} .utc) {}
    m.hist.length = 2 ∧ ∀ x ∈ m.state.db.samples.rows,
      m.wall (25010 * second) ≤ x.1.ts + 30 * 86400 + 7 * 3600 + 1 := by
  refine ⟨by decide +kernel, (recorded_within_an_hour {} .utc ⟨by decide, by decide⟩ sevenHours
    (passAt 25010 9000) ⟨25005 * second, 25005 * second, 25005 * second⟩ ⟨⟨rfl, ?_⟩, ?_, ?_, ?_,
    ?_, ?_, trivial⟩ (by decide +kernel) (by decide +kernel)).2.2.2 (by decide +kernel)⟩
  · decide +kernel
  · exact steady_passAt rfl (by decide) (by decide) rfl (by decide)
  · exact steady_passAt (t := ⟨5 * second, 5 * second, 0⟩) (by decide +kernel) (by decide)
      (by decide +kernel) (by decide +kernel) (by decide)
  · exact steady_passAt (t := ⟨10 * second, 5 * second, 0⟩) (by decide +kernel) (by decide)
      (by decide +kernel) (by decide +kernel) (by decide)
  · exact steady_passAt (t := ⟨25000 * second, 5 * second, 0⟩) (by decide +kernel) (by decide)
      (by decide +kernel) (by decide +kernel) (by decide)
  · exact steady_passAt (t := ⟨25005 * second, 25005 * second, 25005 * second⟩)
      (by decide +kernel) (by decide) (by decide +kernel) (by decide +kernel) (by decide)

end Netmeter
