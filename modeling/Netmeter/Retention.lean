import Netmeter.RollupRuns
import Netmeter.Daemon
set_option autoImplicit false

/-!
Retention against the rollup watermark: which samples a pass may delete, over
runs with failing rollups and a wall clock that jumps.
-/

namespace Netmeter
open Keyed Transaction

/-- The daemon with the ticks that recorded rows no rollup has folded, the
samples that make up each rollup table, and the cuts of the hourly pruning. -/
structure Journal where
  state : State
  pending : List ℤ
  parts : Level → List Sample
  hourCuts : List ℤ

def Journal.init : Journal := ⟨State.init, [], fun _ => [], []⟩

def prunedParts (tz : TimeZone) (cut : ℤ) (parts : Level → List Sample) : Level → List Sample
  | .hourly => (parts .hourly).filter (fun x => cut ≤ floorHour tz x.1.ts)
  | .daily => parts .daily
  | .monthly => parts .monthly

def Journal.step (cfg : Config) (tz : TimeZone) (j : Journal) (e : Event) : Journal :=
  let j' := { j with state := Netmeter.step cfg tz j.state e }
  match e with
  | .tick r =>
    if gapBranch cfg r || (sampleRows cfg j.state.daemon r).isEmpty then j'
    else { j' with pending := r.nowWall.secs :: j.pending }
  | .rollup f =>
    if Commits (Level.floor tz) f j.state.db then
      { j' with
        pending := j.pending.filter (notAfter j.state.db.lastRollupTs)
        parts := fun L => (if (rollupMarker f j.state.db).isNone then [] else j.parts L) ++
          rollupRows f j.state.db }
    else j'
  | .retain now =>
    let cut := retentionCut now.secs cfg.retentionDaysHourly
    { j' with parts := prunedParts tz cut j.parts, hourCuts := cut :: j.hourCuts }
  | .restart => j'

/-- A rollup that commits read all it should, and a retention pass cuts before
every tick still pending. -/
def Journal.Timely (cfg : Config) (tz : TimeZone) (j : Journal) : Event → Prop
  | .rollup f => Commits (Level.floor tz) f j.state.db → Complete f j.state.db
  | .retain now => ∀ t ∈ j.pending, retentionCut now.secs cfg.retentionDaysRaw ≤ t
  | _ => True

/-- At or below the watermark, and part of every table that still has its bucket. -/
def Journal.Folded (tz : TimeZone) (j : Journal) (x : Sample) : Prop :=
  (∃ m, j.state.db.lastRollupTs = some m ∧ x.1.ts ≤ m) ∧
    x ∈ j.parts .daily ∧ x ∈ j.parts .monthly ∧
    (x ∈ j.parts .hourly ∨ ∃ c ∈ j.hourCuts, floorHour tz x.1.ts < c)

/-- The tables are the sums of their parts, and a sample that is not folded comes
from a pending tick. -/
structure Journal.Sound (tz : TimeZone) (j : Journal) : Prop where
  cells : ∀ L k, (j.state.db.level L).cell k =
    total (inBucket (Level.floor tz L) k) (j.parts L)
  covered : ∀ x ∈ j.state.db.samples.rows, x.1.ts ∈ j.pending ∨ j.Folded tz x

variable {cfg : Config} {tz : TimeZone} {j : Journal}

theorem sound_init : Journal.init.Sound tz where
  cells L k := by cases L <;> rfl
  covered x hx := by simp [Journal.init, State.init, Db.init] at hx

theorem Journal.Folded.mono {j' : Journal} {x : Sample} (h : j.Folded tz x)
    (hm : ∃ m, j'.state.db.lastRollupTs = some m ∧ x.1.ts ≤ m)
    (hp : ∀ L, j.parts L ⊆ j'.parts L) (hc : j.hourCuts ⊆ j'.hourCuts) : j'.Folded tz x := by
  obtain ⟨-, hd, hmo, hh⟩ := h
  refine ⟨hm, hp _ hd, hp _ hmo, ?_⟩
  rcases hh with hh | ⟨c, hcut, hlt⟩
  · exact .inl (hp _ hh)
  · exact .inr ⟨c, hc hcut, hlt⟩

theorem sound_tick (h : j.Sound tz) (r : Reading) : (j.step cfg tz (.tick r)).Sound tz := by
  cases hgap : gapBranch cfg r with
  | true =>
    have hj : j.step cfg tz (.tick r) = { j with state := tick cfg tz j.state r } := by
      simp [Journal.step, hgap, Netmeter.step]
    rw [hj, tick_gap hgap]
    exact ⟨h.cells, h.covered⟩
  | false =>
    have ht := ticked hgap tz j.state
    have hstate : (j.step cfg tz (.tick r)).state = tick cfg tz j.state r := by
      unfold Journal.step
      dsimp only
      split <;> rfl
    have hparts : (j.step cfg tz (.tick r)).parts = j.parts ∧
        (j.step cfg tz (.tick r)).hourCuts = j.hourCuts ∧
        (∀ t ∈ j.pending, t ∈ (j.step cfg tz (.tick r)).pending) ∧
        (∀ x ∈ sampleRows cfg j.state.daemon r,
          r.nowWall.secs ∈ (j.step cfg tz (.tick r)).pending) := by
      unfold Journal.step
      dsimp only
      split
      · next hempty =>
        simp only [hgap, Bool.false_or, List.isEmpty_iff] at hempty
        exact ⟨rfl, rfl, fun t ht => ht, fun x hx => by simp [hempty] at hx⟩
      · exact ⟨rfl, rfl, fun t ht => List.mem_cons_of_mem _ ht, fun x hx => List.mem_cons_self⟩
    obtain ⟨hp, hc, hpend, hnow⟩ := hparts
    constructor
    · intro L k
      rw [hstate, hp, ht.level]
      exact h.cells L k
    · intro x hx
      rw [hstate, ht.samples] at hx
      rcases mem_insertSamples hx with hx | hx
      · rcases h.covered x hx with hx | hx
        · exact .inl (hpend _ hx)
        · refine .inr (hx.mono ?_ (fun L => ?_) ?_)
          · rw [hstate, ht.marker]
            exact hx.1
          · rw [hp]
            exact List.Subset.refl _
          · rw [hc]
            exact List.Subset.refl _
      · obtain ⟨p, hp, rfl⟩ := List.mem_map.mp hx
        exact .inl (hnow p hp)

theorem step_commit {f : Faults} (h : Commits (Level.floor tz) f j.state.db) :
    j.step cfg tz (.rollup f) =
      { state := { j.state with db := rollupCall (Level.floor tz) f j.state.db }
        pending := j.pending.filter (notAfter j.state.db.lastRollupTs)
        parts := fun L => (if (rollupMarker f j.state.db).isNone then [] else j.parts L) ++
          rollupRows f j.state.db
        hourCuts := j.hourCuts } := by
  simp [Journal.step, h, Netmeter.step]

theorem sound_rollup (h : j.Sound tz) {f : Faults} (hok : j.Timely cfg tz (.rollup f)) :
    (j.step cfg tz (.rollup f)).Sound tz := by
  rcases rollupCall_cases (Level.floor tz) f j.state.db with ⟨hcommit, he⟩ | ⟨hnot, he⟩
  · obtain ⟨hmarker, hrows⟩ := hok hcommit
    have hne := hcommit.2.1
    rw [step_commit hcommit, he, hmarker]
    constructor
    · intro L k
      show ((j.state.db.folded _ _ _).level L).cell k = _
      rw [Db.level_folded, Table.cell_addAll, total_bucketed, total_append]
      cases hl : j.state.db.lastRollupTs with
      | none => rfl
      | some m =>
        rw [Option.isNone_some, if_neg (by simp), if_neg (by simp), h.cells]
        rfl
    · intro x hx
      change x ∈ j.state.db.samples.rows at hx
      have hle : x.1.ts ≤ maxTs (rollupRows f j.state.db) := by
        rw [hrows] at hne ⊢
        exact le_maxTs_newerThan hne x hx
      by_cases hnew : x ∈ newerThan j.state.db.lastRollupTs j.state.db.samples.rows
      · -- folded just now
        rw [← hrows] at hnew
        exact .inr ⟨⟨_, rfl, hle⟩, List.mem_append_right _ hnew, List.mem_append_right _ hnew,
          .inl (List.mem_append_right _ hnew)⟩
      · -- at or below the old watermark: the tables are added to
        rw [mem_newerThan] at hnew
        push Not at hnew
        obtain ⟨m, hm, hxm⟩ := hnew hx
        rcases h.covered x hx with hpend | hfold
        · refine .inl (List.mem_filter.mpr ⟨hpend, ?_⟩)
          simp [hm, notAfter, hxm]
        · refine .inr (hfold.mono ⟨_, rfl, hle⟩ (fun L => ?_) (List.Subset.refl _))
          rw [hm]
          exact List.subset_append_left (j.parts L) _
  · have hj : j.step cfg tz (.rollup f) = j := by
      simp [Journal.step, hnot, Netmeter.step, he]
    rw [hj]
    exact h

theorem cell_filter_bucket {t : Table Key Counts} {bucket : ℤ → ℤ} {rows : List Sample} {k : Key}
    (cut : ℤ) (h : t.cell k = total (inBucket bucket k) rows) :
    (t.filter (fun k => cut ≤ k.ts)).cell k =
      total (inBucket bucket k) (rows.filter (fun x => cut ≤ bucket x.1.ts)) := by
  rw [Table.cell_filter, total_filter _ (fun k' : Key => decide (cut ≤ bucket k'.ts)), h]
  by_cases hk : cut ≤ k.ts
  · rw [if_pos (by simpa using hk)]
    refine total_congr (fun x _ => ?_)
    by_cases hb : inBucket bucket k x.1 = true
    · simp [hb, (inBucket_iff.mp hb).2, hk]
    · simp [hb]
  · rw [if_neg (by simpa using hk), eq_comm, total_eq_zero]
    intro x _
    by_cases hb : inBucket bucket k x.1 = true
    · simp [(inBucket_iff.mp hb).2, hk]
    · simp [hb]

theorem sound_retain (h : j.Sound tz) (now : WallClock) :
    (j.step cfg tz (.retain now)).Sound tz := by
  constructor
  · intro L k
    cases L with
    | hourly =>
      exact cell_filter_bucket _ (h.cells .hourly k)
    | daily => exact h.cells .daily k
    | monthly => exact h.cells .monthly k
  · intro x hx
    have hx' : x ∈ j.state.db.samples.rows := List.mem_of_mem_filter hx
    rcases h.covered x hx' with hpend | ⟨hm, hd, hmo, hh⟩
    · exact .inl hpend
    · refine .inr ⟨hm, hd, hmo, ?_⟩
      rcases hh with hh | ⟨c, hc, hlt⟩
      · by_cases hcut : retentionCut now.secs cfg.retentionDaysHourly ≤ floorHour tz x.1.ts
        · exact .inl (List.mem_filter.mpr ⟨hh, by simpa using hcut⟩)
        · exact .inr ⟨_, List.mem_cons_self, not_le.mp hcut⟩
      · exact .inr ⟨c, List.mem_cons_of_mem _ hc, hlt⟩

theorem sound_step (j : Journal) (e : Event) (h : j.Sound tz) (he : j.Timely cfg tz e) :
    (j.step cfg tz e).Sound tz := by
  cases e with
  | tick r => exact sound_tick h r
  | rollup f => exact sound_rollup h he
  | retain now => exact sound_retain h now
  | restart => exact ⟨h.cells, h.covered⟩

/-- In every run whose retention passes cut before the pending ticks, a pass
deletes only samples at or below the watermark, which every rollup table that
still has their bucket includes. -/
theorem retention_deletes_folded (cfg : Config) (tz : TimeZone) (es : List Event)
    (now : WallClock)
    (h : Along (Journal.step cfg tz) (Journal.Timely cfg tz) Journal.init (es ++ [.retain now])) :
    let j := es.foldl (Journal.step cfg tz) Journal.init
    (∀ L k, (j.state.db.level L).cell k =
      total (inBucket (Level.floor tz L) k) (j.parts L)) ∧
    ∀ x ∈ j.state.db.samples.rows,
      x ∉ (enforceRetention cfg now.secs j.state.db).samples.rows → j.Folded tz x := by
  intro j
  obtain ⟨hes, hlast, -⟩ := along_append.mp h
  have hj : j.Sound tz := along_invariant (Journal.Sound tz) sound_step sound_init hes
  refine ⟨hj.cells, fun x hx hdel => ?_⟩
  rcases hj.covered x hx with hpend | hfold
  · -- a pending tick is at or after the cut
    have hcut := hlast x.1.ts hpend
    exact absurd (List.mem_filter.mpr ⟨hx, by simpa using hcut⟩) hdel
  · exact hfold

/-- With no days of raw retention the first pass deletes what no rollup has seen. -/
theorem not_retention_deletes_folded :
    ¬ ∀ (cfg : Config) (tz : TimeZone) (es : List Event) (now : WallClock),
      let s := es.foldl (step cfg tz) State.init
      ∀ x ∈ s.db.samples.rows, x ∉ (enforceRetention cfg now.secs s.db).samples.rows →
        ∃ m, s.db.lastRollupTs = some m ∧ x.1.ts ≤ m := by
  intro h
  obtain ⟨m, hm, -⟩ := h { retentionDaysRaw := 0 } .utc
    [.tick (rxReading 1800000000 1000), .tick (rxReading 1800000005 1300)]
    (.at 1800000010) (⟨1800000005, "eth0"⟩, ⟨300, 0, 0, 0⟩)
    (by decide +kernel) (by decide +kernel)
  exact absurd (Eq.trans (by decide) hm) (Option.some_ne_none m).symm

def monthLater : List Event :=
  [.tick (rxReading 1800000000 1000), .tick (rxReading 1800000005 1300),
    .rollup noFaults]

theorem retention_deletes_folded_monthLater :
    let j := monthLater.foldl (Journal.step {} .utc) Journal.init
    ∀ x ∈ j.state.db.samples.rows,
      x ∉ (enforceRetention {} 1803000000 j.state.db).samples.rows → j.Folded .utc x :=
  (retention_deletes_folded {} .utc monthLater (.at 1803000000)
    ⟨trivial, trivial, fun _ => ⟨rollupMarker_of_readsOk readsOk_noFaults _,
        rollupRows_of_readsOk readsOk_noFaults _⟩,
      by unfold Journal.Timely; decide +kernel, trivial⟩).2

end Netmeter
