import Netmeter.Lib.Subrows
import Netmeter.Retention
import Netmeter.Lan
set_option autoImplicit false

/-!
However the clock jumps and whatever statements fail: no recorded row is counted twice
in a rollup table, and the sums over a table stay below what was written.
-/

namespace Netmeter
open Keyed Transaction

def rowsOf (cfg : Config) (d : Daemon) : Event → List Sample
  | .tick r => if gapBranch cfg r then [] else tickRows r.nowWall.secs (sampleRows cfg d r)
  | _ => []

def written (cfg : Config) (tz : TimeZone) : State → List Event → List Sample
  | _, [] => []
  | s, e :: es => rowsOf cfg s.daemon e ++ written cfg tz (step cfg tz s e) es

theorem newerThan_sublist (last : Option ℤ) (rows : List Sample) :
    (newerThan last rows).Sublist rows := by
  cases last with
  | none => exact List.Sublist.refl _
  | some m => exact List.filter_sublist

theorem newerThan_subperm (last : Option ℤ) {l l' : List Sample} (h : l.Subperm l') :
    (newerThan last l).Subperm (newerThan last l') := by
  cases last with
  | none => exact h
  | some m => exact h.filter _

theorem fetched_pending {f : Faults} {db : Db} (hne : rollupRows f db ≠ []) :
    (rollupRows f db ++ newerThan (some (maxTs (rollupRows f db))) db.samples.rows).Subperm
      (newerThan (rollupMarker f db) db.samples.rows) := by
  obtain ⟨⟨newest, hnewest, hmax⟩, hle⟩ := maxTs_spec hne
  have habove : newerThan (some (maxTs (rollupRows f db))) db.samples.rows =
      (newerThan (rollupMarker f db) db.samples.rows).filter
        (fun x => !decide (x.1.ts ≤ maxTs (rollupRows f db))) := by
    have hmem := (fetch_sublist f 0 _).subset hnewest
    cases hlast : rollupMarker f db with
    | none =>
      refine List.filter_congr (fun x _ => ?_)
      rw [← decide_not]
      simp only [not_le]
    | some m =>
      -- the new marker is above the old one
      have hm : m < newest.1.ts := (mem_newerThan.mp hmem).2 m hlast
      simp only [newerThan, List.filter_filter]
      refine List.filter_congr (fun x _ => ?_)
      rw [Bool.eq_iff_iff]
      simp
      omega
  rw [habove]
  exact append_filter_subperm (fetch_sublist f 0 _) (fun x hx => decide_eq_true (hle x hx))

/-- The tables are the sums of their parts; together with the samples above the marker
the parts take no row from `hist` twice. -/
structure Journal.CountsOnce (tz : TimeZone) (hist : List Sample) (j : Journal) : Prop where
  cells : ∀ L k, (j.state.db.level L).cell k =
    total (inBucket (Level.floor tz L) k) (j.parts L)
  samples : j.state.db.samples.rows.Subperm hist
  pending : (j.parts .daily ++
    newerThan j.state.db.lastRollupTs j.state.db.samples.rows).Subperm hist
  monthly : j.parts .monthly = j.parts .daily
  hourly : (j.parts .hourly).Subperm (j.parts .daily)

variable {cfg : Config} {tz : TimeZone} {hist : List Sample} {j : Journal}

theorem countsOnce_init (tz : TimeZone) : Journal.init.CountsOnce tz [] where
  cells L k := by cases L <;> rfl
  samples := List.Subperm.refl _
  pending := List.Subperm.refl _
  monthly := rfl
  hourly := List.Subperm.refl _

theorem state_step (cfg : Config) (tz : TimeZone) (j : Journal) (e : Event) :
    (j.step cfg tz e).state = step cfg tz j.state e := by
  cases e with
  | tick r =>
    unfold Journal.step
    dsimp only
    split <;> rfl
  | rollup f =>
    unfold Journal.step
    dsimp only
    split <;> rfl
  | retain now => rfl
  | restart => rfl

theorem parts_tick (cfg : Config) (tz : TimeZone) (j : Journal) (r : Reading) :
    (j.step cfg tz (.tick r)).parts = j.parts := by
  unfold Journal.step
  dsimp only
  split <;> rfl

theorem countsOnce_tick (h : j.CountsOnce tz hist) (r : Reading) :
    (j.step cfg tz (.tick r)).CountsOnce tz (hist ++ rowsOf cfg j.state.daemon (.tick r)) := by
  obtain ⟨hcells, hsamples, hpending, hmonthly, hhourly⟩ := h
  cases hgap : gapBranch cfg r with
  | true =>
    have hdb : (j.step cfg tz (.tick r)).state.db = j.state.db := by
      rw [state_step, step, tick_gap hgap]
    constructor <;> simp only [hdb, parts_tick, rowsOf, hgap, if_true, List.append_nil] <;>
      assumption
  | false =>
    have ht := ticked hgap tz j.state
    have hrows : (tick cfg tz j.state r).db.samples.rows.Subperm
        (j.state.db.samples.rows ++ tickRows r.nowWall.secs (sampleRows cfg j.state.daemon r)) := by
      rw [ht.samples, samples_insertSamples]
      exact Table.setAll_subperm _ _
    have hold : ∀ l : List Sample, (l ++ tickRows r.nowWall.secs
        (sampleRows cfg j.state.daemon r)) = l ++ rowsOf cfg j.state.daemon (.tick r) := by
      simp [rowsOf, hgap]
    constructor
    · intro L k
      rw [state_step, step, parts_tick, ht.level]
      exact hcells L k
    · rw [state_step, step, ← hold]
      exact hrows.trans (hsamples.append (List.Subperm.refl _))
    · rw [state_step, step, parts_tick, ht.marker, ← hold]
      have hnewer := newerThan_subperm j.state.db.lastRollupTs hrows
      rw [newerThan_append] at hnewer
      have htick := hnewer.trans ((List.Subperm.refl _).append (newerThan_sublist _ _).subperm)
      refine ((List.Subperm.refl _).append htick).trans ?_
      rw [← List.append_assoc]
      exact hpending.append (List.Subperm.refl _)
    · rw [parts_tick]
      exact hmonthly
    · rw [parts_tick]
      exact hhourly

theorem countsOnce_rollup (h : j.CountsOnce tz hist) (f : Faults) :
    (j.step cfg tz (.rollup f)).CountsOnce tz hist := by
  rcases rollupCall_cases (Level.floor tz) f j.state.db with ⟨hcommit, he⟩ | ⟨hnot, he⟩
  · have hfetched := fetched_pending hcommit.2.1
    rw [step_commit hcommit, he]
    cases hlast : rollupMarker f j.state.db with
    | none =>
      -- a rebuild: the tables hold what was fetched and nothing else
      rw [hlast] at hfetched
      constructor
      · intro L k
        show ((j.state.db.folded _ _ _).level L).cell k = _
        rw [Db.level_folded, Table.cell_addAll, total_bucketed]
        simp only [Option.isNone_none, if_true, Table.cell_empty, zero_add, List.nil_append]
        rfl
      · exact h.samples
      · exact hfetched.trans h.samples
      · rfl
      · exact List.Subperm.refl _
    | some m =>
      have hmarker : j.state.db.lastRollupTs = some m := by
        unfold rollupMarker at hlast
        split at hlast
        · simp at hlast
        · exact hlast
      rw [hlast] at hfetched
      have hpending := h.pending
      rw [hmarker] at hpending
      constructor
      · intro L k
        show ((j.state.db.folded _ _ _).level L).cell k = _
        rw [Db.level_folded, Table.cell_addAll, total_bucketed, total_append]
        simp only [Option.isNone_some, Bool.false_eq_true, if_false, h.cells]
        rfl
      · exact h.samples
      · show (((j.parts .daily) ++ rollupRows f j.state.db) ++ _).Subperm hist
        rw [List.append_assoc]
        exact ((List.Subperm.refl _).append hfetched).trans hpending
      · show j.parts .monthly ++ _ = j.parts .daily ++ _
        rw [h.monthly]
      · exact h.hourly.append (List.Subperm.refl _)
  · have hj : j.step cfg tz (.rollup f) = j := by
      simp [Journal.step, hnot, Netmeter.step, he]
    rw [hj]
    exact h

theorem countsOnce_retain (h : j.CountsOnce tz hist) (now : WallClock) :
    (j.step cfg tz (.retain now)).CountsOnce tz hist := by
  constructor
  · intro L k
    cases L with
    | hourly => exact cell_filter_bucket _ (h.cells .hourly k)
    | daily => exact h.cells .daily k
    | monthly => exact h.cells .monthly k
  · exact (List.filter_sublist.subperm).trans h.samples
  · exact ((List.Subperm.refl _).append (newerThan_subperm _ List.filter_sublist.subperm)).trans
      h.pending
  · exact h.monthly
  · exact (List.filter_sublist.subperm).trans h.hourly

theorem countsOnce_step (cfg : Config) (h : j.CountsOnce tz hist) (e : Event) :
    (j.step cfg tz e).CountsOnce tz (hist ++ rowsOf cfg j.state.daemon e) := by
  cases e with
  | tick r => exact countsOnce_tick h r
  | rollup f => exact (List.append_nil hist).symm ▸ countsOnce_rollup h f
  | retain now => exact (List.append_nil hist).symm ▸ countsOnce_retain h now
  | restart =>
    exact (List.append_nil hist).symm ▸ ⟨h.cells, h.samples, h.pending, h.monthly, h.hourly⟩

theorem countsOnce_run (cfg : Config) (h : j.CountsOnce tz hist) (es : List Event) :
    ∃ j' : Journal, j'.state = es.foldl (step cfg tz) j.state ∧
      j'.CountsOnce tz (hist ++ written cfg tz j.state es) := by
  induction es generalizing j hist with
  | nil => exact ⟨j, rfl, (List.append_nil hist).symm ▸ h⟩
  | cons e es ih =>
    obtain ⟨j', hstate, hj⟩ := ih (countsOnce_step cfg h e)
    rw [state_step] at hstate hj
    rw [List.append_assoc] at hj
    exact ⟨j', hstate, hj⟩

/-- In every run, at any clock readings, with any statements failing, the daily and
monthly tables are the sums of rows that were written, the hourly one of some of
them, and no row is taken twice, nor again from what the next rollup would read. -/
theorem never_counted_twice (cfg : Config) (tz : TimeZone) (es : List Event) :
    let db := (es.foldl (step cfg tz) State.init).db
    ∃ kept hours : List Sample, hours.Subperm kept ∧
      (kept ++ newerThan db.lastRollupTs db.samples.rows).Subperm
        (written cfg tz State.init es) ∧
      ∀ k, db.hourly.cell k = total (inBucket (floorHour tz) k) hours ∧
        db.daily.cell k = total (inBucket (floorDay tz) k) kept ∧
        db.monthly.cell k = total (inBucket (floorMonth tz) k) kept := by
  obtain ⟨j, hstate, hj⟩ := countsOnce_run cfg (countsOnce_init tz) es
  have hstate' : es.foldl (step cfg tz) State.init = j.state := hstate.symm
  rw [hstate']
  refine ⟨j.parts .daily, j.parts .hourly, hj.hourly, hj.pending, fun k => ?_⟩
  exact ⟨hj.cells .hourly k, hj.cells .daily k, hj.monthly ▸ hj.cells .monthly k⟩

/-- Signed columns hold it, and the sum of both directions too. -/
def Counts.Fits (c : Counts) : Prop := c.Split ∧ c.total < 9223372036854775808

def Counts.totalHom : Counts →+ ℤ := Counts.rxHom + Counts.txHom

theorem Counts.Split.total_nonneg {c : Counts} (h : c.Split) : 0 ≤ c.total := by
  obtain ⟨hlan, hle, hlan', hle'⟩ := h
  unfold Counts.total
  omega

theorem split_zero : (0 : Counts).Split := ⟨le_rfl, le_rfl, le_rfl, le_rfl⟩

theorem split_rowsOf {s : State} {e : Event} (he : Bounded cfg s e) {x : Sample}
    (hx : x ∈ rowsOf cfg s.daemon e) : x.2.Split := by
  cases e with
  | tick r =>
    cases hgap : gapBranch cfg r with
    | true => simp [rowsOf, hgap] at hx
    | false =>
      simp only [rowsOf, hgap, Bool.false_eq_true, if_false] at hx
      obtain ⟨y, hy, rfl⟩ := List.mem_map.mp hx
      exact split_sampleRows he hy
  | rollup f => simp [rowsOf] at hx
  | retain now => simp [rowsOf] at hx
  | restart => simp [rowsOf] at hx

theorem split_written {s : State} {es : List Event}
    (h : Along (step cfg tz) (Bounded cfg) s es) : ∀ x ∈ written cfg tz s es, x.2.Split := by
  induction es generalizing s with
  | nil => simp [written]
  | cons e es ih =>
    obtain ⟨he, hes⟩ := h
    intro x hx
    rcases List.mem_append.mp hx with hx | hx
    · exact split_rowsOf he hx
    · exact ih hes x hx

theorem written_append (cfg : Config) (tz : TimeZone) (s : State) (es es' : List Event) :
    written cfg tz s (es ++ es') =
      written cfg tz s es ++ written cfg tz (es.foldl (step cfg tz) s) es' := by
  induction es generalizing s with
  | nil => rfl
  | cons e es ih => rw [List.cons_append, written, written, ih, List.append_assoc, List.foldl_cons]

theorem exists_part (h : j.CountsOnce tz hist) (src : Source) :
    ∃ (part : List Sample) (rekey : Key → Key), part.Subperm hist ∧
      (∀ k, (rekey k).name = k.name) ∧
      ∀ p, total p (j.state.db.table src).rows = total (fun k => p (rekey k)) part := by
  cases src with
  | samples => exact ⟨j.state.db.samples.rows, id, h.samples, fun k => rfl, fun p => rfl⟩
  | rollup L =>
    have hdaily : (j.parts .daily).Subperm hist :=
      ((List.sublist_append_left _ _).subperm).trans h.pending
    have hpart : (j.parts L).Subperm hist := by
      cases L with
      | hourly => exact h.hourly.trans hdaily
      | daily => exact hdaily
      | monthly => rwa [h.monthly]
    have htable : j.state.db.level L = Table.group (bucketed (Level.floor tz L) (j.parts L)) := by
      refine Table.ext_cell (fun k => ?_)
      rw [h.cells, Table.cell_group, total_bucketed]
      rfl
    refine ⟨j.parts L, fun k => ⟨Level.floor tz L k.ts, k.name⟩, hpart, fun k => rfl,
      fun p => ?_⟩
    rw [Db.table, htable, Table.total_group]
    exact total_rekey (fun k : Key => (⟨Level.floor tz L k.ts, k.name⟩ : Key)) p (j.parts L)

theorem fits_total {part whole : List Sample} (hpart : part.Subperm whole)
    (hsplit : ∀ x ∈ whole, x.2.Split)
    (hsum : (whole.map (fun x => x.2.total)).sum < 9223372036854775808) (p : Key → Bool) :
    (value (total p part)).Fits := by
  constructor
  · cases hc : total p part with
    | zero => exact split_zero
    | coe c =>
      exact total_closed (fun _ _ => Counts.Split.add)
        (fun x hx _ => hsplit x (hpart.subset hx)) hc
  · have hsub : (part.filter (fun x => p x.1)).Subperm whole :=
      List.filter_sublist.subperm.trans hpart
    have hle := sum_map_le_of_subperm (w := fun x : Sample => x.2.total) hsub
      (fun x hx => (hsplit x hx).total_nonneg)
    have htotal : (value (total p part)).total =
        ((part.filter (fun x => p x.1)).map (fun x => x.2.total)).sum :=
      map_value_total Counts.totalHom p part
    omega

/-- Until a run has written 2^63 bytes, no sum over rows of a table, nor over the rows
of a view of it, leaves the signed columns at any point of the run. -/
theorem sums_fit (cfg : Config) (tz : TimeZone) (es : List Event)
    (h : Along (step cfg tz) (Bounded cfg) State.init es)
    (hsum : ((written cfg tz State.init es).map (fun x => x.2.total)).sum < 9223372036854775808)
    {before : List Event} (hbefore : before <+: es) :
    let db := (before.foldl (step cfg tz) State.init).db
    (∀ src p, (value (total p (db.table src).rows)).Fits) ∧
      ∀ src lo hi iface v q,
        (value (total q (pairs (View.rows tz v (queryRange db src lo hi iface))))).Fits := by
  intro db
  obtain ⟨after, rfl⟩ := hbefore
  obtain ⟨hrun, -⟩ := along_append.mp h
  have hall := split_written h
  rw [written_append] at hall hsum
  have hsplit : ∀ x ∈ written cfg tz State.init before, x.2.Split :=
    fun x hx => hall x (List.mem_append_left _ hx)
  have hlater := sum_map_le_of_subperm (w := fun x : Sample => x.2.total)
    (List.sublist_append_left (written cfg tz State.init before) _).subperm
    (fun x hx => (hall x hx).total_nonneg)
  obtain ⟨j, hstate, hj⟩ := countsOnce_run cfg (countsOnce_init tz) before
  have hdb : db = j.state.db := congrArg State.db hstate.symm
  have htable : ∀ src p, (value (total p (db.table src).rows)).Fits := by
    intro src p
    obtain ⟨part, rekey, hpart, -, htotal⟩ := exists_part hj src
    rw [hdb, htotal]
    exact fits_total hpart hsplit (lt_of_le_of_lt hlater hsum) _
  refine ⟨htable, fun src lo hi iface v q => ?_⟩
  rw [total_view, total_queryRange]
  exact htable src _

theorem sums_fit_lanRun :
    let db := (lanRun.foldl (step {} .utc) State.init).db
    (∀ src p, (value (total p (db.table src).rows)).Fits) ∧
      ∀ src lo hi iface v q,
        (value (total q (pairs (View.rows .utc v (queryRange db src lo hi iface))))).Fits :=
  sums_fit {} .utc lanRun
    ⟨fun _ => defaultBound_lt, fun _ => defaultBound_lt, trivial, trivial, trivial, trivial⟩
    (by decide +kernel) (List.prefix_refl lanRun)

end Netmeter
