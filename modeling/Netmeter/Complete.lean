import Netmeter.Anchor
import Netmeter.RollupRuns
set_option autoImplicit false

/-!
Whole buckets: what a printed row of `show` adds up, against all that was ever
recorded in its bucket.
-/

namespace Netmeter
open Keyed Floor

/-- All that was rolled into a table: the surviving samples, and the past that
retention took from `samples` or an import brought. -/
def rolledInto (past : Level → Table Key Counts) (db : Db) (L : Level) : Table Key Counts :=
  (past L).addAll (bucketed (L.floor .utc) db.samples.rows)

/-- Every sample is in its buckets; retention has cut the hourly table alone. -/
structure CaughtUp (past : Level → Table Key Counts) (cut : ℤ) (db : Db) : Prop where
  hourly : db.hourly = (rolledInto past db .hourly).filter (fun k => cut ≤ k.ts)
  daily : db.daily = rolledInto past db .daily
  monthly : db.monthly = rolledInto past db .monthly

/-- The printed row a bucket of the rollup tables is counted in. -/
def Period.rowStart (period : Period) (ts : ℤ) : ℤ :=
  if period = .week then floorWeek .utc ts else ts

/-- All recorded data of the row `b` up to now: the buckets of the period, for
weeks the days. -/
def recorded (past : Level → Table Key Counts) (db : Db) (period : Period) (now : ℤ)
    (iface : Option String) (b : ℤ) : Counts :=
  value (total (fun k => matchesIface iface k && (period.rowStart k.ts = b && k.ts ≤ now))
    (rolledInto past db period.level).rows)

variable {past : Level → Table Key Counts} {cut : ℤ} {db : Db}

theorem forall_showRows_iff (period : Period) (now : ℤ) (iface : Option String) (db : Db)
    (f : ℤ → Counts) :
    (∀ r ∈ showRows .utc period now iface db, r.toCounts = f r.ts) ↔
      ∀ x ∈ shownInput period now iface db, ∀ b,
        shownStart .utc period (shownTable period now iface db) x.1.ts = b →
        value (total (fun k => shownStart .utc period (shownTable period now iface db) k.ts = b)
          (shownInput period now iface db)) = f b := by
  generalize hsrc : shownTable period now iface db = src
  have hpairs := pairs_showRows .utc period now iface db
  rw [hsrc] at hpairs
  have hcell : ∀ b c, (b,c) ∈ pairs (showRows .utc period now iface db) ↔
      total (fun k => shownStart .utc period src k.ts = b) (shownInput period now iface db) =
        (c : WithZero Counts) := by
    intro b c
    rw [hpairs, ← Table.cell_eq_coe, Table.cell_group,
      total_rekey (fun k : Key => shownStart .utc period src k.ts)]
  constructor
  · intro h x hx b hb
    obtain ⟨c, hc⟩ := WithZero.ne_zero_iff_exists.mp (total_ne_zero
      (p := fun k : Key => decide (shownStart .utc period src k.ts = b)) |>.mpr
        ⟨x, hx, decide_eq_true hb⟩)
    obtain ⟨r, hr, he⟩ := List.mem_map.mp ((hcell b c).mpr hc.symm)
    obtain ⟨rfl, rfl⟩ := Prod.mk.inj he
    rw [← hc, value_coe]
    exact h r hr
  · intro h r hr
    have hc := (hcell r.ts r.toCounts).mp (List.mem_map_of_mem hr)
    obtain ⟨x, hx, hb⟩ := total_ne_zero.mp (hc ▸ WithZero.coe_ne_zero)
    have hsum := h x hx r.ts (of_decide_eq_true hb)
    rw [hc] at hsum
    exact hsum

theorem total_shownInput (p : Key → Bool) (period : Period) (now : ℤ) (iface : Option String)
    (db : Db) : total p (shownInput period now iface db) =
      total (fun k => inView period now iface k && p k)
        (db.table (shownTable period now iface db)).rows :=
  total_filter p (fun k => inView period now iface k) _

theorem Counts.eq_add_iff (a d : Counts) : a = a + d ↔ d = 0 := by
  simp [Counts.ext_iff]

def keptRow (cut : ℤ) (L : Level) (k : Key) : Bool := L ≠ .hourly || cut ≤ k.ts

theorem level_eq (h : CaughtUp past cut db) (L : Level) :
    db.level L = (rolledInto past db L).filter (keptRow cut L) := by
  have hall : ∀ t : Table Key Counts, t.filter (fun _ => true) = t := fun t =>
    Table.ext (by simp)
  cases L with
  | hourly => exact h.hourly
  | daily => exact h.daily.trans (hall _).symm
  | monthly => exact h.monthly.trans (hall _).symm

theorem inView_iff {period : Period} {now : ℤ} {iface : Option String} {k : Key} :
    inView period now iface k = true ↔
      now - period.span ≤ k.ts ∧ k.ts ≤ now ∧ matchesIface iface k = true := by
  simp [inView, and_assoc]

theorem shown_rolled (h : CaughtUp past cut db) {period : Period} (hweek : period ≠ .week)
    {now : ℤ} {iface : Option String}
    (hsrc : shownTable period now iface db = .rollup period.level) {x : Sample}
    (hx : x ∈ shownInput period now iface db) :
    value (total (fun k => k.ts = x.1.ts) (shownInput period now iface db)) =
      recorded past db period now iface x.1.ts := by
  have hrow := List.mem_of_mem_filter hx
  have hview := inView_iff.mp (List.mem_filter.mp hx).2
  rw [hsrc] at hrow
  change x ∈ (db.level period.level).rows at hrow
  rw [level_eq h] at hrow
  have hkept : keptRow cut period.level x.1 = true := (List.mem_filter.mp hrow).2
  rw [total_shownInput, hsrc]
  unfold recorded Db.table
  dsimp only
  rw [level_eq h, Table.rows_filter, total_filter _ (keptRow cut period.level)]
  congr 1
  refine total_congr (fun y _ => ?_)
  unfold Period.rowStart
  rw [if_neg hweek]
  by_cases hts : y.1.ts = x.1.ts
  · have hky : keptRow cut period.level y.1 = true := by
      rw [← hkept]
      simp [keptRow, hts]
    simp only [hky, hts, inView, decide_true, Bool.true_and, Bool.and_true]
    simp [hview.1, hview.2.1]
  · simp [hts]

/-- The days of the oldest week of the week view that lie before the view. -/
def cutDays (db : Db) (now : ℤ) (iface : Option String) : Counts :=
  let lo := now - Period.week.span
  value (total (fun k => matchesIface iface k &&
    (floorWeek .utc k.ts = floorWeek .utc lo && k.ts < lo)) db.daily.rows)

/-- What the row `b` of the raw-sample view misses: the past, and the samples
outside the view. -/
def outsideView (past : Level → Table Key Counts) (db : Db) (period : Period) (now : ℤ)
    (iface : Option String) (b : ℤ) : Counts :=
  value (total (fun k => matchesIface iface k && (period.rowStart k.ts = b && k.ts ≤ now))
    (past period.level).rows) +
  value (total (fun k => (matchesIface iface k &&
      (period.rowStart (period.sampleFloor .utc k.ts) = b && period.sampleFloor .utc k.ts ≤ now)) &&
      !(decide (now - period.span ≤ k.ts) && decide (k.ts ≤ now))) db.samples.rows)

theorem shown_week (h : CaughtUp past cut db) {now : ℤ} {iface : Option String}
    (hsrc : shownTable .week now iface db = .rollup .daily) (b : ℤ) :
    recorded past db .week now iface b =
      value (total (fun k => floorWeek .utc k.ts = b) (shownInput .week now iface db)) +
        value (total (fun k => matchesIface iface k &&
          (floorWeek .utc k.ts = b && k.ts < now - Period.week.span)) db.daily.rows) := by
  have hspan := Period.week.span_pos
  rw [total_shownInput, hsrc]
  unfold recorded
  rw [total_split _ (fun k : Key => decide (now - Period.week.span ≤ k.ts)), value_add]
  change value (total _ (rolledInto past db .daily).rows) +
    value (total _ (rolledInto past db .daily).rows) = _
  rw [← h.daily]
  congr 2
  · refine total_congr (fun y _ => ?_)
    simp only [Period.rowStart, if_true, inView, Int.lt_add_one_iff]
    grind
  · refine total_congr (fun y _ => ?_)
    simp only [Period.rowStart, if_true]
    grind

theorem total_later_week {lo ts : ℤ} (hlo : lo ≤ ts)
    (hlater : floorWeek .utc ts ≠ floorWeek .utc lo) (iface : Option String)
    (rows : List (Key × Counts)) : total (fun k => matchesIface iface k &&
      (floorWeek .utc k.ts = floorWeek .utc ts && k.ts < lo)) rows = 0 := by
  refine total_eq_zero.mpr (fun y _ => ?_)
  by_contra hy
  simp only [Bool.not_eq_false, Bool.and_eq_true, decide_eq_true_eq] at hy
  obtain ⟨-, hweek, hts⟩ := hy
  have hle := isFloor_week.mono hlo
  have hge := isFloor_week.mono hts.le
  exact hlater (by omega)

theorem shown_samples (period : Period) {now : ℤ} {iface : Option String}
    (hsrc : shownTable period now iface db = .samples) (b : ℤ) :
    recorded past db period now iface b =
      value (total (fun k => shownStart .utc period .samples k.ts = b)
        (shownInput period now iface db)) + outsideView past db period now iface b := by
  have hsamples : total (fun k => matchesIface iface k && (period.rowStart k.ts = b && k.ts ≤ now))
      (bucketed (period.level.floor .utc) db.samples.rows) =
      total (fun k => shownStart .utc period .samples k.ts = b)
        (shownInput period now iface db) +
      total (fun k => (matchesIface iface k &&
        (period.rowStart (period.sampleFloor .utc k.ts) = b &&
          period.sampleFloor .utc k.ts ≤ now)) &&
        !(decide (now - period.span ≤ k.ts) && decide (k.ts ≤ now))) db.samples.rows := by
    unfold bucketed
    rw [total_rekey (fun k : Key => (⟨period.level.floor .utc k.ts, k.name⟩ : Key)), ← sampleFloor_eq,
      total_split _ (fun k : Key => decide (now - period.span ≤ k.ts) && decide (k.ts ≤ now)),
      total_shownInput, hsrc]
    congr 1
    -- a sample in the view stands in a bucket that starts by now
    refine total_congr (fun y _ => ?_)
    have hle := (isFloor_sampleFloor period).le y.1.ts
    have hmatch : matchesIface iface ⟨period.sampleFloor .utc y.1.ts, y.1.name⟩ =
        matchesIface iface y.1 := by cases iface <;> rfl
    rw [hmatch]
    simp only [inView, shownStart, bucketStart, Period.rowStart, Int.lt_add_one_iff]
    grind
  unfold recorded rolledInto outsideView
  rw [Table.total_addAll, value_add, hsamples, value_add]
  abel

theorem mem_shown {period : Period} {now : ℤ} {iface : Option String} {src : Source}
    (hsrc : shownTable period now iface db = src) {x : Sample} :
    x ∈ shownInput period now iface db ↔
      x ∈ (db.table src).rows ∧ inView period now iface x.1 = true := by
  subst hsrc
  exact List.mem_filter

theorem complete_samples_iff (past : Level → Table Key Counts) {period : Period} {now : ℤ}
    {iface : Option String} (hsrc : shownTable period now iface db = .samples) :
    (∀ r ∈ showRows .utc period now iface db,
      r.toCounts = recorded past db period now iface r.ts) ↔
    ∀ x ∈ db.samples.rows, inView period now iface x.1 = true →
      outsideView past db period now iface
        (period.rowStart (period.sampleFloor .utc x.1.ts)) = 0 := by
  rw [forall_showRows_iff, hsrc]
  constructor
  · intro hall x hx hview
    have hrow := hall x ((mem_shown hsrc).mpr ⟨hx, hview⟩) _ rfl
    rw [shown_samples period hsrc] at hrow
    exact (Counts.eq_add_iff _ _).mp hrow
  · rintro hall x hx b rfl
    obtain ⟨hrow, hview⟩ := (mem_shown hsrc).mp hx
    rw [shown_samples period hsrc, Counts.eq_add_iff]
    exact hall x hrow hview

theorem complete_week_iff (h : CaughtUp past cut db) {now : ℤ} {iface : Option String}
    (hsrc : shownTable .week now iface db = .rollup .daily) :
    (∀ r ∈ showRows .utc .week now iface db,
      r.toCounts = recorded past db .week now iface r.ts) ↔
    ((∃ x ∈ db.daily.rows, inView .week now iface x.1 = true ∧
        floorWeek .utc x.1.ts = floorWeek .utc (now - Period.week.span)) →
      cutDays db now iface = 0) := by
  have hmiss : ∀ b, value (total (fun k => shownStart .utc .week (.rollup .daily) k.ts = b)
      (shownInput .week now iface db)) = recorded past db .week now iface b ↔
      value (total (fun k => matchesIface iface k &&
        (floorWeek .utc k.ts = b && k.ts < now - Period.week.span)) db.daily.rows) = 0 := by
    intro b
    rw [shown_week h hsrc]
    exact Counts.eq_add_iff _ _
  rw [forall_showRows_iff, hsrc]
  simp only [hmiss]
  constructor
  · rintro hall ⟨x, hx, hview, hx'⟩
    exact hall x ((mem_shown hsrc).mpr ⟨hx, hview⟩) _ hx'
  · rintro hcut x hx b rfl
    obtain ⟨hrow, hview⟩ := (mem_shown hsrc).mp hx
    have hlo := (inView_iff.mp hview).1
    by_cases hfirst : floorWeek .utc x.1.ts = floorWeek .utc (now - Period.week.span)
    · show value (total (fun k => matchesIface iface k &&
        (floorWeek .utc k.ts = floorWeek .utc x.1.ts && k.ts < now - Period.week.span))
        db.daily.rows) = 0
      rw [hfirst]
      exact hcut ⟨x, hrow, hview, hfirst⟩
    · exact congrArg value (total_later_week hlo hfirst iface db.daily.rows)

theorem complete_rolled (h : CaughtUp past cut db) {period : Period} (hweek : period ≠ .week)
    {now : ℤ} {iface : Option String}
    (hsrc : shownTable period now iface db = .rollup period.level) :
    ∀ r ∈ showRows .utc period now iface db,
      r.toCounts = recorded past db period now iface r.ts := by
  rw [forall_showRows_iff, hsrc]
  rintro x hx b rfl
  have hstart : ∀ ts, shownStart .utc period (.rollup period.level) ts = ts := fun ts => by
    simp [shownStart, hweek, bucketStart]
  simp only [hstart]
  exact shown_rolled h hweek hsrc hx

/-- What `show` prints is complete exactly when the oldest week had no traffic on
its days before the view and the rows of the raw-sample view miss nothing. -/
theorem show_rows_complete_iff (past : Level → Table Key Counts) (cut : ℤ) (db : Db)
    (period : Period) (now : ℤ) (iface : Option String) (h : CaughtUp past cut db) :
    (∀ r ∈ showRows .utc period now iface db,
      r.toCounts = recorded past db period now iface r.ts) ↔
    (period = .week → shownTable period now iface db = .rollup .daily →
      (∃ x ∈ db.daily.rows, inView .week now iface x.1 = true ∧
        floorWeek .utc x.1.ts = floorWeek .utc (now - Period.week.span)) →
      cutDays db now iface = 0) ∧
    (shownTable period now iface db = .samples →
      ∀ x ∈ db.samples.rows, inView period now iface x.1 = true →
        outsideView past db period now iface
          (period.rowStart (period.sampleFloor .utc x.1.ts)) = 0) := by
  rcases shownTable_or period now iface db with hsrc | hsrc
  · rw [complete_samples_iff past hsrc, hsrc]
    simp only [reduceCtorEq, false_implies, implies_true, true_and, true_implies]
  · by_cases hweek : period = .week
    · subst hweek
      have hdaily : shownTable .week now iface db = .rollup .daily := hsrc
      rw [complete_week_iff h hdaily, hdaily]
      simp only [reduceCtorEq, false_implies, and_true, true_implies]
    · simp only [hweek, false_implies, true_and, hsrc, reduceCtorEq, iff_true]
      exact complete_rolled h hweek hsrc

/-- Monday 8 and Thursday 11 June 2026, long since pruned from `samples`. -/
def juneDays : Level → Table Key Counts
  | .daily => (Table.set ∅ ⟨1780876800,"eth0"⟩ ⟨1000, 100, 0, 0⟩).set ⟨1781136000,"eth0"⟩
      ⟨10, 1, 0, 0⟩
  | _ => ∅

def juneDb : Db := { Db.init with daily := juneDays .daily }

/-- On Wednesday 2 September the twelve weeks start on a Wednesday: the oldest
row has lost its Monday. -/
theorem not_show_rows_complete :
    ¬ ∀ (past : Level → Table Key Counts) (cut : ℤ) (db : Db) (period : Period) (now : ℤ)
      (iface : Option String), CaughtUp past cut db →
      ∀ r ∈ showRows .utc period now iface db,
        r.toCounts = recorded past db period now iface r.ts := by
  intro h
  have hd := h juneDays 0 juneDb .week 1788350400 none ⟨rfl, rfl, rfl⟩
    ⟨⟨10, 1, 0, 0⟩, 1780876800, "_all"⟩ (by decide +kernel)
  exact absurd hd (by decide +kernel)

theorem show_rows_complete_iff_monday :
    showRows .utc .week 1788134400 none juneDb ≠ [] ∧
      ∀ r ∈ showRows .utc .week 1788134400 none juneDb,
        r.toCounts = recorded juneDays juneDb .week 1788134400 none r.ts :=
  ⟨by decide +kernel,
    (show_rows_complete_iff juneDays 0 juneDb .week 1788134400 none ⟨rfl, rfl, rfl⟩).mpr
      ⟨by decide +kernel, by decide +kernel⟩⟩

end Netmeter
