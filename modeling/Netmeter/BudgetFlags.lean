import Netmeter.UserAgent
set_option autoImplicit false

/-!
Histories of budget checks: the flags of a window record exactly the shares its
checks have seen, and each flag is logged once.
-/

namespace Netmeter
open Transaction Keyed

def budgetWarning (adv : String) (used budget : ℤ) (pct : ℕ) : Notice :=
  ⟨pct, s!"NetMeter: {pct}% of {adv} budget used ({used}/{budget} bytes)"⟩

def checkBudgetLogged (cfg : Config) (tz : TimeZone) (now : ℤ) (db : Db) : Db × List Notice :=
  match cfg.effectiveBudget with
  | none => (db, [])
  | some (period, gb) =>
    let key := budgetKey tz now period
    let used := checkBudgetUsed cfg tz now period db
    let budget := budgetBytes gb
    if budget ≤ 0 then (db, [])
    else
      let warn := budgetWarning (periodAdverb period) used budget
      let frac : ℚ := used / budget
      -- both flags are read before either is written
      let crossed := (db.budgetEvents.lookup key).getD (0,0)
      let at80 :=
        if 4 / 5 ≤ frac ∧ crossed.1 = 0 then
          (db.budgetEvents.upsert key (1,0) (fun c => (1,c.2)), [warn 80])
        else (db.budgetEvents, [])
      let at100 :=
        if 1 ≤ frac ∧ crossed.2 = 0 then (at80.1.set key (1,1), at80.2 ++ [warn 100]) else at80
      ({ db with budgetEvents := at100.1 }, at100.2)

theorem checkBudgetLogged_fst (cfg : Config) (tz : TimeZone) (now : ℤ) (db : Db) :
    (checkBudgetLogged cfg tz now db).1 = checkBudget cfg tz now db := by
  unfold checkBudgetLogged checkBudget
  cases cfg.effectiveBudget with
  | none => rfl
  | some b =>
    dsimp only
    split_ifs <;> rfl

section
variable {cfg : Config} {period : String} {gb : ℚ}

theorem checkBudgetLogged_snd (hbudget : cfg.effectiveBudget = some (period, gb))
    (hpos : 0 < budgetBytes gb) (tz : TimeZone) (now : ℤ) (db : Db) :
    (checkBudgetLogged cfg tz now db).2 =
      (thresholds.filter (fun T =>
        T.Reached (budgetBytes gb) (checkBudgetUsed cfg tz now period db) ∧
          T.flag (db.crossed (budgetKey tz now period)) = 0)).map (fun T =>
        budgetWarning (periodAdverb period) (checkBudgetUsed cfg tz now period db)
          (budgetBytes gb) T.pct) := by
  obtain ⟨h80, h100⟩ := reached_iff hpos (checkBudgetUsed cfg tz now period db)
  have hread : ∀ key, (db.budgetEvents.lookup key).getD (0,0) = db.crossed key := fun _ => rfl
  unfold checkBudgetLogged
  rw [hbudget]
  simp only [not_le.mpr hpos, if_false, h80, h100, hread]
  generalize db.crossed (budgetKey tz now period) = c
  unfold thresholds
  by_cases hmost : Threshold.eighty.Reached (budgetBytes gb)
        (checkBudgetUsed cfg tz now period db) ∧ c.1 = 0 <;>
    by_cases hfull : Threshold.hundred.Reached (budgetBytes gb)
        (checkBudgetUsed cfg tz now period db) ∧ c.2 = 0 <;>
    simp [hmost, hfull, Threshold.flag, Threshold.pct]

theorem checkBudgetLogged_of_flagged (hbudget : cfg.effectiveBudget = some (period, gb))
    (hpos : 0 < budgetBytes gb) {tz : TimeZone} {now : ℤ} {db : Db}
    (h : ∀ T : Threshold, T.Reached (budgetBytes gb) (checkBudgetUsed cfg tz now period db) →
      T.flag (db.crossed (budgetKey tz now period)) = 1) :
    checkBudgetLogged cfg tz now db = (db, []) := by
  obtain ⟨h80, h100⟩ := reached_iff hpos (checkBudgetUsed cfg tz now period db)
  have hread : ∀ key, (db.budgetEvents.lookup key).getD (0,0) = db.crossed key := fun _ => rfl
  have hmost : ¬ (Threshold.eighty.Reached (budgetBytes gb) (checkBudgetUsed cfg tz now period db) ∧
      (db.crossed (budgetKey tz now period)).1 = 0) :=
    fun ⟨hr, hz⟩ => Int.zero_ne_one (hz.symm.trans (h .eighty hr))
  have hfull : ¬ (Threshold.hundred.Reached (budgetBytes gb)
      (checkBudgetUsed cfg tz now period db) ∧ (db.crossed (budgetKey tz now period)).2 = 0) :=
    fun ⟨hr, hz⟩ => Int.zero_ne_one (hz.symm.trans (h .hundred hr))
  unfold checkBudgetLogged
  rw [hbudget]
  simp only [not_le.mpr hpos, if_false, h80, h100, hread, hmost, hfull]

theorem lookup_checkBudget_ne (hbudget : cfg.effectiveBudget = some (period, gb)) {tz : TimeZone}
    {now : ℤ} {key : String} (h : key ≠ budgetKey tz now period) (db : Db) :
    (checkBudget cfg tz now db).budgetEvents.lookup key = db.budgetEvents.lookup key := by
  unfold checkBudget
  rw [hbudget]
  dsimp only
  split_ifs <;> simp [Table.lookup_set, Table.lookup_upsert, h]

/-- A call reads the clock and the samples that pruning has left. -/
structure BudgetCall where
  now : ℤ
  samples : Table Key Counts

namespace BudgetCall

def used (cfg : Config) (tz : TimeZone) (period : String) (c : BudgetCall) : ℤ :=
  checkBudgetUsed cfg tz c.now period { samples := c.samples }

/-- The call is in the window of `key` and sees the threshold's share of the budget. -/
def Reaches (cfg : Config) (tz : TimeZone) (period : String) (budget : ℤ) (key : String)
    (T : Threshold) (c : BudgetCall) : Prop :=
  key = budgetKey tz c.now period ∧ T.Reached budget (c.used cfg tz period)

instance (tz : TimeZone) (budget : ℤ) (key : String) (T : Threshold) (c : BudgetCall) :
    Decidable (c.Reaches cfg tz period budget key T) :=
  inferInstanceAs (Decidable (_ ∧ _))

end BudgetCall

structure FlagRun where
  db : Db := Db.init
  log : List (ℤ × Notice) := []

namespace FlagRun

def call (cfg : Config) (tz : TimeZone) (s : FlagRun) (c : BudgetCall) : FlagRun :=
  let out := checkBudgetLogged cfg tz c.now { s.db with samples := c.samples }
  { db := out.1, log := s.log ++ out.2.map (fun w => (c.now,w)) }

/-- How often the threshold was warned of in the window of `key`. -/
def warned (tz : TimeZone) (period : String) (s : FlagRun) (key : String) (T : Threshold) : ℕ :=
  s.log.countP (fun e => key = budgetKey tz e.1 period ∧ e.2.pct = T.pct)

/-- The flags are bits and count the warnings. -/
structure Recorded (tz : TimeZone) (period : String) (s : FlagRun) : Prop where
  bits : ∀ key T, Bit (Threshold.flag T (s.db.crossed key))
  counted : ∀ key T, (s.warned tz period key T : ℤ) = T.flag (s.db.crossed key)

theorem recorded_init (tz : TimeZone) (period : String) : Recorded tz period {} where
  bits key T := by cases T <;> exact .inl rfl
  counted key T := by cases T <;> rfl

theorem flag_call (hbudget : cfg.effectiveBudget = some (period, gb)) (hpos : 0 < budgetBytes gb)
    (tz : TimeZone) {s : FlagRun} (hs : ∀ key T, Bit (Threshold.flag T (s.db.crossed key)))
    (c : BudgetCall) (key : String) (T : Threshold) :
    Bit (T.flag ((s.call cfg tz c).db.crossed key)) ∧
      (T.flag ((s.call cfg tz c).db.crossed key) = 1 ↔
        T.flag (s.db.crossed key) = 1 ∨ c.Reaches cfg tz period (budgetBytes gb) key T) := by
  have hstep := flag_checkBudget hbudget hpos tz c.now { s.db with samples := c.samples } hs key T
  rwa [← checkBudgetLogged_fst] at hstep

theorem log_call (hbudget : cfg.effectiveBudget = some (period, gb)) (hpos : 0 < budgetBytes gb)
    (tz : TimeZone) (s : FlagRun) (c : BudgetCall) :
    (s.call cfg tz c).log = s.log ++ (thresholds.filter (fun T =>
      T.Reached (budgetBytes gb) (c.used cfg tz period) ∧
        T.flag (s.db.crossed (budgetKey tz c.now period)) = 0)).map (fun T =>
      (c.now, budgetWarning (periodAdverb period) (c.used cfg tz period) (budgetBytes gb)
        T.pct)) := by
  have hwarn := checkBudgetLogged_snd hbudget hpos tz c.now { s.db with samples := c.samples }
  show s.log ++ ((checkBudgetLogged cfg tz c.now { s.db with samples := c.samples }).2).map _ = _
  rw [hwarn, List.map_map]
  rfl

theorem warned_call (hbudget : cfg.effectiveBudget = some (period, gb))
    (hpos : 0 < budgetBytes gb) (tz : TimeZone) (s : FlagRun) (c : BudgetCall) (key : String)
    (T : Threshold) : (s.call cfg tz c).warned tz period key T = s.warned tz period key T +
      if c.Reaches cfg tz period (budgetBytes gb) key T ∧ T.flag (s.db.crossed key) = 0
        then 1 else 0 := by
  unfold warned BudgetCall.Reaches
  rw [log_call hbudget hpos, List.countP_append, List.countP_map, List.countP_filter]
  by_cases hkey : key = budgetKey tz c.now period
  · subst hkey
    cases T <;> simp [thresholds, List.countP_cons, budgetWarning, Threshold.pct]
  · simp [hkey]

theorem recorded_call (hbudget : cfg.effectiveBudget = some (period, gb))
    (hpos : 0 < budgetBytes gb) (tz : TimeZone) (s : FlagRun) (c : BudgetCall)
    (hs : s.Recorded tz period) : (s.call cfg tz c).Recorded tz period where
  bits key T := (flag_call hbudget hpos tz hs.bits c key T).1
  counted key T := by
    obtain ⟨hbit, hiff⟩ := flag_call hbudget hpos tz hs.bits c key T
    have hbefore := hs.bits key T
    rw [warned_call hbudget hpos, Nat.cast_add, hs.counted]
    unfold Bit at hbit hbefore
    by_cases hreach : c.Reaches cfg tz period (budgetBytes gb) key T
    · simp only [hreach, or_true, iff_true, true_and] at hiff ⊢
      rcases hbefore with hz | hone
      · simp [hz, hiff]
      · simp [hone, hiff]
    · simp only [hreach, or_false, false_and, if_false, Nat.cast_zero, add_zero] at hiff ⊢
      omega

theorem reaches_eighty {tz : TimeZone} {key : String} {c : BudgetCall}
    (hpos : 0 < budgetBytes gb)
    (h : c.Reaches cfg tz period (budgetBytes gb) key .hundred) :
    c.Reaches cfg tz period (budgetBytes gb) key .eighty := by
  obtain ⟨hkey, hreached⟩ := h
  refine ⟨hkey, ?_⟩
  simp only [Threshold.Reached, Threshold.pct] at hreached ⊢
  push_cast at hreached ⊢
  omega

theorem call_call (hbudget : cfg.effectiveBudget = some (period, gb)) (hpos : 0 < budgetBytes gb)
    (tz : TimeZone) {s : FlagRun} (hs : s.Recorded tz period) (c : BudgetCall) :
    (s.call cfg tz c).call cfg tz c = s.call cfg tz c := by
  have hsamples : (s.call cfg tz c).db.samples = c.samples := by
    show (checkBudgetLogged cfg tz c.now _).1.samples = _
    rw [checkBudgetLogged_fst]
    obtain ⟨events, hdb⟩ := checkBudget_eq cfg tz c.now { s.db with samples := c.samples }
    rw [hdb]
  have hsame : { (s.call cfg tz c).db with samples := c.samples } = (s.call cfg tz c).db := by
    rw [← hsamples]
  have hquiet : checkBudgetLogged cfg tz c.now (s.call cfg tz c).db =
      ((s.call cfg tz c).db, []) := by
    refine checkBudgetLogged_of_flagged hbudget hpos (fun T hreached => ?_)
    rw [← hsame] at hreached
    exact (flag_call hbudget hpos tz hs.bits c _ T).2.mpr (.inr ⟨rfl, hreached⟩)
  generalize s.call cfg tz c = s' at hsame hquiet
  show FlagRun.mk _ _ = s'
  rw [hsame, hquiet]
  simp

end FlagRun

/-- After any history of checks a flag of a window is set exactly when a check in
that window saw its share of the budget, and was warned of exactly once then.
Another check clears no flag and leaves every other window's row alone; made
twice it does no more than once. -/
theorem flags_record_crossings (hbudget : cfg.effectiveBudget = some (period, gb))
    (hpos : 0 < budgetBytes gb) (tz : TimeZone) (calls : List BudgetCall) :
    let s := calls.foldl (FlagRun.call cfg tz) {}
    (∀ key T, Bit (Threshold.flag T (s.db.crossed key)) ∧
      (T.flag (s.db.crossed key) = 1 ↔
        ∃ c ∈ calls, c.Reaches cfg tz period (budgetBytes gb) key T)) ∧
    (∀ key, (s.db.crossed key).2 = 1 → (s.db.crossed key).1 = 1) ∧
    (∀ key T, s.warned tz period key T ≤ 1 ∧
      (s.warned tz period key T = 1 ↔ T.flag (s.db.crossed key) = 1)) ∧
    ∀ c : BudgetCall,
      (∀ key T, Threshold.flag T (s.db.crossed key) = 1 →
        T.flag ((s.call cfg tz c).db.crossed key) = 1) ∧
      (∀ key, key ≠ budgetKey tz c.now period →
        (s.call cfg tz c).db.budgetEvents.lookup key = s.db.budgetEvents.lookup key) ∧
      (s.call cfg tz c).call cfg tz c = s.call cfg tz c := by
  intro s
  have hrec : s.Recorded tz period := invariant (FlagRun.Recorded tz period)
    (fun s c hs => FlagRun.recorded_call hbudget hpos tz s c hs)
    (FlagRun.recorded_init tz period) calls
  have hflag : ∀ key T, T.flag (s.db.crossed key) = 1 ↔
      ∃ c ∈ calls, c.Reaches cfg tz period (budgetBytes gb) key T := by
    intro key T
    have hclear : ¬ T.flag (Db.init.crossed key) = 1 := by
      cases T <;> exact Int.zero_ne_one
    have hlatch := latch (FlagRun.Recorded tz period)
      (fun s => T.flag (s.db.crossed key) = 1)
      (BudgetCall.Reaches cfg tz period (budgetBytes gb) key T)
      (fun s c hs => FlagRun.recorded_call hbudget hpos tz s c hs)
      (fun s c hs => (FlagRun.flag_call hbudget hpos tz hs.bits c key T).2)
      (FlagRun.recorded_init tz period) calls
    exact hlatch.trans (or_iff_right hclear)
  refine ⟨fun key T => ⟨hrec.bits key T, hflag key T⟩, fun key h100 => ?_, fun key T => ?_,
    fun c => ⟨fun key T h => ?_, fun key hne => ?_, FlagRun.call_call hbudget hpos tz hrec c⟩⟩
  · obtain ⟨c, hc, hreach⟩ := (hflag key .hundred).mp h100
    exact (hflag key .eighty).mpr ⟨c, hc, FlagRun.reaches_eighty hpos hreach⟩
  · have hbit := hrec.bits key T
    have hcount := hrec.counted key T
    unfold Bit at hbit
    omega
  · exact (FlagRun.flag_call hbudget hpos tz hrec.bits c key T).2.mpr (.inl h)
  · show (checkBudgetLogged cfg tz c.now _).1.budgetEvents.lookup key = _
    rw [checkBudgetLogged_fst]
    exact lookup_checkBudget_ne hbudget hne _

end

def prunedDay : List BudgetCall :=
  [⟨1800000005, (∅ : Table Key Counts).set ⟨1800000000,"eth0"⟩ ⟨1073741824, 0, 0, 0⟩⟩,
    ⟨1800000010, ∅⟩]

theorem flags_record_crossings_prunedDay :
    Threshold.hundred.flag ((prunedDay.foldl
      (FlagRun.call { budgetGb := 1, budgetPeriod := "day" } .utc) {}).db.crossed
      "day:2027-01-15") = 1 ↔
    ∃ c ∈ prunedDay, c.Reaches { budgetGb := 1, budgetPeriod := "day" } .utc "day"
      (budgetBytes 1) "day:2027-01-15" .hundred :=
  ((flags_record_crossings (by decide +kernel) (by decide +kernel) .utc prunedDay).1
    "day:2027-01-15" .hundred).2

example : (prunedDay.foldl (FlagRun.call { budgetGb := 1, budgetPeriod := "day" } .utc)
    {}).db.budgetEvents.rows = [("day:2027-01-15", (1, 1))] := by
  decide +kernel

end Netmeter
