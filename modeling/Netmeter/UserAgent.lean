import Netmeter.BudgetKeys
import Netmeter.Lib.Transaction
set_option autoImplicit false

/-!
The user agent of `user_agent.rs` beside the daemon's budget check: flags in
`budget_events`, sentinel files in the agent's cache directory, and the
notifications between them.
-/

namespace Netmeter
open Transaction Text

def periodAdverb (period : String) : String :=
  if period = "day" then "daily" else if period = "week" then "weekly" else "monthly"

abbrev CacheDir := Keyed.Table String String

def sentinelFile (month : String) (pct : ℕ) : String :=
  "budget-" ++ month ++ "-" ++ toString pct ++ ".sent"

def sentinel (dir : CacheDir) (month : String) (pct : ℕ) : Bool :=
  (dir.lookup (sentinelFile month pct)).isSome

def markSent (dir : CacheDir) (month : String) (pct : ℕ) : CacheDir :=
  dir.set (sentinelFile month pct) "1"

structure Notice where
  pct : ℕ
  msg : String
  deriving DecidableEq

/-- Notify on a fresh crossing only if a sentinel file has not recorded it. -/
def announce (adv key : String) (pct : ℕ) (crossed : ℤ) (sent : Bool)
    (s : List Notice × CacheDir) : List Notice × CacheDir :=
  if crossed = 1 && !sent then
    (s.1 ++ [⟨pct, s!"NetMeter: {pct}% of {adv} budget used ({key})"⟩], markSent s.2 key pct)
  else s

/-- `check_once`: the `notify` calls it makes, and the cache directory it leaves. -/
def checkOnce (cfg : Config) (tz : TimeZone) (now : ℤ) (session : Bool) (db : Db)
    (dir : CacheDir) : List Notice × CacheDir :=
  match cfg.effectiveBudget with
  | none => ([], dir)
  | some (period, _) =>
    if !cfg.notifyOnBudget then ([], dir)
    else if !session then ([], dir)
    else
      let key := budgetKey tz now period
      let adv := periodAdverb period
      let crossed := (db.budgetEvents.lookup key).getD (0,0)
      let sent80 := sentinel dir key 80
      let sent100 := sentinel dir key 100
      announce adv key 100 crossed.2 sent100 (announce adv key 80 crossed.1 sent80 ([], dir))

theorem sentinelFile_inj {key key' : String} {pct pct' : ℕ} :
    sentinelFile key pct = sentinelFile key' pct' ↔ key = key' ∧ pct = pct' := by
  refine ⟨fun h => ?_, fun ⟨hk, hp⟩ => by rw [hk, hp]⟩
  have hlist := congrArg String.toList h
  simp only [sentinelFile, String.toList_append, List.append_assoc,
    show ("-" : String).toList = ['-'] from rfl, List.singleton_append,
    List.append_cancel_left_eq] at hlist
  have hdash : ∀ n : ℕ, '-' ∉ (toString n).toList ++ (".sent" : String).toList := by
    intro n hmem
    rcases List.mem_append.mp hmem with hmem | hmem
    · rw [Nat.toString_eq_ofList_toDigits, String.toList_ofList] at hmem
      exact absurd (Nat.isDigit_of_mem_toDigits (by norm_num) (by norm_num) hmem) (by decide)
    · exact absurd hmem (by decide)
  obtain ⟨hkey, hpct⟩ := split_at_last (hdash pct) (hdash pct') hlist
  have hdigits := List.append_cancel_right hpct
  simp only [Nat.toString_eq_ofList_toDigits, String.toList_ofList] at hdigits
  refine ⟨String.toList_injective hkey, ?_⟩
  rw [← Nat.ofDigitChars_ten_toDigits (n := pct), hdigits, Nat.ofDigitChars_ten_toDigits]

inductive Threshold where
  | eighty | hundred
  deriving DecidableEq, Repr

def Threshold.pct : Threshold → ℕ
  | .eighty => 80
  | .hundred => 100

def Threshold.flag : Threshold → ℤ × ℤ → ℤ
  | .eighty => Prod.fst
  | .hundred => Prod.snd

def Threshold.Reached (T : Threshold) (budget used : ℤ) : Prop := T.pct * budget ≤ 100 * used

theorem Threshold.pct_injective : Function.Injective Threshold.pct := by
  intro T T' h
  cases T <;> cases T' <;> first | rfl | exact absurd h (by decide)

instance (T : Threshold) (budget used : ℤ) : Decidable (T.Reached budget used) :=
  inferInstanceAs (Decidable (_ ≤ _))

def Db.crossed (db : Db) (key : String) : ℤ × ℤ := (db.budgetEvents.lookup key).getD (0,0)

def Bit (x : ℤ) : Prop := x = 0 ∨ x = 1

theorem reached_iff {budget : ℤ} (hpos : 0 < budget) (used : ℤ) :
    ((4 / 5 : ℚ) ≤ used / budget ↔ Threshold.eighty.Reached budget used) ∧
      ((1 : ℚ) ≤ used / budget ↔ Threshold.hundred.Reached budget used) := by
  have hpos' : (0 : ℚ) < budget := by exact_mod_cast hpos
  have hint : ∀ n : ℤ, n * budget ≤ 100 * used ↔ (n : ℚ) * budget ≤ 100 * used := fun n => by
    exact_mod_cast Iff.rfl
  unfold Threshold.Reached Threshold.pct
  rw [le_div_iff₀ hpos', le_div_iff₀ hpos', hint, hint]
  push_cast
  constructor <;> constructor <;> intro h <;> linarith

def raised (budget used : ℤ) (c : ℤ × ℤ) : ℤ × ℤ :=
  if Threshold.hundred.Reached budget used ∧ c.2 = 0 then (1,1)
  else if Threshold.eighty.Reached budget used ∧ c.1 = 0 then (1,c.2)
  else c

theorem flag_raised {budget used : ℤ} (hpos : 0 < budget) {c : ℤ × ℤ}
    (hbits : ∀ T : Threshold, Bit (T.flag c)) (T : Threshold) :
    Bit (T.flag (raised budget used c)) ∧
      (T.flag (raised budget used c) = 1 ↔ T.flag c = 1 ∨ T.Reached budget used) := by
  obtain ⟨c80, c100⟩ := c
  have h80 : c80 = 0 ∨ c80 = 1 := hbits .eighty
  have h100 : c100 = 0 ∨ c100 = 1 := hbits .hundred
  -- the whole budget includes four fifths of it
  have hmono : Threshold.hundred.Reached budget used → Threshold.eighty.Reached budget used := by
    intro h
    simp only [Threshold.Reached, Threshold.pct] at h ⊢
    push_cast at h ⊢
    omega
  unfold raised
  by_cases hfull : Threshold.hundred.Reached budget used
  · have hmost := hmono hfull
    rcases h80 with rfl | rfl <;> rcases h100 with rfl | rfl <;> cases T <;>
      simp [hfull, hmost, Threshold.flag, Bit]
  · by_cases hmost : Threshold.eighty.Reached budget used <;>
      rcases h80 with rfl | rfl <;> rcases h100 with rfl | rfl <;> cases T <;>
      simp [hfull, hmost, Threshold.flag, Bit]

theorem crossed_checkBudget {cfg : Config} {period : String} {gb : ℚ}
    (hbudget : cfg.effectiveBudget = some (period, gb)) (hpos : 0 < budgetBytes gb)
    (tz : TimeZone) (now : ℤ) (db : Db) (key : String) :
    (checkBudget cfg tz now db).crossed key =
      if key = budgetKey tz now period then
        raised (budgetBytes gb) (checkBudgetUsed cfg tz now period db) (db.crossed key)
      else db.crossed key := by
  obtain ⟨h80, h100⟩ := reached_iff hpos (checkBudgetUsed cfg tz now period db)
  unfold checkBudget
  rw [hbudget]
  simp only [not_le.mpr hpos, if_false, h80, h100]
  unfold Db.crossed raised
  by_cases hkey : key = budgetKey tz now period
  · subst hkey
    rw [if_pos rfl]
    split
    · simp [Keyed.Table.lookup_set]
    · split
      · cases hrow : db.budgetEvents.lookup (budgetKey tz now period) <;>
          simp [Keyed.Table.lookup_upsert, hrow]
      · rfl
  · rw [if_neg hkey]
    split <;> split <;> simp [Keyed.Table.lookup_set, Keyed.Table.lookup_upsert, hkey]

theorem flag_checkBudget {cfg : Config} {period : String} {gb : ℚ}
    (hbudget : cfg.effectiveBudget = some (period, gb)) (hpos : 0 < budgetBytes gb)
    (tz : TimeZone) (now : ℤ) (db : Db) (hbits : ∀ key T, Bit (Threshold.flag T (db.crossed key)))
    (key : String) (T : Threshold) :
    Bit (T.flag ((checkBudget cfg tz now db).crossed key)) ∧
      (T.flag ((checkBudget cfg tz now db).crossed key) = 1 ↔
        T.flag (db.crossed key) = 1 ∨ key = budgetKey tz now period ∧
          T.Reached (budgetBytes gb) (checkBudgetUsed cfg tz now period db)) := by
  rw [crossed_checkBudget hbudget hpos]
  split
  · next hkey => simpa [hkey] using flag_raised hpos (hbits key) T
  · next hkey => simp [hkey, hbits key T]

def thresholds : List Threshold := [.eighty, .hundred]

def fresh (db : Db) (dir : CacheDir) (key : String) : List Threshold :=
  thresholds.filter (fun T => T.flag (db.crossed key) = 1 && !sentinel dir key T.pct)

def Threshold.notice (T : Threshold) (adv key : String) : Notice :=
  ⟨T.pct, s!"NetMeter: {T.pct}% of {adv} budget used ({key})"⟩

theorem checkOnce_eq {cfg : Config} {period : String} {gb : ℚ}
    (hbudget : cfg.effectiveBudget = some (period, gb)) (hon : cfg.notifyOnBudget = true)
    (tz : TimeZone) (now : ℤ) (db : Db) (dir : CacheDir) :
    let key := budgetKey tz now period
    checkOnce cfg tz now true db dir =
      ((fresh db dir key).map (fun T => T.notice (periodAdverb period) key),
        (fresh db dir key).foldl (fun d T => markSent d key T.pct) dir) := by
  intro key
  unfold checkOnce
  simp only [hbudget, hon, Bool.not_true, Bool.false_eq_true, if_false]
  change announce _ key 100 (db.crossed key).2 (sentinel dir key 100)
    (announce _ key 80 (db.crossed key).1 (sentinel dir key 80) ([],dir)) = _
  unfold announce fresh thresholds
  by_cases h80 : (db.crossed key).1 = 1 <;> by_cases h100 : (db.crossed key).2 = 1 <;>
    cases hs80 : sentinel dir key 80 <;> cases hs100 : sentinel dir key 100 <;>
    simp [h80, h100, hs80, hs100, Threshold.flag, Threshold.pct, Threshold.notice]

theorem checkOnce_guarded {cfg : Config} {session : Bool}
    (h : (cfg.notifyOnBudget && session) = false) (tz : TimeZone) (now : ℤ) (db : Db)
    (dir : CacheDir) : checkOnce cfg tz now session db dir = ([],dir) := by
  unfold checkOnce
  cases cfg.effectiveBudget with
  | none => rfl
  | some b =>
    cases hon : cfg.notifyOnBudget with
    | false => rfl
    | true =>
      rw [hon, Bool.true_and] at h
      rw [h]
      rfl

theorem sentinel_markSent (dir : CacheDir) (key key' : String) (pct pct' : ℕ) :
    sentinel (markSent dir key pct) key' pct' = true ↔
      sentinel dir key' pct' = true ∨ key' = key ∧ pct' = pct := by
  unfold sentinel markSent
  rw [Keyed.Table.lookup_set, ← sentinelFile_inj]
  by_cases h : sentinelFile key' pct' = sentinelFile key pct <;> simp [h]

theorem sentinel_foldl_markSent (key key' : String) (pct : ℕ) (l : List Threshold)
    (dir : CacheDir) :
    sentinel (l.foldl (fun d T => markSent d key T.pct) dir) key' pct = true ↔
      sentinel dir key' pct = true ∨ key' = key ∧ ∃ T ∈ l, pct = T.pct := by
  induction l generalizing dir with
  | nil => simp
  | cons T l ih =>
    rw [List.foldl_cons, ih, sentinel_markSent, or_assoc, ← and_or_left]
    simp

theorem fresh_nodup (db : Db) (dir : CacheDir) (key : String) : (fresh db dir key).Nodup :=
  List.Nodup.filter _ (by decide)

theorem mem_fresh {db : Db} {dir : CacheDir} {key : String} {T : Threshold} :
    T ∈ fresh db dir key ↔
      T.flag (db.crossed key) = 1 ∧ sentinel dir key T.pct = false := by
  have hmem : T ∈ thresholds := by cases T <;> decide
  simp [fresh, hmem]

inductive BudgetAct where
  | checked (now : WallClock) (used : ℤ)
  | notified (now : WallClock) (n : Notice)

structure Notifier where
  db : Db
  dir : CacheDir
  trace : List BudgetAct

/-- The daemon checks the budget over the samples it then has; the agent polls. -/
inductive NoticeEvent where
  | check (now : WallClock) (samples : Keyed.Table Key Counts)
  | poll (now : WallClock) (session : Bool)

def Notifier.init : Notifier := ⟨Db.init, ∅, []⟩

def Notifier.step (cfg : Config) (tz : TimeZone) (n : Notifier) : NoticeEvent → Notifier
  | .check now samples =>
    let db := { n.db with samples := samples }
    { n with
      db := checkBudget cfg tz now.secs db
      trace := .checked now (checkBudgetUsed cfg tz now.secs (livePeriod cfg) db) :: n.trace }
  | .poll now session =>
    let out := checkOnce cfg tz now.secs session n.db n.dir
    { n with dir := out.2, trace := (out.1.map (BudgetAct.notified now)).reverse ++ n.trace }

def SameWindow (period : String) (t t' : WallClock) : Prop :=
  budgetWindowStart .utc t.secs period = budgetWindowStart .utc t'.secs period

/-- A check in the window of `now` saw the threshold's share of the budget. -/
def Crossed (period : String) (budget : ℤ) (trace : List BudgetAct) (now : WallClock)
    (T : Threshold) : Prop :=
  ∃ t used, BudgetAct.checked t used ∈ trace ∧ SameWindow period t now ∧ T.Reached budget used

/-- The threshold was announced in the window of `now`. -/
def Told (period : String) (trace : List BudgetAct) (now : WallClock) (pct : ℕ) : Prop :=
  ∃ t n, BudgetAct.notified t n ∈ trace ∧ SameWindow period t now ∧ n.pct = pct

/-- Every notice announces a threshold crossed before it and not told before it. -/
def Justified (period : String) (budget : ℤ) : List BudgetAct → Prop
  | [] => True
  | .checked _ _ :: earlier => Justified period budget earlier
  | .notified now n :: earlier =>
    (∃ T, n.pct = T.pct ∧ Crossed period budget earlier now T) ∧
      ¬ Told period earlier now n.pct ∧ Justified period budget earlier

/-- Flags stand for crossings and sentinels for notices, window by window. -/
structure Notifier.Consistent (period : String) (budget : ℤ) (n : Notifier) : Prop where
  bits : ∀ key T, Bit (Threshold.flag T (n.db.crossed key))
  flags : ∀ (now : WallClock) (T : Threshold),
    T.flag (n.db.crossed (budgetKey .utc now.secs period)) = 1 ↔
      Crossed period budget n.trace now T
  sentinels : ∀ (now : WallClock) (pct : ℕ),
    sentinel n.dir (budgetKey .utc now.secs period) pct = true ↔ Told period n.trace now pct
  justified : Justified period budget n.trace

variable {cfg : Config} {period : String} {gb : ℚ}

theorem consistent_init (budget : ℤ) : Notifier.init.Consistent period budget where
  bits key T := by cases T <;> exact .inl rfl
  flags now T := by
    refine iff_of_false (fun h => ?_) (fun ⟨t, used, ht, _⟩ => by simp [Notifier.init] at ht)
    cases T <;> exact absurd h Int.zero_ne_one
  sentinels now pct := by
    refine iff_of_false (fun h => ?_) (fun ⟨t, n, ht, _⟩ => by simp [Notifier.init] at ht)
    simp [Notifier.init, sentinel] at h
  justified := trivial

theorem crossed_check {trace : List BudgetAct} {t now : WallClock} {used budget : ℤ}
    {T : Threshold} :
    Crossed period budget (.checked t used :: trace) now T ↔
      Crossed period budget trace now T ∨ SameWindow period t now ∧ T.Reached budget used := by
  constructor
  · rintro ⟨t', used', hmem, hsame, hreached⟩
    rcases List.mem_cons.mp hmem with he | hmem
    · obtain ⟨rfl, rfl⟩ := BudgetAct.checked.inj he
      exact .inr ⟨hsame, hreached⟩
    · exact .inl ⟨t', used', hmem, hsame, hreached⟩
  · rintro (⟨t', used', hmem, h⟩ | h)
    · exact ⟨t', used', List.mem_cons_of_mem _ hmem, h⟩
    · exact ⟨t, used, List.mem_cons_self, h⟩

theorem told_check {trace : List BudgetAct} {t now : WallClock} {used : ℤ} {pct : ℕ} :
    Told period (.checked t used :: trace) now pct ↔ Told period trace now pct := by
  simp [Told]

def notices (now : WallClock) (adv key : String) (l : List Threshold) : List BudgetAct :=
  l.map (fun T => .notified now (T.notice adv key))

theorem crossed_notices {trace : List BudgetAct} {t now : WallClock} {adv key : String} {budget : ℤ}
    {l : List Threshold} {T : Threshold} :
    Crossed period budget (notices t adv key l ++ trace) now T ↔
      Crossed period budget trace now T := by
  simp [Crossed, notices]

theorem told_notices {trace : List BudgetAct} {t now : WallClock} {adv key : String}
    {l : List Threshold} {pct : ℕ} :
    Told period (notices t adv key l ++ trace) now pct ↔
      Told period trace now pct ∨ SameWindow period t now ∧ ∃ T ∈ l, pct = T.pct := by
  constructor
  · rintro ⟨t', n, hmem, hsame, rfl⟩
    rcases List.mem_append.mp hmem with hmem | hmem
    · obtain ⟨T, hT, he⟩ := List.mem_map.mp hmem
      obtain ⟨rfl, rfl⟩ := BudgetAct.notified.inj he
      exact .inr ⟨hsame, T, hT, rfl⟩
    · exact .inl ⟨t', n, hmem, hsame, rfl⟩
  · rintro (⟨t', n, hmem, h⟩ | ⟨hsame, T, hT, rfl⟩)
    · exact ⟨t', n, List.mem_append_right _ hmem, h⟩
    · exact ⟨t, T.notice adv key, List.mem_append_left _ (List.mem_map.mpr ⟨T, hT, rfl⟩), hsame,
        rfl⟩

theorem justified_notices {trace : List BudgetAct} {now : WallClock} {adv key : String} {budget : ℤ}
    {l : List Threshold} (hl : l.Nodup) (hcrossed : ∀ T ∈ l, Crossed period budget trace now T)
    (htold : ∀ T ∈ l, ¬ Told period trace now T.pct) (h : Justified period budget trace) :
    Justified period budget (notices now adv key l ++ trace) := by
  induction l with
  | nil => exact h
  | cons T l ih =>
    obtain ⟨hT, hl⟩ := List.nodup_cons.mp hl
    refine ⟨⟨T, rfl, crossed_notices.mpr (hcrossed T (by simp))⟩, fun hold => ?_,
      ih hl (fun U hU => hcrossed U (by simp [hU])) (fun U hU => htold U (by simp [hU]))⟩
    rcases told_notices.mp hold with hold | ⟨-, U, hU, he⟩
    · exact htold T (by simp) hold
    · exact hT (Threshold.pct_injective he ▸ hU)

theorem consistent_check (hbudget : cfg.effectiveBudget = some (period, gb))
    (hpos : 0 < budgetBytes gb) (now : WallClock) (samples : Keyed.Table Key Counts) {n : Notifier}
    (h : n.Consistent period (budgetBytes gb)) :
    (n.step cfg .utc (.check now samples)).Consistent period (budgetBytes gb) := by
  have hlive : livePeriod cfg = period := by simp [livePeriod, hbudget]
  have hflag := flag_checkBudget hbudget hpos .utc now.secs { n.db with samples := samples } h.bits
  constructor
  · exact fun key T => (hflag key T).1
  · intro t T
    refine (hflag _ T).2.trans ?_
    show _ ↔ Crossed period _
      (.checked now (checkBudgetUsed cfg .utc now.secs (livePeriod cfg) _) :: n.trace) t T
    rw [crossed_check, hlive, ← h.flags t T, budgetKey_inj]
    exact or_congr_right (and_congr_left fun _ => eq_comm)
  · intro t pct
    exact (h.sentinels t pct).trans told_check.symm
  · exact h.justified

theorem consistent_poll (hbudget : cfg.effectiveBudget = some (period, gb)) (now : WallClock)
    (session : Bool) {n : Notifier} (h : n.Consistent period (budgetBytes gb)) :
    (n.step cfg .utc (.poll now session)).Consistent period (budgetBytes gb) := by
  cases hguard : cfg.notifyOnBudget && session with
  | false =>
    have hn : n.step cfg .utc (.poll now session) = n := by
      simp [Notifier.step, checkOnce_guarded hguard]
    rwa [hn]
  | true =>
    obtain ⟨hon, rfl⟩ := Bool.and_eq_true_iff.mp hguard
    generalize hkey : budgetKey .utc now.secs period = key
    have hout := checkOnce_eq hbudget hon .utc now.secs n.db n.dir
    rw [hkey] at hout
    have hn : n.step cfg .utc (.poll now true) =
        { n with
          dir := (fresh n.db n.dir key).foldl (fun d T => markSent d key T.pct) n.dir
          trace := notices now (periodAdverb period) key (fresh n.db n.dir key).reverse ++
            n.trace } := by
      simp [Notifier.step, hout, notices, Function.comp_def]
    rw [hn]
    constructor
    · exact h.bits
    · intro t T
      exact (h.flags t T).trans crossed_notices.symm
    · intro t pct
      refine (sentinel_foldl_markSent key _ pct _ _).trans (Iff.trans ?_ told_notices.symm)
      rw [h.sentinels t pct, ← hkey, budgetKey_inj]
      refine or_congr_right (and_congr eq_comm ?_)
      simp
    · refine justified_notices (List.nodup_reverse.mpr (fresh_nodup ..)) (fun T hT => ?_)
        (fun T hT => ?_) h.justified
      · have hfresh := mem_fresh.mp (List.mem_reverse.mp hT)
        exact (h.flags now T).mp (hkey ▸ hfresh.1)
      · have hfresh := mem_fresh.mp (List.mem_reverse.mp hT)
        rw [← h.sentinels now T.pct, hkey, hfresh.2]
        exact Bool.false_ne_true

theorem consistent_step (hbudget : cfg.effectiveBudget = some (period, gb))
    (hpos : 0 < budgetBytes gb) (n : Notifier) (e : NoticeEvent)
    (h : n.Consistent period (budgetBytes gb)) :
    (n.step cfg .utc e).Consistent period (budgetBytes gb) := by
  cases e with
  | check now samples => exact consistent_check hbudget hpos now samples h
  | poll now session => exact consistent_poll hbudget now session h

def BudgetAct.notifies (period : String) (start : ℤ) (pct : ℕ) : BudgetAct → Bool
  | .checked _ _ => false
  | .notified now n => budgetWindowStart .utc now.secs period = start && n.pct = pct

theorem justified_split {budget : ℤ} {later earlier : List BudgetAct}
    (h : Justified period budget (later ++ earlier)) : Justified period budget earlier := by
  induction later with
  | nil => exact h
  | cons a later ih =>
    cases a with
    | checked now used => exact ih h
    | notified now n => exact ih h.2.2

theorem count_notifies_le_one {budget : ℤ} {trace : List BudgetAct}
    (h : Justified period budget trace) (start : ℤ) (pct : ℕ) :
    trace.countP (BudgetAct.notifies period start pct) ≤ 1 := by
  induction trace with
  | nil => simp
  | cons a trace ih =>
    cases a with
    | checked now used => simpa [BudgetAct.notifies] using ih h
    | notified now n =>
      obtain ⟨-, htold, h⟩ := h
      by_cases hmatch : (BudgetAct.notified now n).notifies period start pct
      · -- an earlier call for the window would have told the threshold
        have hnone : trace.countP (BudgetAct.notifies period start pct) = 0 := by
          refine List.countP_eq_zero.mpr (fun a ha hb => ?_)
          simp only [BudgetAct.notifies, Bool.and_eq_true, decide_eq_true_eq] at hmatch
          cases a with
          | checked t used => simp [BudgetAct.notifies] at hb
          | notified t m =>
            simp only [BudgetAct.notifies, Bool.and_eq_true, decide_eq_true_eq] at hb
            exact htold ⟨t, m, ha, hb.1.trans hmatch.1.symm, hb.2.trans hmatch.2.symm⟩
        rw [List.countP_cons_of_pos hmatch, hnone]
      · rw [List.countP_cons_of_neg hmatch]
        exact ih h

theorem sentinel_poll (hbudget : cfg.effectiveBudget = some (period, gb))
    (hon : cfg.notifyOnBudget = true) {budget : ℤ} {n : Notifier}
    (h : n.Consistent period budget) {now : WallClock} {T : Threshold}
    (hcrossed : Crossed period budget n.trace now T) :
    sentinel (n.step cfg .utc (.poll now true)).dir (budgetKey .utc now.secs period) T.pct =
      true := by
  show sentinel (checkOnce cfg .utc now.secs true n.db n.dir).2 _ _ = true
  rw [checkOnce_eq hbudget hon]
  refine (sentinel_foldl_markSent ..).mpr ?_
  cases hsent : sentinel n.dir (budgetKey .utc now.secs period) T.pct with
  | true => exact .inl rfl
  | false => exact .inr ⟨rfl, T, mem_fresh.mpr ⟨(h.flags now T).mpr hcrossed, hsent⟩, rfl⟩

def budgetPeriods : List String := ["day", "week", "month"]

theorem budgetKey_eq_iff {t t' : WallClock} {p p' : String} (hp : p ∈ budgetPeriods)
    (hp' : p' ∈ budgetPeriods) :
    budgetKey .utc t.secs p = budgetKey .utc t'.secs p' ↔ p = p' ∧ SameWindow p t t' := by
  have hcolon : ∀ p ∈ budgetPeriods, ':' ∉ p.toList := by decide
  constructor
  · intro h
    obtain rfl := budgetKey_period (hcolon p hp) (hcolon p' hp') h
    exact ⟨rfl, budgetKey_inj.mp h⟩
  · rintro ⟨rfl, h⟩
    exact budgetKey_inj.mpr h

/-- In every interleaving of budget checks and polls a threshold is announced at
most once in a window, only after a check in that window saw its share used, and
a poll after such a check leaves its sentinel. Windows, periods and thresholds
share no event and no sentinel. -/
theorem notifications_once (cfg : Config) (period : String) (gb : ℚ) (es : List NoticeEvent)
    (hbudget : cfg.effectiveBudget = some (period, gb)) (hpos : 0 < budgetBytes gb) :
    let n := es.foldl (Notifier.step cfg .utc) Notifier.init
    (∀ start pct, n.trace.countP (BudgetAct.notifies period start pct) ≤ 1) ∧
    (∀ later now m earlier, n.trace = later ++ .notified now m :: earlier →
      ∃ T : Threshold, m.pct = T.pct ∧ Crossed period (budgetBytes gb) earlier now T) ∧
    (cfg.notifyOnBudget = true → ∀ (now : WallClock) (T : Threshold),
      Crossed period (budgetBytes gb) n.trace now T →
      sentinel (n.step cfg .utc (.poll now true)).dir (budgetKey .utc now.secs period) T.pct =
        true) ∧
    ∀ (t t' : WallClock), ∀ p ∈ budgetPeriods, ∀ p' ∈ budgetPeriods,
      (budgetKey .utc t.secs p = budgetKey .utc t'.secs p' ↔ p = p' ∧ SameWindow p t t') ∧
      ∀ pct pct' : ℕ, sentinelFile (budgetKey .utc t.secs p) pct =
          sentinelFile (budgetKey .utc t'.secs p') pct' ↔
        (p = p' ∧ SameWindow p t t') ∧ pct = pct' := by
  intro n
  have hn : n.Consistent period (budgetBytes gb) :=
    List.foldlRecOn es _ (consistent_init _) (fun n h e _ => consistent_step hbudget hpos n e h)
  refine ⟨count_notifies_le_one hn.justified, fun later now m earlier he => ?_,
    fun hon now T hcrossed => sentinel_poll hbudget hon hn hcrossed, fun t t' p hp p' hp' => ?_⟩
  · have hsplit := hn.justified
    rw [he] at hsplit
    exact (justified_split hsplit).1
  · refine ⟨budgetKey_eq_iff hp hp', fun pct pct' => ?_⟩
    rw [sentinelFile_inj, budgetKey_eq_iff hp hp']

/-- A day that reaches the whole budget between two polls, and the day after. -/
def twoDays : List NoticeEvent :=
  [.poll (.at 1800000000) true,
    .check (.at 1800000005) ((∅ : Keyed.Table Key Counts).set ⟨1800000000,"eth0"⟩
      ⟨1073741824, 0, 0, 0⟩),
    .poll (.at 1800000060) true, .poll (.at 1800000120) true, .poll (.at 1800090000) true]

theorem notifications_once_twoDays :
    (twoDays.foldl (Notifier.step { budgetGb := 1, budgetPeriod := "day" } .utc)
      Notifier.init).trace.countP (BudgetAct.notifies "day" 1799971200 100) ≤ 1 :=
  (notifications_once { budgetGb := 1, budgetPeriod := "day" } "day" 1 twoDays
    (by decide +kernel) (by decide +kernel)).1 1799971200 100

end Netmeter
