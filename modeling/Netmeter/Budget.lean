import Netmeter.Config
import Netmeter.Db
set_option autoImplicit false

/-!
The budget window: what the daemon and the live view sum in it, and the crossed
thresholds of `budget_events`.
-/

namespace Netmeter
open Keyed Gregorian

def padZero (width n : ℕ) : String :=
  let digits := toString n
  String.ofList (List.replicate (width - digits.length) '0') ++ digits

def budgetKey (tz : TimeZone) (ts : ℤ) (period : String) : String :=
  let d := (tz.toZoned (budgetWindowStart tz ts period)).date
  period ++ ":" ++ padZero 4 d.year.toNat ++ "-" ++ padZero 2 d.month ++ "-" ++ padZero 2 d.day

example : budgetKey .utc 1788700000 "day" = "day:2026-09-06" := by decide +kernel

/-- `SELECT COALESCE(SUM(..),0) FROM samples WHERE ts >= from`. -/
def Db.windowSum (db : Db) (start : ℤ) : Counts :=
  value (total (fun k => start ≤ k.ts) db.samples.rows)

def basisUsed (cfg : Config) (c : Counts) : ℤ :=
  if cfg.budgetBasis = "wan" then c.wanRx + c.wanTx else c.total

def budgetBytes (gb : ℚ) : ℤ := ratAsI64 (gb * 1073741824)

def checkBudgetUsed (cfg : Config) (tz : TimeZone) (now : ℤ) (period : String) (db : Db) : ℤ :=
  basisUsed cfg (db.windowSum (budgetWindowStart tz now period))

def checkBudget (cfg : Config) (tz : TimeZone) (now : ℤ) (db : Db) : Db :=
  match cfg.effectiveBudget with
  | none => db
  | some (period, gb) =>
    let key := budgetKey tz now period
    let used := checkBudgetUsed cfg tz now period db
    let budget := budgetBytes gb
    if budget ≤ 0 then db
    else
      let frac : ℚ := used / budget
      let crossed := (db.budgetEvents.lookup key).getD (0,0)
      let events :=
        if 4 / 5 ≤ frac ∧ crossed.1 = 0 then
          db.budgetEvents.upsert key (1,0) (fun c => (1,c.2))
        else db.budgetEvents
      { db with
        budgetEvents :=
          if 1 ≤ frac ∧ crossed.2 = 0 then events.set key (1,1) else events }

def livePeriod (cfg : Config) : String := (cfg.effectiveBudget.map Prod.fst).getD "month"

/-- `live`'s figure: the basis total and the four sums of the window. -/
def queryBudget (cfg : Config) (tz : TimeZone) (now : ℤ) (db : Db) : ℤ × Counts :=
  let sums := db.windowSum (budgetWindowStart tz now (livePeriod cfg))
  (basisUsed cfg sums, sums)

theorem checkBudget_eq (cfg : Config) (tz : TimeZone) (now : ℤ) (db : Db) :
    ∃ events, checkBudget cfg tz now db = { db with budgetEvents := events } := by
  unfold checkBudget
  split
  · exact ⟨db.budgetEvents, rfl⟩
  · dsimp only
    split
    · exact ⟨db.budgetEvents, rfl⟩
    · exact ⟨_, rfl⟩

theorem queryBudget_used {cfg : Config} {period : String} {gb : ℚ}
    (h : cfg.effectiveBudget = some (period, gb)) (tz : TimeZone) (now : ℤ) (db : Db) :
    (queryBudget cfg tz now db).1 = checkBudgetUsed cfg tz now period db := by
  simp [queryBudget, livePeriod, checkBudgetUsed, h]

end Netmeter
