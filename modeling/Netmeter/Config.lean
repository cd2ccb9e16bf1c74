import Mathlib
set_option autoImplicit false

/-! `config.rs`: the fields the daemon and the viewers read, and their predicates. -/

namespace Netmeter

/-- `Config`; `budget_gb` is exact. -/
structure Config where
  pollIntervalSec : ℕ := 5
  timezone : String := "local"
  excludeIfaces : List String := ["lo", "docker*", "veth*", "br-*", "virbr*"]
  forceLanIfaces : List String := ["tailscale0*", "zt*"]
  retentionDaysRaw : ℤ := 30
  retentionDaysHourly : ℤ := 365
  procRetentionDays : ℤ := 30
  procRecording : Bool := true
  maxRateMbit : ℕ := 10000
  budgetPeriod : String := "month"
  budgetGb : ℚ := 0
  budgetBasis : String := "total"
  notifyOnBudget : Bool := true

/-- Tiny glob: a trailing `*` only. -/
def globMatch (pat s : String) : Bool :=
  match pat.toList.reverse with
  | '*' :: pre => pre.reverse.isPrefixOf s.toList
  | _ => pat = s

namespace Config

def excluded (cfg : Config) (iface : String) : Bool :=
  cfg.excludeIfaces.any (fun p => globMatch p iface)

def forcedLan (cfg : Config) (iface : String) : Bool :=
  cfg.forceLanIfaces.any (fun p => globMatch p iface)

def effectiveBudget (cfg : Config) : Option (String × ℚ) :=
  if 0 < cfg.budgetGb then
    if cfg.budgetPeriod = "day" ∨ cfg.budgetPeriod = "week" ∨ cfg.budgetPeriod = "month" then
      some (cfg.budgetPeriod, cfg.budgetGb)
    else some ("month", cfg.budgetGb)
  else none

end Config

def wrapI64 (x : ℤ) : ℤ := Int.bmod x (2 ^ 64)

theorem wrapI64_of_bounds {x : ℤ} (h : -(2 ^ 63) ≤ x ∧ x < 2 ^ 63) : wrapI64 x = x := by
  unfold wrapI64
  rw [Int.bmod_eq_of_le] <;> omega

def asI64 (x : UInt64) : ℤ := wrapI64 x.toNat

/-- `x as i64` for an `f64`: truncate, then saturate. -/
def ratAsI64 (q : ℚ) : ℤ := max (-(2 ^ 63)) (min (q.num.tdiv q.den) (2 ^ 63 - 1))

theorem asI64_of_lt {x : UInt64} (h : x.toNat < 2 ^ 63) : asI64 x = x.toNat :=
  wrapI64_of_bounds (by omega)

@[simp] theorem asI64_zero : asI64 0 = 0 := asI64_of_lt (by decide)

end Netmeter
