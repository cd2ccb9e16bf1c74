import Netmeter.Budget
import Netmeter.Lib.Binary64
set_option autoImplicit false

/-!
`fmtx.rs`, and `formatBytes` of the extension's `dataSource.js`: byte counts as
text. Both divide in binary64, and print the digits of the result exactly.
-/

namespace Netmeter
open Scaled Binary64

def decimalText (places n : ℕ) : String :=
  if places = 0 then toString n
  else toString (n / 10 ^ places) ++ "." ++ padZero places (n % 10 ^ places)

def fmtScaled (b : ℤ) (base : ℚ) (units : List String) : String :=
  let s := scale f64 base (units.length - 1) (f64 (max b 0 : ℤ)) 0
  let places := if s.2 = 0 then 0 else 1
  decimalText places (mantissa roundHalfEven places s.1).toNat ++ " " ++ units.getD s.2 ""

def fmtBytes (b : ℤ) (decimal : Bool) : String :=
  if decimal then fmtScaled b 1000 ["B", "KB", "MB", "GB", "TB", "PB"]
  else fmtScaled b 1024 ["B", "KiB", "MiB", "GiB", "TiB", "PiB"]

/-- Human byte formatting of the panel: one unit fewer, and a second decimal
below ten; `null` is a dash. -/
def formatBytes (bytes : Option ℤ) (decimal : Bool) : String :=
  match bytes with
  | none => "—"
  | some b =>
    let base : ℚ := if decimal then 1000 else 1024
    let units :=
      if decimal then ["B", "kB", "MB", "GB", "TB"] else ["B", "KiB", "MiB", "GiB", "TiB"]
    let s := scale f64 base (units.length - 1) (f64 (|b| : ℤ)) 0
    let decimals := if s.2 = 0 then 0 else if s.1 < 10 then 2 else 1
    (if b < 0 then "-" else "") ++
      decimalText decimals (mantissa round decimals s.1).toNat ++ " " ++ units.getD s.2 ""

/-- So many of `w` cells filled; a fraction of nothing fills none. -/
def barFill (frac : ℚ) (w : ℕ) : ℕ := (round (f64 (max 0 (min frac 1) * w))).toNat

def bar (frac : ℚ) (w : ℕ) : String :=
  String.ofList (List.replicate (barFill frac w) '█' ++
    List.replicate (w - barFill frac w) '░')

structure Size where
  places : ℕ
  digits : ℕ
  unit : ℕ
  deriving DecidableEq, Repr

namespace Size

def text (units : List String) (s : Size) : String :=
  decimalText s.places s.digits ++ " " ++ units.getD s.unit ""

def value (base : ℚ) (s : Size) : ℚ := quantity base s.places s.digits s.unit

/-- Within half a unit of the last place, which is a tenth of the unit at most, and what the
divisions round away. -/
structure Near (base : ℚ) (b : ℤ) (s : Size) : Prop where
  error : |s.value base - b| ≤ base ^ s.unit / (2 * 10 ^ s.places) + b / 2 ^ 50
  exact : s.unit = 0 → s.places = 0 ∧ s.value base = b
  tenth : 0 < s.unit → 1 ≤ s.places ∧ base ^ s.unit ≤ (1 + 1 / 2 ^ 50) * b

end Size

def sizeBase (decimal : Bool) : ℕ := if decimal then 1000 else 1024

def cliUnits (decimal : Bool) : List String :=
  if decimal then ["B", "KB", "MB", "GB", "TB", "PB"]
  else ["B", "KiB", "MiB", "GiB", "TiB", "PiB"]

def panelUnits (decimal : Bool) : List String :=
  if decimal then ["B", "kB", "MB", "GB", "TB"] else ["B", "KiB", "MiB", "GiB", "TiB"]

def cliPlaces (u : ℕ) : ℕ := if u = 0 then 0 else 1

def cliSize (decimal : Bool) (b : ℤ) : Size :=
  let s := scale f64 (sizeBase decimal) 5 (f64 (max b 0 : ℤ)) 0
  ⟨cliPlaces s.2, (mantissa roundHalfEven (cliPlaces s.2) s.1).toNat, s.2⟩

def panelPlaces (v : ℚ) (u : ℕ) : ℕ := if u = 0 then 0 else if v < 10 then 2 else 1

def panelSize (decimal : Bool) (b : ℤ) : Size :=
  let s := scale f64 (sizeBase decimal) 4 (f64 (|b| : ℤ)) 0
  ⟨panelPlaces s.1 s.2, (mantissa round (panelPlaces s.1 s.2) s.1).toNat, s.2⟩

theorem fmtBytes_eq (b : ℤ) (decimal : Bool) :
    fmtBytes b decimal = (cliSize decimal b).text (cliUnits decimal) := by
  cases decimal <;> rfl

theorem formatBytes_eq {b : ℤ} (hb : 0 ≤ b) (decimal : Bool) :
    formatBytes (some b) decimal = (panelSize decimal b).text (panelUnits decimal) := by
  have hsign : ¬ b < 0 := not_lt.mpr hb
  cases decimal <;>
    simp [formatBytes, hsign, panelSize, panelPlaces, panelUnits, sizeBase, Size.text]

def Size.ofScaled (r : ℚ → ℤ) (places : ℕ) (s : ℚ × ℕ) : Size :=
  ⟨places, (mantissa r places s.1).toNat, s.2⟩

theorem value_ofScaled {r : ℚ → ℤ} (hr : Nearest r) (base : ℚ) (places : ℕ) {s : ℚ × ℕ}
    (hs : 0 ≤ s.1) :
    (Size.ofScaled r places s).value base = quantity base places (mantissa r places s.1) s.2 := by
  have hdigits : ((mantissa r places s.1).toNat : ℤ) = mantissa r places s.1 :=
    Int.toNat_of_nonneg (mantissa_nonneg hr hs places)
  rw [Size.value, Size.ofScaled, hdigits]

/-- The conversion and five divisions at most round away a part in 2^50 at most. -/
theorem abs_scale_sub_le {base : ℚ} (hbase : 0 < base) {left : ℕ} (hleft : left ≤ 5) {v : ℚ}
    (hv : 0 ≤ v) : |(scale f64 base left (f64 v) 0).1 * base ^ (scale f64 base left (f64 v) 0).2 -
      v| ≤ v / 2 ^ 50 := by
  have hvalue := scale_value rounds_f64 hbase (f64_nonneg hv) left 0
  have hunit := scale_le f64 base left (f64 v) 0
  generalize scale f64 base left (f64 v) 0 = s at hvalue hunit ⊢
  rw [pow_zero, mul_one, Nat.sub_zero] at hvalue
  have hdown : (1 - 1 / 2 ^ 50 : ℚ) * v ≤ (1 - 1 / 2 ^ 53) ^ s.2 * f64 v :=
    calc (1 - 1 / 2 ^ 50 : ℚ) * v ≤ (1 - 1 / 2 ^ 53) ^ (s.2 + 1) * v := by
          refine mul_le_mul_of_nonneg_right ?_ hv
          refine le_trans ?_ (pow_le_pow_of_le_one (by norm_num) (by norm_num)
            (show s.2 + 1 ≤ 6 by omega))
          norm_num
      _ = (1 - 1 / 2 ^ 53) ^ s.2 * ((1 - 1 / 2 ^ 53) * v) := by
          rw [pow_succ _ s.2, mul_assoc]
      _ ≤ (1 - 1 / 2 ^ 53) ^ s.2 * f64 v :=
          mul_le_mul_of_nonneg_left (rounds_f64.lower hv) (pow_nonneg (by norm_num) _)
  have hup : (1 + 1 / 2 ^ 53 : ℚ) ^ s.2 * f64 v ≤ (1 + 1 / 2 ^ 50) * v :=
    calc (1 + 1 / 2 ^ 53 : ℚ) ^ s.2 * f64 v
        ≤ (1 + 1 / 2 ^ 53) ^ s.2 * ((1 + 1 / 2 ^ 53) * v) :=
          mul_le_mul_of_nonneg_left (rounds_f64.upper hv) (pow_nonneg (by norm_num) _)
      _ = (1 + 1 / 2 ^ 53) ^ (s.2 + 1) * v := by rw [pow_succ _ s.2, mul_assoc]
      _ ≤ (1 + 1 / 2 ^ 50) * v := by
          refine mul_le_mul_of_nonneg_right ?_ hv
          refine (pow_le_pow_right₀ (by norm_num) (show s.2 + 1 ≤ 6 by omega)).trans ?_
          norm_num
  rw [abs_le]
  constructor <;> linarith [hvalue.1, hvalue.2]

/-- A count that is not divided is one of 53 digits, past which it exceeds the base. -/
theorem f64_of_unit {base : ℕ} (hbase : 0 < base) (hsmall : base < 2 ^ 53) {left : ℕ}
    (hpos : 0 < left) {b : ℤ} (hb : 0 ≤ b) (hunit : (scale f64 base left (f64 b) 0).2 = 0) :
    f64 b = b := by
  have hbase' : (0 : ℚ) < base := by exact_mod_cast hbase
  lift b to ℕ using hb
  refine f64_natCast ?_
  by_contra hlarge
  have hbelow : (scale f64 base left (f64 (b : ℕ)) 0).1 < base :=
    scale_lt (by push_cast at hunit; omega)
  rw [scale_start (by push_cast at hunit; exact hunit)] at hbelow
  have hmono := f64_mono (p := base) (q := (b : ℕ)) hbase'.le (by
    exact_mod_cast (hsmall.le.trans (not_lt.mp hlarge)))
  rw [f64_natCast hsmall] at hmono
  linarith

theorem near_ofScaled {base : ℕ} (hbase : 0 < base) (hsmall : base < 2 ^ 53) {r : ℚ → ℤ}
    (hr : Nearest r) {places left : ℕ} (hpos : 0 < left) (hleft : left ≤ 5) {b : ℤ} (hb : 0 ≤ b)
    (hplaces : places = 0 ↔ (scale f64 base left (f64 b) 0).2 = 0) :
    (Size.ofScaled r places (scale f64 base left (f64 b) 0)).Near base b := by
  have hb' : (0 : ℚ) ≤ b := by exact_mod_cast hb
  have hbase' : (0 : ℚ) < base := by exact_mod_cast hbase
  have hvalue := abs_scale_sub_le hbase' hleft hb'
  have hshown := value_ofScaled hr base places
    (scale_nonneg rounds_f64 hbase' (f64_nonneg hb') left 0)
  constructor
  · rw [hshown]
    have herror := abs_quantity_sub_le hr hbase' places (scale f64 base left (f64 b) 0).1
      (scale f64 base left (f64 b) 0).2
    refine le_trans ?_ (add_le_add herror hvalue)
    exact abs_sub_le _ _ _
  · intro hunit
    have hplaces' := hplaces.mpr hunit
    change (scale f64 base left (f64 b) 0).2 = 0 at hunit
    refine ⟨hplaces', ?_⟩
    have hstart := scale_start hunit
    rw [hshown, hunit, hplaces', hstart, f64_of_unit hbase hsmall hpos hb hunit]
    simp [quantity, mantissa, hr.int]
  · intro hunit
    refine ⟨Nat.one_le_iff_ne_zero.mpr (fun h => hunit.ne' (hplaces.mp h)), ?_⟩
    have hone := one_le_scale rounds_f64 hbase' hunit
    have hpow : (0 : ℚ) < base ^ (scale f64 base left (f64 b) 0).2 := pow_pos hbase' _
    refine (le_mul_of_one_le_left hpow.le hone).trans ?_
    have hupper := (abs_le.mp hvalue).2
    linarith

section
variable (decimal : Bool)

theorem sizeBase_bounds : 0 < sizeBase decimal ∧ sizeBase decimal < 2 ^ 53 := by
  cases decimal <;> simp [sizeBase]

theorem cliSize_near {b : ℤ} (hb : 0 ≤ b) : (cliSize decimal b).Near (sizeBase decimal) b := by
  unfold cliSize
  rw [max_eq_left hb]
  refine near_ofScaled (sizeBase_bounds decimal).1 (sizeBase_bounds decimal).2
    nearest_roundHalfEven (by norm_num) le_rfl hb ?_
  simp [cliPlaces]

theorem panelSize_near {b : ℤ} (hb : 0 ≤ b) :
    (panelSize decimal b).Near (sizeBase decimal) b := by
  unfold panelSize
  rw [abs_of_nonneg hb]
  refine near_ofScaled (sizeBase_bounds decimal).1 (sizeBase_bounds decimal).2
    nearest_round (by norm_num) (by norm_num) hb ?_
  unfold panelPlaces
  split
  · simp [*]
  · split <;> simp [*]

theorem cliSize_mono {a b : ℤ} (h : a ≤ b) :
    (cliSize decimal a).value (sizeBase decimal) ≤
      (cliSize decimal b).value (sizeBase decimal) := by
  have hbase := (sizeBase_bounds decimal).1
  have hbase' : (0 : ℚ) < sizeBase decimal := by exact_mod_cast hbase
  have hcount : ∀ c : ℤ, (0 : ℚ) ≤ (max c 0 : ℤ) := fun c => by
    exact_mod_cast le_max_right c 0
  have hmax : f64 (max a 0 : ℤ) ≤ f64 (max b 0 : ℤ) :=
    f64_mono (hcount a) (by exact_mod_cast max_le_max_right 0 h)
  have hnonneg : ∀ c : ℤ, 0 ≤ (scale f64 (sizeBase decimal) 5 (f64 (max c 0 : ℤ)) 0).1 := fun c =>
    scale_nonneg rounds_f64 hbase' (f64_nonneg (hcount c)) 5 0
  have hmono := quantity_mono nearest_roundHalfEven rounds_f64 hbase (f64_nonneg (hcount a)) hmax
    5 cliPlaces
  rwa [← value_ofScaled nearest_roundHalfEven _ _ (hnonneg a),
    ← value_ofScaled nearest_roundHalfEven _ _ (hnonneg b)] at hmono

theorem panelSize_unit {b : ℤ} (hb : 0 ≤ b)
    (hlt : (1 + 1 / 2 ^ 50) * (b : ℚ) < (sizeBase decimal : ℚ) ^ 5) :
    (panelSize decimal b).unit = (cliSize decimal b).unit := by
  have hunit : (cliSize decimal b).unit < 5 := by
    by_contra hge
    have htop := ((cliSize_near decimal hb).tenth (by omega)).2
    have hle := pow_le_pow_right₀ (show (1 : ℚ) ≤ sizeBase decimal by
      exact_mod_cast (sizeBase_bounds decimal).1) (not_lt.mp hge)
    linarith
  unfold panelSize
  unfold cliSize at hunit ⊢
  rw [max_eq_left hb] at hunit ⊢
  rw [abs_of_nonneg hb]
  dsimp only at hunit ⊢
  rw [scale_left (show _ ≤ 0 + 4 from Nat.lt_succ_iff.mp hunit)]

end

/-- Every count is written within half a unit of the last place and a part in 2^50, a larger
one never as less; as far below 1024^5 (or 1000^5) the panel picks the unit of the CLI. -/
theorem sizes_faithful (decimal : Bool) {a b : ℤ} (ha : 0 ≤ a) (hab : a ≤ b) :
    fmtBytes b decimal = (cliSize decimal b).text (cliUnits decimal) ∧
      (cliSize decimal b).Near (sizeBase decimal) b ∧
      (cliSize decimal a).value (sizeBase decimal) ≤
        (cliSize decimal b).value (sizeBase decimal) ∧
      formatBytes (some b) decimal = (panelSize decimal b).text (panelUnits decimal) ∧
      (panelSize decimal b).Near (sizeBase decimal) b ∧
      ((1 + 1 / 2 ^ 50) * (b : ℚ) < (sizeBase decimal : ℚ) ^ 5 →
        (panelSize decimal b).unit = (cliSize decimal b).unit) := by
  have hb := ha.trans hab
  exact ⟨fmtBytes_eq b decimal, cliSize_near decimal hb, cliSize_mono decimal hab,
    formatBytes_eq hb decimal, panelSize_near decimal hb, panelSize_unit decimal hb⟩

theorem sizes_faithful_mib :
    (cliSize false 1048575).value 1024 ≤ (cliSize false 1572864).value 1024 ∧
      (panelSize false 1572864).unit = (cliSize false 1572864).unit := by
  have h := sizes_faithful false (a := 1048575) (b := 1572864) (by norm_num) (by norm_num)
  exact ⟨by simpa [sizeBase] using h.2.2.1, h.2.2.2.2.2 (by norm_num [sizeBase])⟩

-- nearer 1.01 and 1234.1, but for the divisions
example : formatBytes (some 1005) true = "1.00 kB" := by decide +kernel

example : fmtBytes 1234050000000000001 true = "1234.0 PB" := by decide +kernel

end Netmeter
