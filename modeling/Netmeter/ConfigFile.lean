import Netmeter.Config
import Netmeter.Lib.Table
import Netmeter.Lib.Text
set_option autoImplicit false

/-!
The configuration files: the layers `Config::load` merges and decodes, and
`config set`, which writes into one of them.
-/

namespace Netmeter
open Keyed Text

structure F64 (F : Type) where
  ofI64 : ℤ → F
  fromStr : String → Option F

inductive Toml (F : Type) where
  | str (s : String)
  | int (n : ℤ)
  | float (x : F)
  | bool (b : Bool)
  | datetime (text : String)
  | arr (items : List (Toml F))
  | table (fields : List (String × Toml F))

structure TomlText (F : Type) where
  fromStr : String → Option (Table String (Toml F))
  toStringPretty : Table String (Toml F) → Option String

inductive Kind where
  | u64 | i64 | f64 | bool | string | strings
  deriving DecidableEq, Repr

def Kind.Val (F : Type) : Kind → Type
  | .u64 => ℕ
  | .i64 => ℤ
  | .f64 => F
  | .bool => Bool
  | .string => String
  | .strings => List String

variable {F : Type}

namespace Toml

def asU64 : Toml F → Option ℕ
  | .int n => if 0 ≤ n then some n.toNat else none
  | _ => none

def asI64 : Toml F → Option ℤ
  | .int n => some n
  | _ => none

def asF64 (fl : F64 F) : Toml F → Option F
  | .float x => some x
  | .int n => some (fl.ofI64 n)
  | _ => none

def asBool : Toml F → Option Bool
  | .bool b => some b
  | _ => none

def asStr : Toml F → Option String
  | .str s => some s
  | _ => none

def asStrs : Toml F → Option (List String)
  | .arr items => items.mapM asStr
  | _ => none

end Toml

def Kind.decode (fl : F64 F) : (k : Kind) → Toml F → Option (k.Val F)
  | .u64 => Toml.asU64
  | .i64 => Toml.asI64
  | .f64 => Toml.asF64 fl
  | .bool => Toml.asBool
  | .string => Toml.asStr
  | .strings => Toml.asStrs

def Kind.encode : (k : Kind) → k.Val F → Toml F
  | .u64, (n : ℕ) => .int n
  | .i64, n => .int n
  | .f64, x => .float x
  | .bool, b => .bool b
  | .string, s => .str s
  | .strings, l => .arr (l.map Toml.str)

inductive Field where
  | pollIntervalSec | databasePath | units | timezone | excludeIfaces | lanSubnets
  | forceLanIfaces | retentionDaysRaw | retentionDaysHourly | procRetentionDays | procRecording
  | maxRateMbit | budgetPeriod | budgetGb | budgetBasis | notifyOnBudget
  deriving DecidableEq, Repr

namespace Field

def all : List Field :=
  [.pollIntervalSec, .databasePath, .units, .timezone, .excludeIfaces, .lanSubnets,
    .forceLanIfaces, .retentionDaysRaw, .retentionDaysHourly, .procRetentionDays, .procRecording,
    .maxRateMbit, .budgetPeriod, .budgetGb, .budgetBasis, .notifyOnBudget]

def name : Field → String
  | .pollIntervalSec => "poll_interval_sec"
  | .databasePath => "database_path"
  | .units => "units"
  | .timezone => "timezone"
  | .excludeIfaces => "exclude_ifaces"
  | .lanSubnets => "lan_subnets"
  | .forceLanIfaces => "force_lan_ifaces"
  | .retentionDaysRaw => "retention_days_raw"
  | .retentionDaysHourly => "retention_days_hourly"
  | .procRetentionDays => "proc_retention_days"
  | .procRecording => "proc_recording"
  | .maxRateMbit => "max_rate_mbit"
  | .budgetPeriod => "budget_period"
  | .budgetGb => "budget_gb"
  | .budgetBasis => "budget_basis"
  | .notifyOnBudget => "notify_on_budget"

def kind : Field → Kind
  | .pollIntervalSec | .maxRateMbit => .u64
  | .databasePath | .units | .timezone | .budgetPeriod | .budgetBasis => .string
  | .excludeIfaces | .lanSubnets | .forceLanIfaces => .strings
  | .retentionDaysRaw | .retentionDaysHourly | .procRetentionDays => .i64
  | .procRecording | .notifyOnBudget => .bool
  | .budgetGb => .f64

end Field

abbrev Settings (F : Type) := (f : Field) → f.kind.Val F

def Settings.default (fl : F64 F) : Settings F
  | .pollIntervalSec => (5 : ℕ)
  | .databasePath => "/var/lib/netmeter/netmeter.db"
  | .units => "binary"
  | .timezone => "local"
  | .excludeIfaces => ["lo", "docker*", "veth*", "br-*", "virbr*"]
  | .lanSubnets => ["10.0.0.0/8", "172.16.0.0/12", "192.168.0.0/16", "fe80::/10", "fc00::/7"]
  | .forceLanIfaces => ["tailscale0*", "zt*"]
  | .retentionDaysRaw => (30 : ℤ)
  | .retentionDaysHourly => (365 : ℤ)
  | .procRetentionDays => (30 : ℤ)
  | .procRecording => true
  | .maxRateMbit => (10000 : ℕ)
  | .budgetPeriod => "month"
  | .budgetGb => fl.ofI64 0
  | .budgetBasis => "total"
  | .notifyOnBudget => true

/-- The fields the daemon and the viewers compute with, `f64` taken exactly. -/
def Settings.config (cfg : Settings ℚ) : Config where
  pollIntervalSec := cfg .pollIntervalSec
  timezone := cfg .timezone
  excludeIfaces := cfg .excludeIfaces
  forceLanIfaces := cfg .forceLanIfaces
  retentionDaysRaw := cfg .retentionDaysRaw
  retentionDaysHourly := cfg .retentionDaysHourly
  procRetentionDays := cfg .procRetentionDays
  procRecording := cfg .procRecording
  maxRateMbit := cfg .maxRateMbit
  budgetPeriod := cfg .budgetPeriod
  budgetGb := cfg .budgetGb
  budgetBasis := cfg .budgetBasis
  notifyOnBudget := cfg .notifyOnBudget

theorem config_default {fl : F64 ℚ} (h : fl.ofI64 0 = 0) : (Settings.default fl).config = {} := by
  show ({ budgetGb := fl.ofI64 0 } : Config) = {}
  rw [h]

def Settings.toToml (cfg : Settings F) : Table String (Toml F) :=
  (∅ : Table String (Toml F)).setAll (Field.all.map (fun f => (f.name, f.kind.encode (cfg f))))

def parseI64 (s : String) : Option ℤ :=
  match s.toList with
  | '-' :: digits =>
    if digits.head? = some '+' then none
    else (fromStrRadix 10 (2 ^ 63 + 1) digits).map (fun n => -(n : ℤ))
  | digits => (fromStrRadix 10 (2 ^ 63) digits).map (fun n => (n : ℤ))

def parseU64 (s : String) : Option ℕ := fromStrRadix 10 (2 ^ 64) s.toList

structure ConfigFiles where
  system : Option String
  user : Option String

/-- `std::fs::write` truncates the file as it opens it: a write that fails after that
leaves the first bytes of the text. -/
inductive WriteRun where
  | done
  | notOpened
  | torn (bytes : ℕ)
  deriving DecidableEq, Repr

/-- Who runs the program and where: root or not, the home that leads to the user's file,
the environment, and how creating the directory and writing the file go. -/
structure Host where
  root : Bool
  home : Option String
  env : String → Option String
  dirOk : Bool
  write : WriteRun

def mergeValue (base part : Table String (Toml F)) : Table String (Toml F) :=
  base.setAll part.rows

def mergeLayer (val : Table String (Toml F)) : Option (Table String (Toml F)) →
    Table String (Toml F)
  | some part => mergeValue val part
  | none => val

section
variable (fl : F64 F) (toml : TomlText F)

def parsed (text : Option String) : Option (Table String (Toml F)) := text.bind toml.fromStr

/-- Defaults below the system file below the user file; a file that cannot be
read or parsed counts for nothing. -/
def mergedValue (host : Host) (files : ConfigFiles) : Table String (Toml F) :=
  let layers := files.system :: if host.home.isSome then [files.user] else []
  layers.foldl (fun val text => mergeLayer val (parsed toml text)) (Settings.default fl).toToml

def decodeField (val : Table String (Toml F)) (f : Field) : Option (f.kind.Val F) :=
  match val.lookup f.name with
  | some v => f.kind.decode fl v
  | none => some (Settings.default fl f)

theorem Field.mem_all (f : Field) : f ∈ Field.all := by cases f <;> decide

def tryInto (val : Table String (Toml F)) : Option (Settings F) :=
  if h : ∀ f ∈ Field.all, (decodeField fl val f).isSome = true then
    some (fun f => (decodeField fl val f).get (h f (Field.mem_all f)))
  else none

end

def strEnv (v : Option String) (dst : String) : String := v.getD dst

def numEnv {α : Type} (fromStr : String → Option α) (v : Option String) (dst : α) : α :=
  (v.bind fromStr).getD dst

def makeAsciiLowercase (s : String) : String := String.ofList (s.toList.map Char.toLower)

def clampPoll (n : ℕ) : ℕ := max 1 (min n 60)

/-- The `NETMETER_*` overrides, the clamp of the poll interval, and lower case for
the enumerations. -/
def finishField (fl : F64 F) (env : String → Option String) :
    (f : Field) → f.kind.Val F → f.kind.Val F
  | .databasePath, s => strEnv (env "NETMETER_DATABASE_PATH") s
  | .pollIntervalSec, n => clampPoll (numEnv parseU64 (env "NETMETER_POLL_INTERVAL_SEC") n)
  | .units, s => makeAsciiLowercase (strEnv (env "NETMETER_UNITS") s)
  | .budgetGb, x => numEnv fl.fromStr (env "NETMETER_BUDGET_GB") x
  | .budgetPeriod, s => makeAsciiLowercase (strEnv (env "NETMETER_BUDGET_PERIOD") s)
  | .timezone, s => makeAsciiLowercase s
  | .budgetBasis, s => makeAsciiLowercase s
  | .excludeIfaces, l => l
  | .lanSubnets, l => l
  | .forceLanIfaces, l => l
  | .retentionDaysRaw, n => n
  | .retentionDaysHourly, n => n
  | .procRetentionDays, n => n
  | .procRecording, b => b
  | .maxRateMbit, n => n
  | .notifyOnBudget, b => b

def finish (fl : F64 F) (env : String → Option String) (cfg : Settings F) : Settings F :=
  fun f => finishField fl env f (cfg f)

def Settings.load (fl : F64 F) (toml : TomlText F) (host : Host) (files : ConfigFiles) :
    Option (Settings F) :=
  (tryInto fl (mergedValue fl toml host files)).map (finish fl host.env)

/-! ## `config set` -/

def guess (fl : F64 F) (value : String) : Toml F :=
  match parseI64 value with
  | some n => .int n
  | none =>
    match fl.fromStr value with
    | some x => .float x
    | none =>
      if value = "true" ∨ value = "false" then .bool (value = "true") else .str value

inductive ConfigError where
  | load
  | noUserDir
  | createDir
  | serialize
  | openFile
  | write
  deriving DecidableEq, Repr

/-- The file `config set` writes: root the system's, anyone else their own. -/
def ConfigFiles.target (host : Host) (files : ConfigFiles) : Option String :=
  if host.root then files.system else files.user

def ConfigFiles.withTarget (host : Host) (files : ConfigFiles) (text : Option String) :
    ConfigFiles :=
  if host.root then { files with system := text } else { files with user := text }

/-- What can be read of a file that holds the first bytes of a text: nothing where they end
within a character. -/
def beginning (bytes : ℕ) (text : String) : Option String :=
  (takeBytes (min bytes (byteLen text.toList)) text.toList).map String.ofList

section
variable (fl : F64 F) (toml : TomlText F)

/-- What the target file becomes; one that is unreadable or no TOML starts empty. -/
def newTable (host : Host) (key value : String) (files : ConfigFiles) :
    Table String (Toml F) :=
  ((parsed toml (files.target host)).getD ∅).set key (guess fl value)

def cmdConfigSet (host : Host) (key value : String) (files : ConfigFiles) :
    ConfigFiles × Except ConfigError Unit :=
  match Settings.load fl toml host files with
  | none => (files, .error .load)
  | some _ =>
    if !host.root && host.home.isNone then (files, .error .noUserDir)
    else if !host.dirOk then (files, .error .createDir)
    else
      match toml.toStringPretty (newTable fl toml host key value files) with
      | none => (files, .error .serialize)
      | some text =>
        match host.write with
        | .notOpened => (files, .error .openFile)
        | .torn bytes => (files.withTarget host (beginning bytes text), .error .write)
        | .done => (files.withTarget host (some text), .ok ())

end

def layerAt (layer : Option (Table String (Toml F))) (n : String) : Option (Toml F) :=
  layer.bind (fun part => part.lookup n)

theorem lookup_mergeLayer (val : Table String (Toml F)) (layer : Option (Table String (Toml F)))
    (n : String) : (mergeLayer val layer).lookup n = (layerAt layer n).or (val.lookup n) := by
  cases layer with
  | none => rfl
  | some part =>
    show (val.setAll part.rows).lookup n = (part.lookup n).or (val.lookup n)
    rw [Table.lookup_setAll, Table.lastValue_rows]

section
variable (fl : F64 F) (toml : TomlText F)

def userLayer (host : Host) (files : ConfigFiles) : Option (Table String (Toml F)) :=
  if host.home.isSome then parsed toml files.user else none

theorem lookup_mergedValue (host : Host) (files : ConfigFiles) (n : String) :
    (mergedValue fl toml host files).lookup n =
      (layerAt (userLayer toml host files) n).or ((layerAt (parsed toml files.system) n).or
        ((Settings.default fl).toToml.lookup n)) := by
  unfold mergedValue userLayer
  cases host.home.isSome <;> simp [lookup_mergeLayer, layerAt]

variable {fl toml}

theorem tryInto_eq_some {val : Table String (Toml F)} {raw : Settings F} :
    tryInto fl val = some raw ↔ ∀ f, decodeField fl val f = some (raw f) := by
  unfold tryInto
  constructor
  · intro h f
    split at h
    · obtain rfl := Option.some.inj h
      simp
    · simp at h
  · intro h
    have hall : ∀ f ∈ Field.all, (decodeField fl val f).isSome = true := fun f _ => by simp [h]
    rw [dif_pos hall]
    simp [h]

theorem load_eq_some {host : Host} {files : ConfigFiles} {cfg : Settings F} :
    Settings.load fl toml host files = some cfg ↔
      ∃ raw, (∀ f, decodeField fl (mergedValue fl toml host files) f = some (raw f)) ∧
        cfg = finish fl host.env raw := by
  unfold Settings.load
  simp only [Option.map_eq_some_iff, tryInto_eq_some, eq_comm]

theorem Kind.decode_encode (fl : F64 F) (k : Kind) (v : k.Val F) :
    k.decode fl (k.encode v) = some v := by
  cases k with
  | u64 =>
    have hnat : ∀ n : ℕ, Toml.asU64 (.int n : Toml F) = some n := fun n => by simp [Toml.asU64]
    exact hnat v
  | i64 => rfl
  | f64 => rfl
  | bool => rfl
  | string => rfl
  | strings =>
    show (List.map Toml.str v).mapM Toml.asStr = some v
    induction (show List String from v) with
    | nil => rfl
    | cons s l ih =>
      rw [List.map_cons, List.mapM_cons, ih]
      rfl

theorem lookup_toToml (cfg : Settings F) (f : Field) :
    cfg.toToml.lookup f.name = some (f.kind.encode (cfg f)) := by
  have hlast : Table.lastValue f.name (Field.all.map (fun f => (f.name, f.kind.encode (cfg f)))) =
      some (f.kind.encode (cfg f)) := by
    cases f <;> simp [Table.lastValue, Field.all, Field.name]
  unfold Settings.toToml
  rw [Table.lookup_setAll, hlast]
  rfl

/-- Without files and overrides the defaults are loaded: each passes its own check. -/
theorem load_default {host : Host} (hno : ∀ n, host.env n = none) :
    Settings.load fl toml host ⟨none, none⟩ = some (Settings.default fl) := by
  refine load_eq_some.mpr ⟨Settings.default fl, fun f => ?_, ?_⟩
  · have hlookup : (mergedValue fl toml host ⟨none, none⟩).lookup f.name =
        some (f.kind.encode (Settings.default fl f)) := by
      rw [lookup_mergedValue, lookup_toToml]
      unfold userLayer
      split <;> rfl
    unfold decodeField
    rw [hlookup]
    exact Kind.decode_encode fl _ _
  · funext f
    cases f with
    | units =>
      simp only [finish, finishField, hno]
      show "binary" = makeAsciiLowercase "binary"
      decide
    | timezone =>
      show "local" = makeAsciiLowercase "local"
      decide
    | budgetPeriod =>
      simp only [finish, finishField, hno]
      show "month" = makeAsciiLowercase "month"
      decide
    | budgetBasis =>
      show "total" = makeAsciiLowercase "total"
      decide
    | _ => simp only [finish, finishField, hno] <;> rfl

/-! ## Setting a key -/

/-- The value's guessed type is one the declared type accepts. -/
def Kind.Fits (fl : F64 F) (value : String) : Kind → Prop
  | .u64 => ∃ n, parseI64 value = some n ∧ 0 ≤ n
  | .i64 => (parseI64 value).isSome = true
  | .f64 => (parseI64 value).isSome = true ∨ (fl.fromStr value).isSome = true
  | .bool => parseI64 value = none ∧ fl.fromStr value = none ∧ (value = "true" ∨ value = "false")
  | .string =>
    parseI64 value = none ∧ fl.fromStr value = none ∧ ¬ (value = "true" ∨ value = "false")
  | .strings => False

theorem guess_cases (fl : F64 F) (value : String) :
    (∃ n, parseI64 value = some n ∧ guess fl value = .int n) ∨
    (parseI64 value = none ∧ ∃ x, fl.fromStr value = some x ∧ guess fl value = .float x) ∨
    (parseI64 value = none ∧ fl.fromStr value = none ∧
      ((value = "true" ∨ value = "false") ∧ guess fl value = .bool (value = "true") ∨
        ¬ (value = "true" ∨ value = "false") ∧ guess fl value = .str value)) := by
  unfold guess
  cases parseI64 value with
  | some n => exact .inl ⟨n, rfl, rfl⟩
  | none =>
    cases fl.fromStr value with
    | some x => exact .inr (.inl ⟨rfl, x, rfl, rfl⟩)
    | none =>
      by_cases hb : value = "true" ∨ value = "false"
      · exact .inr (.inr ⟨rfl, rfl, .inl ⟨hb, if_pos hb⟩⟩)
      · exact .inr (.inr ⟨rfl, rfl, .inr ⟨hb, if_neg hb⟩⟩)

theorem Kind.isSome_decode (fl : F64 F) (k : Kind) (v : Toml F) :
    (k.decode fl v).isSome = match k with
      | .u64 => v.asU64.isSome
      | .i64 => v.asI64.isSome
      | .f64 => (v.asF64 fl).isSome
      | .bool => v.asBool.isSome
      | .string => v.asStr.isSome
      | .strings => v.asStrs.isSome := by
  cases k <;> rfl

theorem decode_guess (k : Kind) (value : String) :
    (k.decode fl (guess fl value)).isSome = true ↔ k.Fits fl value := by
  rw [Kind.isSome_decode]
  rcases guess_cases fl value with ⟨n, hn, hg⟩ | ⟨hn, x, hx, hg⟩ |
    ⟨hn, hx, ⟨hb, hg⟩ | ⟨hb, hg⟩⟩ <;> rw [hg]
  · cases k with
    | u64 => by_cases hpos : 0 ≤ n <;> simp [Toml.asU64, Kind.Fits, hn, hpos]
    | _ => simp [Toml.asI64, Toml.asF64, Toml.asBool, Toml.asStr, Toml.asStrs, Kind.Fits, hn]
  · cases k <;> simp [Toml.asU64, Toml.asI64, Toml.asF64, Toml.asBool, Toml.asStr, Toml.asStrs,
      Kind.Fits, hn, hx]
  · cases k <;> simp [Toml.asU64, Toml.asI64, Toml.asF64, Toml.asBool, Toml.asStr, Toml.asStrs,
      Kind.Fits, hn, hx, hb]
  · cases k <;> simp [Toml.asU64, Toml.asI64, Toml.asF64, Toml.asBool, Toml.asStr, Toml.asStrs,
      Kind.Fits, hn, hx, hb]

@[ext] structure Disk where
  system : Option String
  users : String → Option String

namespace Disk

def files (d : Disk) (home : Option String) : ConfigFiles := ⟨d.system, home.bind d.users⟩

def put (d : Disk) (home : Option String) (files : ConfigFiles) : Disk where
  system := files.system
  users := match home with
    | some h => Function.update d.users h files.user
    | none => d.users

def replaced (d : Disk) (host : Host) (text : Option String) : Disk :=
  d.put host.home ((d.files host.home).withTarget host text)

end Disk

section
variable (fl toml)
variable (host : Host) (key value : String) (d : Disk)

def Opens (files : ConfigFiles) : Prop :=
  (host.root = true ∨ host.home.isSome = true) ∧ host.dirOk = true ∧ host.write ≠ .notOpened ∧
    (toml.toStringPretty (newTable fl toml host key value files)).isSome = true

/-- Whoever's configuration loads from `d` loads it from `d'` too, with every field
but `key` as it was. -/
def KeepsLoading (d d' : Disk) : Prop :=
  ∀ (reader : Host) (cfg : Settings F),
    Settings.load fl toml reader (d.files reader.home) = some cfg →
    ∃ cfg', Settings.load fl toml reader (d'.files reader.home) = some cfg' ∧
      ∀ f : Field, f.name ≠ key → cfg' f = cfg f

/-- The command reports an error and leaves its file alone, or everyone's configuration,
the daemon's among them, loads again with every other field as it was. -/
def SetKeepsLoading : Prop :=
  let out := cmdConfigSet fl toml host key value (d.files host.home)
  ((∃ e, out.2 = .error e) ∧ out.1.target host = (d.files host.home).target host) ∨
    KeepsLoading fl toml key d (d.put host.home out.1)

/-- The value fits the declared type of the field that `key` names, where it names one, or
root sets it and everyone whose configuration loads has it in a file of their own. -/
def SafeValue : Prop :=
  ∀ f : Field, f.name = key → f.kind.Fits fl value ∨
    host.root = true ∧ ∀ (reader : Host) (cfg : Settings F),
      Settings.load fl toml reader (d.files reader.home) = some cfg →
      (layerAt (userLayer toml reader (d.files reader.home)) key).isSome = true

/-- The first `bytes` of the new text are all that the file held before, or whoever's
configuration loaded still reads a value of its type for each field, and for each but `key`
the value it had. -/
def SafeBeginning (bytes : ℕ) : Prop :=
  let left := (toml.toStringPretty (newTable fl toml host key value (d.files host.home))).bind
    (beginning bytes)
  left = (d.files host.home).target host ∨
    ∀ (reader : Host) (cfg : Settings F),
      Settings.load fl toml reader (d.files reader.home) = some cfg → ∀ f : Field,
      ∃ v, decodeField fl (mergedValue fl toml reader
          ((d.replaced host left).files reader.home)) f = some v ∧
        (f.name ≠ key → finishField fl reader.env f v = cfg f)

end

variable {host : Host} {key value : String} {files : ConfigFiles} {d : Disk}

theorem put_files (d : Disk) (home : Option String) : d.put home (d.files home) = d := by
  cases home with
  | none => rfl
  | some h =>
    ext1
    · rfl
    · exact Function.update_eq_self h d.users

theorem target_withTarget (host : Host) (files : ConfigFiles) (text : Option String) :
    (files.withTarget host text).target host = text := by
  unfold ConfigFiles.withTarget ConfigFiles.target
  cases host.root <;> rfl

theorem cmdConfigSet_unopened {cfg : Settings F}
    (hload : Settings.load fl toml host files = some cfg)
    (h : ¬ Opens fl toml host key value files) :
    ∃ e, cmdConfigSet fl toml host key value files = (files, .error e) ∧ e ≠ .write := by
  unfold cmdConfigSet
  rw [hload]
  cases hguard : (!host.root && host.home.isNone) with
  | true => exact ⟨.noUserDir, rfl, by decide⟩
  | false =>
    cases hdir : host.dirOk with
    | false => exact ⟨.createDir, rfl, by decide⟩
    | true =>
      cases htext : toml.toStringPretty (newTable fl toml host key value files) with
      | none => exact ⟨.serialize, by simp, by decide⟩
      | some text =>
        have hpath : host.root = true ∨ host.home.isSome = true := by
          cases hroot : host.root with
          | true => exact .inl rfl
          | false => exact .inr (by simpa [hroot, Option.isSome_iff_ne_none] using hguard)
        have hwrite : host.write = .notOpened := by
          by_contra hne
          exact h ⟨hpath, hdir, hne, by simp [htext]⟩
        exact ⟨.openFile, by simp [hwrite], by decide⟩

theorem cmdConfigSet_opened {cfg : Settings F}
    (hload : Settings.load fl toml host files = some cfg)
    (h : Opens fl toml host key value files) :
    ∃ text, toml.toStringPretty (newTable fl toml host key value files) = some text ∧
      cmdConfigSet fl toml host key value files =
        match host.write with
        | .torn bytes => (files.withTarget host (beginning bytes text), .error .write)
        | _ => (files.withTarget host (some text), .ok ()) := by
  obtain ⟨hpath, hdir, hwrite, hprint⟩ := h
  obtain ⟨text, htext⟩ := Option.isSome_iff_exists.mp hprint
  refine ⟨text, htext, ?_⟩
  have hguard : (!host.root && host.home.isNone) = false := by
    rcases hpath with h | h
    · simp [h]
    · simp [Option.isNone_eq_false_iff.mpr h]
  cases hrun : host.write with
  | notOpened => exact absurd hrun hwrite
  | done => simp [cmdConfigSet, hload, hguard, hdir, hrun, htext]
  | torn bytes => simp [cmdConfigSet, hload, hguard, hdir, hrun, htext]

theorem keepsLoading_iff {d' : Disk} : KeepsLoading fl toml key d d' ↔
    ∀ (reader : Host) (cfg : Settings F),
      Settings.load fl toml reader (d.files reader.home) = some cfg → ∀ f : Field,
      ∃ v, decodeField fl (mergedValue fl toml reader (d'.files reader.home)) f = some v ∧
        (f.name ≠ key → finishField fl reader.env f v = cfg f) := by
  refine forall_congr' (fun reader => forall_congr' (fun cfg => forall_congr' (fun _ => ?_)))
  constructor
  · rintro ⟨cfg', hcfg', hsame⟩ f
    obtain ⟨raw, hraw, rfl⟩ := load_eq_some.mp hcfg'
    exact ⟨raw f, hraw f, hsame f⟩
  · intro h
    choose raw hraw hsame using h
    exact ⟨finish fl reader.env raw, load_eq_some.mpr ⟨raw, hraw, rfl⟩, hsame⟩

theorem lookup_newTable (n : String) : (newTable fl toml host key value files).lookup n =
    if n = key then some (guess fl value) else layerAt (parsed toml (files.target host)) n := by
  unfold newTable
  rw [Table.lookup_set]
  split
  · rfl
  · cases parsed toml (files.target host) <;> rfl

/-- Whom the written file is read by: everyone, where root has written the system's. -/
def ReadsTarget (host reader : Host) : Prop := host.root = true ∨ reader.home = host.home

/-- Only `key` reads differently afterwards: as the guessed value, unless root
has written below a user file that sets it. -/
theorem lookup_afterSet {text : String}
    (htext : toml.fromStr text = some (newTable fl toml host key value (d.files host.home)))
    (hpath : host.root = true ∨ host.home.isSome = true) {reader : Host}
    (hreads : ReadsTarget host reader) (n : String) :
    (mergedValue fl toml reader ((d.replaced host (some text)).files reader.home)).lookup n =
      if n = key then
        (if host.root then layerAt (userLayer toml reader (d.files reader.home)) key else none).or
          (some (guess fl value))
      else (mergedValue fl toml reader (d.files reader.home)).lookup n := by
  rw [lookup_mergedValue, lookup_mergedValue]
  cases hroot : host.root with
  | true =>
    have hfiles : (d.replaced host (some text)).files reader.home =
        ⟨some text, (d.files reader.home).user⟩ := by
      have hput : d.replaced host (some text) = { d with system := some text } := by
        unfold Disk.replaced ConfigFiles.withTarget
        rw [hroot]
        exact put_files { d with system := some text } host.home
      rw [hput]
      rfl
    have hsystem : layerAt (parsed toml (some text)) n =
        (newTable fl toml host key value (d.files host.home)).lookup n := by
      simp [parsed, htext, layerAt]
    have huser : userLayer toml reader ⟨some text, (d.files reader.home).user⟩ =
        userLayer toml reader (d.files reader.home) := rfl
    rw [hfiles, huser, hsystem, lookup_newTable]
    split
    · next hn => simp [hn]
    · simp [ConfigFiles.target, hroot, Disk.files]
  | false =>
    have hhome : reader.home = host.home := by simpa [ReadsTarget, hroot] using hreads
    obtain ⟨h, hh⟩ := Option.isSome_iff_exists.mp (show host.home.isSome = true by
      simpa [hroot] using hpath)
    have hfiles : (d.replaced host (some text)).files reader.home = ⟨d.system, some text⟩ := by
      simp [Disk.replaced, Disk.put, Disk.files, ConfigFiles.withTarget, hroot, hhome, hh]
    have huser : layerAt (userLayer toml reader ⟨d.system, some text⟩) n =
        (newTable fl toml host key value (d.files host.home)).lookup n := by
      simp [userLayer, hhome, hh, parsed, htext, layerAt]
    rw [hfiles, huser, lookup_newTable]
    split
    · simp
    · simp [ConfigFiles.target, hroot, userLayer, hhome, hh, Disk.files]

theorem files_replaced {reader : Host} (hreads : ¬ ReadsTarget host reader)
    (text : Option String) :
    (d.replaced host text).files reader.home = d.files reader.home := by
  obtain ⟨hroot, hhome⟩ := not_or.mp hreads
  have hsystem : (d.replaced host text).system = d.system := by
    simp [Disk.replaced, Disk.put, Disk.files, ConfigFiles.withTarget, hroot]
  have husers : reader.home.bind (d.replaced host text).users = reader.home.bind d.users := by
    unfold Disk.replaced Disk.put
    cases hr : reader.home with
    | none => rfl
    | some h =>
      cases hh : host.home with
      | none => rfl
      | some h' =>
        refine Function.update_of_ne (fun e => hhome ?_) _ _
        rw [hr, hh, e]
  unfold Disk.files
  rw [hsystem, husers]

theorem decodeField_congr {val val' : Table String (Toml F)} {f : Field}
    (h : val.lookup f.name = val'.lookup f.name) :
    decodeField fl val f = decodeField fl val' f := by
  unfold decodeField
  rw [h]

theorem decodeField_key {text : String}
    (htext : toml.fromStr text = some (newTable fl toml host key value (d.files host.home)))
    (hpath : host.root = true ∨ host.home.isSome = true) {reader : Host}
    (hreads : ReadsTarget host reader) {cfg : Settings F}
    (hload : Settings.load fl toml reader (d.files reader.home) = some cfg)
    {f : Field} (hf : f.name = key) :
    (decodeField fl (mergedValue fl toml reader
        ((d.replaced host (some text)).files reader.home)) f).isSome = true ↔
      f.kind.Fits fl value ∨ host.root = true ∧
        (layerAt (userLayer toml reader (d.files reader.home)) key).isSome = true := by
  have hset := lookup_afterSet htext hpath hreads f.name
  rw [if_pos hf] at hset
  obtain ⟨raw, hraw, -⟩ := load_eq_some.mp hload
  by_cases hover : host.root = true ∧
      (layerAt (userLayer toml reader (d.files reader.home)) key).isSome = true
  · obtain ⟨hroot, hsome⟩ := hover
    obtain ⟨v, hv⟩ := Option.isSome_iff_exists.mp hsome
    have hsame : decodeField fl (mergedValue fl toml reader
        ((d.replaced host (some text)).files reader.home)) f = some (raw f) := by
      rw [← hraw f]
      refine decodeField_congr ?_
      rw [hset, lookup_mergedValue, hf, hv, if_pos hroot]
      rfl
    refine iff_of_true ?_ (.inr ⟨hroot, hsome⟩)
    rw [hsame]
    rfl
  · have hguess : (mergedValue fl toml reader
        ((d.replaced host (some text)).files reader.home)).lookup f.name =
          some (guess fl value) := by
      rw [hset]
      cases hroot : host.root with
      | false => rfl
      | true =>
        cases hv : layerAt (userLayer toml reader (d.files reader.home)) key with
        | none => rfl
        | some v => exact absurd ⟨hroot, by simp [hv]⟩ hover
    rw [or_iff_left hover, ← decode_guess]
    unfold decodeField
    rw [hguess]

theorem keepsLoading_done {text : String}
    (htext : toml.fromStr text = some (newTable fl toml host key value (d.files host.home)))
    (hpath : host.root = true ∨ host.home.isSome = true) {cfg : Settings F}
    (hload : Settings.load fl toml host (d.files host.home) = some cfg) :
    KeepsLoading fl toml key d (d.replaced host (some text)) ↔
      SafeValue fl toml host key value d := by
  rw [keepsLoading_iff]
  constructor
  · intro h f hf
    by_cases hfits : f.kind.Fits fl value
    · exact .inl hfits
    · have hhidden : ∀ (reader : Host) (cfg : Settings F), ReadsTarget host reader →
          Settings.load fl toml reader (d.files reader.home) = some cfg →
          host.root = true ∧
            (layerAt (userLayer toml reader (d.files reader.home)) key).isSome = true := by
        intro reader cfg hreads hcfg
        obtain ⟨v, hv, -⟩ := h reader cfg hcfg f
        exact ((decodeField_key htext hpath hreads hcfg hf).mp (by rw [hv]; rfl)).resolve_left
          hfits
      have hroot := (hhidden host cfg (.inr rfl) hload).1
      exact .inr ⟨hroot, fun reader cfg hcfg => (hhidden reader cfg (.inl hroot) hcfg).2⟩
  · intro h reader cfg hcfg f
    obtain ⟨raw, hraw, rfl⟩ := load_eq_some.mp hcfg
    by_cases hreads : ReadsTarget host reader
    · by_cases hf : f.name = key
      · have hsafe : f.kind.Fits fl value ∨ host.root = true ∧
            (layerAt (userLayer toml reader (d.files reader.home)) key).isSome = true :=
          (h f hf).imp_right (fun hr => ⟨hr.1, hr.2 reader _ hcfg⟩)
        obtain ⟨v, hv⟩ := Option.isSome_iff_exists.mp
          ((decodeField_key htext hpath hreads hcfg hf).mpr hsafe)
        exact ⟨v, hv, fun hne => absurd hf hne⟩
      · refine ⟨raw f, ?_, fun _ => rfl⟩
        rw [← hraw f]
        refine decodeField_congr ?_
        rw [lookup_afterSet htext hpath hreads, if_neg hf]
    · rw [files_replaced hreads]
      exact ⟨raw f, hraw f, fun _ => rfl⟩

end

def exactF64 : F64 ℚ where
  ofI64 n := n
  fromStr s := (parseI64 s).map (fun n => (n : ℚ))

def unitsText : TomlText ℚ where
  fromStr s :=
    if s = "units = 5\n" then some ((∅ : Table String (Toml ℚ)).set "units" (.int 5))
    else if s = "units = \"decimal\"\n" then
      some ((∅ : Table String (Toml ℚ)).set "units" (.str "decimal"))
    else none
  toStringPretty t := match t.rows with
    | [("units", .int 5)] => some "units = 5\n"
    | [("units", .str "decimal")] => some "units = \"decimal\"\n"
    | _ => none

theorem unitsText_round (t : Table String (Toml ℚ)) (text : String)
    (h : unitsText.toStringPretty t = some text) : unitsText.fromStr text = some t := by
  unfold unitsText at h ⊢
  dsimp only at h ⊢
  split at h
  · next hrows =>
    obtain rfl := Option.some.inj h
    rw [if_pos rfl]
    exact congrArg some (Table.ext hrows.symm)
  · next hrows =>
    obtain rfl := Option.some.inj h
    rw [if_neg (by decide), if_pos rfl]
    exact congrArg some (Table.ext hrows.symm)
  · simp at h

def plainHost : Host where
  root := false
  home := some "/home/a"
  env _ := none
  dirOk := true
  write := .done

def noFiles : Disk := ⟨none, fun _ => none⟩

end Netmeter
