import Netmeter.Daemon
import Netmeter.Lib.Text
set_option autoImplicit false

/-! `parse_proc` of `capture.rs`, and the tables of `/proc/net/dev` it reads. -/

namespace Netmeter
open Keyed Text

/-- A column that does not read as a number counts zero. -/
def column (rest : List (List Char)) (i : ℕ) : UInt64 :=
  .ofNat ((fromStrRadix 10 (2^64) (rest.getD i [])).getD 0)

def parseLine (line : List Char) : Option (String × (UInt64 × UInt64)) :=
  match splitOnce ':' line with
  | none => none
  | some (iface, tail) =>
    let rest := splitWhitespace tail
    if rest.length < 16 then none
    else some (.ofList (trim iface), (column rest 0, column rest 8))

/-- The first two lines are headers. -/
def parseProc (text : List Char) : Table String (UInt64 × UInt64) :=
  Table.setAll ∅ (((lines text).drop 2).filterMap parseLine)

example : (parseProc ("h1\nh2\neth0: 1 2\nno_colon_here\n" ++
    "eth1: 5 0 0 0 0 0 0 0 7 0 0 0 0 0 0 0\n").toList).rows = [("eth1", (5, 7))] := by
  decide +kernel

structure NetDev where
  name : String
  columns : List UInt64
  named : name.toList ≠ [] ∧ ∀ c ∈ name.toList, c ≠ ':' ∧ isWhitespace c = false
  counted : 16 ≤ columns.length

def NetDev.totals (d : NetDev) : UInt64 × UInt64 := (d.columns.getD 0 0, d.columns.getD 8 0)

/-- No colon, or fewer than 16 columns after it. -/
def Short (line : List Char) : Prop :=
  ':' ∉ line ∨ (splitWhitespace (line.dropWhile (· ≠ ':')).tail).length < 16

instance (line : List Char) : Decidable (Short line) := inferInstanceAs (Decidable (_ ∨ _))

/-- A line after the headers: an interface with the spaces before its name, the
whitespace after the colon and the further spaces between its columns, or a line
that is none. -/
inductive DevLine where
  | iface (lead : ℕ) (d : NetDev) (pad : List Char) (gap : ℕ → ℕ)
      (hpad : ∀ c ∈ pad, isWhitespace c = true ∧ c ≠ '\n')
  | extra (line : List Char) (hline : '\n' ∉ line ∧ Short line)

def columnsText (gap : ℕ → ℕ) : List UInt64 → List Char
  | [] => []
  | [c] => Nat.toDigits 10 c.toNat
  | c :: cs =>
    Nat.toDigits 10 c.toNat ++ (List.replicate (gap cs.length + 1) ' ' ++ columnsText gap cs)

namespace DevLine

def text : DevLine → List Char
  | .iface lead d pad gap _ =>
    List.replicate lead ' ' ++ d.name.toList ++ ':' :: (pad ++ columnsText gap d.columns)
  | .extra line _ => line

def dev : DevLine → Option NetDev
  | .iface _ d _ _ _ => some d
  | .extra _ _ => none

end DevLine

def netDevText (header header' : List Char) (ls : List DevLine) : List Char :=
  ['\n'].intercalate (header :: header' :: ls.map DevLine.text)

theorem numeral_column (c : UInt64) : Numeral 10 (Nat.toDigits 10 c.toNat) c.toNat :=
  Numeral.toDigits c.toNat

theorem isWhitespace_replicate {n : ℕ} : ∀ c ∈ List.replicate n ' ', isWhitespace c = true :=
  fun c hc => by rw [List.eq_of_mem_replicate hc]; rfl

theorem notMem_replicate {n : ℕ} {c : Char} (h : c ≠ ' ') : c ∉ List.replicate n ' ' :=
  fun hc => h (List.eq_of_mem_replicate hc)

theorem splitWhitespace_columnsText (gap : ℕ → ℕ) (cs : List UInt64) :
    splitWhitespace (columnsText gap cs) = cs.map (fun c => Nat.toDigits 10 c.toNat) := by
  fun_induction columnsText gap cs with
  | case1 => rfl
  | case2 c =>
    exact splitWhitespace_single (numeral_column c).ne_nil (numeral_column c).not_isWhitespace
  | case3 c cs hne ih =>
    have hpad : ∀ a ∈ ' ' :: List.replicate (gap cs.length) ' ', isWhitespace a = true :=
      isWhitespace_replicate (n := gap cs.length + 1)
    rw [List.replicate_succ, splitWhitespace_word (numeral_column c).ne_nil
      (numeral_column c).not_isWhitespace hpad, ih, List.map_cons]

theorem column_text {cs : List UInt64} {i : ℕ} (h : i < cs.length) :
    column (cs.map (fun c => Nat.toDigits 10 c.toNat)) i = cs.getD i 0 := by
  unfold column
  rw [List.getD_eq_getElem _ _ (by simpa using h), List.getD_eq_getElem _ _ h, List.getElem_map,
    (numeral_column cs[i]).fromStrRadix_eq cs[i].toNat_lt]
  exact UInt64.ofNat_toNat

theorem newline_notMem_columnsText (gap : ℕ → ℕ) (cs : List UInt64) :
    '\n' ∉ columnsText gap cs := by
  fun_induction columnsText gap cs with
  | case1 => exact List.not_mem_nil
  | case2 c => exact (numeral_column c).not_mem (by decide)
  | case3 c cs hne ih =>
    simp only [List.mem_append, not_or]
    exact ⟨(numeral_column c).not_mem (by decide), notMem_replicate (by decide), ih⟩

theorem parseLine_at {left right : List Char} (h : ':' ∉ left) :
    parseLine (left ++ ':' :: right) =
      let rest := splitWhitespace right
      if rest.length < 16 then none
      else some (.ofList (trim left), (column rest 0, column rest 8)) := by
  rw [parseLine, splitOnce_at h]

theorem parseLine_short {line : List Char} (h : Short line) : parseLine line = none := by
  by_cases hc : ':' ∈ line
  · rw [parseLine, splitOnce, if_pos hc]
    rcases h with h | h
    · exact absurd hc h
    · exact if_pos h
  · rw [parseLine, splitOnce, if_neg hc]

theorem parseLine_cr (line : List Char) : parseLine (line ++ ['\r']) = parseLine line := by
  by_cases hc : ':' ∈ line
  · obtain ⟨left, right, rfl, hleft⟩ := List.eq_append_cons_of_mem hc
    rw [List.append_assoc, List.cons_append, parseLine_at hleft, parseLine_at hleft,
      splitWhitespace_concat right (by decide)]
  · rw [parseLine_short (.inl hc), parseLine_short (.inl (by simpa using hc))]

theorem parseLine_text (l : DevLine) :
    parseLine l.text = l.dev.map (fun d => (d.name, d.totals)) := by
  cases l with
  | iface lead d pad gap hpad =>
    obtain ⟨hne, hname⟩ := d.named
    have hlen := d.counted
    have hcolon : ':' ∉ List.replicate lead ' ' ++ d.name.toList := by
      rw [List.mem_append, not_or]
      exact ⟨notMem_replicate (by decide), fun h => (hname ':' h).1 rfl⟩
    have htrim : trim (List.replicate lead ' ' ++ d.name.toList) = d.name.toList :=
      trim_pad isWhitespace_replicate (fun c hc => (hname c hc).2)
    rw [DevLine.text, parseLine_at hcolon, htrim, splitWhitespace_pad (fun c hc => (hpad c hc).1),
      splitWhitespace_columnsText]
    dsimp only
    rw [List.length_map, if_neg (by omega), column_text (by omega), column_text (by omega),
      String.ofList_toList]
    rfl
  | extra line hline => exact parseLine_short hline.2

theorem newline_notMem_text (l : DevLine) : '\n' ∉ l.text := by
  cases l with
  | iface lead d pad gap hpad =>
    simp only [DevLine.text, List.mem_append, List.mem_cons, not_or]
    refine ⟨⟨notMem_replicate (by decide), fun h => ?_⟩, by decide, fun h => (hpad _ h).2 rfl,
      newline_notMem_columnsText gap d.columns⟩
    exact absurd (d.named.2 _ h).2 (by decide)
  | extra line hline => exact hline.1

theorem parseProc_text {header header' : List Char} (h : '\n' ∉ header) (h' : '\n' ∉ header')
    (ls : List DevLine) : parseProc (netDevText header header' ls) =
      Table.setAll ∅ ((ls.filterMap DevLine.dev).map (fun d => (d.name, d.totals))) := by
  have hlines : ∀ l ∈ header :: header' :: ls.map DevLine.text, '\n' ∉ l := by
    simp only [List.forall_mem_cons, List.forall_mem_map]
    exact ⟨h, h', fun l _ => newline_notMem_text l⟩
  rw [parseProc, netDevText, filterMap_lines parseLine_cr rfl hlines]
  congr 1
  rw [List.drop_succ_cons, List.drop_succ_cons, List.drop_zero, List.filterMap_map,
    List.map_filterMap]
  exact List.filterMap_congr (fun l _ => parseLine_text l)

/-- Every interface of the table with its columns 0 and 8, and nothing else. -/
theorem parseProc_recovers {header header' : List Char} (h : '\n' ∉ header)
    (h' : '\n' ∉ header') {ls : List DevLine}
    (hnames : ((ls.filterMap DevLine.dev).map (·.name)).Nodup) (name : String)
    (v : UInt64 × UInt64) :
    (parseProc (netDevText header header' ls)).lookup name = some v ↔
      ∃ d ∈ ls.filterMap DevLine.dev, d.name = name ∧ d.totals = v := by
  have hkeys : (((ls.filterMap DevLine.dev).map
      (fun d => (d.name, d.totals))).map (·.1)).Nodup := by
    rwa [List.map_map]
  have hperm := Table.setAll_perm (t := ∅) hkeys (by simp)
  rw [parseProc_text h h', ← Table.mem_rows, hperm.mem_iff]
  simp

theorem eth1_named :
    "eth1".toList ≠ [] ∧ ∀ c ∈ "eth1".toList, c ≠ ':' ∧ isWhitespace c = false := by
  simp [isWhitespace]

theorem eth1_counted : 16 ≤ [5, 0, 0, 0, 0, 0, 0, 0, 7, 0, 0, 0, 0, 0, 0, 0].length := by simp

def eth1 : NetDev :=
  ⟨"eth1", [5, 0, 0, 0, 0, 0, 0, 0, 7, 0, 0, 0, 0, 0, 0, 0], eth1_named, eth1_counted⟩

theorem short_line : '\n' ∉ "eth0: 1 2".toList ∧ Short "eth0: 1 2".toList :=
  ⟨by decide, .inr (by decide +kernel)⟩

theorem empty_line : '\n' ∉ [] ∧ Short [] := ⟨List.not_mem_nil, .inl List.not_mem_nil⟩

theorem tab_pad : ∀ c ∈ ['\t'], isWhitespace c = true ∧ c ≠ '\n' := by simp [isWhitespace]

def eth1Lines : List DevLine :=
  [.extra "eth0: 1 2".toList short_line, .iface 2 eth1 ['\t'] id tab_pad, .extra [] empty_line]

theorem eth1_alone : ((eth1Lines.filterMap DevLine.dev).map (·.name)).Nodup :=
  List.nodup_singleton eth1.name

theorem parseProc_recovers_eth1 :
    (parseProc (netDevText "h1".toList "h2".toList eth1Lines)).lookup "eth1" = some (5,7) ↔
      ∃ d ∈ eth1Lines.filterMap DevLine.dev, d.name = "eth1" ∧ d.totals = (5,7) :=
  parseProc_recovers (by decide) (by decide) eth1_alone "eth1" (5,7)

end Netmeter
