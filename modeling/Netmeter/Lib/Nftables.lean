import Netmeter.Lib.PacketFilter
set_option autoImplicit false

/-!
Tables of nftables' `inet` family: how they are written, what loading one comes to, and
what a loaded table does with the packets at its hooks.
-/

namespace Nftables
open PacketFilter

inductive Family where
  | ip
  | ip6
  deriving DecidableEq, Repr

inductive Side where
  | saddr
  | daddr
  deriving DecidableEq, Repr

inductive Hook where
  | prerouting
  | input
  | forward
  | output
  | postrouting
  deriving DecidableEq, Repr

/-- Addresses are numbers; `length` is that of the packet at the hook. -/
structure Packet where
  family : Family
  saddr : ℕ
  daddr : ℕ
  length : ℕ
  deriving DecidableEq, Repr

def Packet.addr (p : Packet) : Side → ℕ
  | .saddr => p.saddr
  | .daddr => p.daddr

structure AddrTest where
  family : Family
  side : Side
  set : String
  deriving DecidableEq, Repr

/-- An interval set and its elements as they are written: addresses, prefixes, ranges. -/
structure AddrSet where
  name : String
  family : Family
  elements : List String
  deriving DecidableEq, Repr

structure Table where
  name : String
  sets : List AddrSet
  counters : List String
  chains : List (Chain Hook AddrTest String)
  deriving DecidableEq, Repr

def Family.text : Family → String
  | .ip => "ip"
  | .ip6 => "ip6"

def Family.type : Family → String
  | .ip => "ipv4_addr"
  | .ip6 => "ipv6_addr"

def Side.text : Side → String
  | .saddr => "saddr"
  | .daddr => "daddr"

def Hook.text : Hook → String
  | .prerouting => "prerouting"
  | .input => "input"
  | .forward => "forward"
  | .output => "output"
  | .postrouting => "postrouting"

def verdictText : Verdict → String
  | .accept => "accept"
  | .drop => "drop"

def stmtText : Stmt AddrTest String → String
  | .test m => m.family.text ++ " " ++ m.side.text ++ " @" ++ m.set
  | .counter c => "counter name " ++ c
  | .verdict v => verdictText v

def ruleText (rule : List (Stmt AddrTest String)) : String :=
  "        " ++ String.intercalate " " (rule.map stmtText) ++ "\n"

def chainText (c : Chain Hook AddrTest String) : String :=
  "    chain " ++ c.name ++ " \x7b type filter hook " ++ c.hook.text ++
    " priority filter; policy " ++ verdictText c.policy ++ ";\n" ++
    String.join (c.rules.map ruleText) ++ "    \x7d\n"

def AddrSet.text (s : AddrSet) : String :=
  "    set " ++ s.name ++ " \x7b type " ++ s.family.type ++
    "; flags interval; elements = \x7b " ++ String.intercalate ", " s.elements ++ " \x7d \x7d\n"

def counterText (name : String) : String := "    counter " ++ name ++ " \x7b \x7d\n"

def Table.text (t : Table) : String :=
  "table inet " ++ t.name ++ " \x7b\n" ++ String.join (t.sets.map AddrSet.text) ++
    String.join (t.counters.map counterText) ++ String.join (t.chains.map chainText) ++ "\x7d\n"

/-- How nft reads an element as an interval of a family, and what else it asks of a table,
such as intervals that do not conflict. -/
structure Loader where
  element : Family → String → Option (ℕ × ℕ)
  accepts : Table → Bool

structure Live where
  sets : List (String × List (ℕ × ℕ))
  chains : List (Chain Hook AddrTest String)
  names : List String
  bytes : String → ℕ

def AddrSet.readable (nft : Loader) (s : AddrSet) : Bool :=
  s.elements.all (fun e => (nft.element s.family e).isSome)

def AddrSet.intervals (nft : Loader) (s : AddrSet) : List (ℕ × ℕ) :=
  s.elements.filterMap (nft.element s.family)

/-- One transaction: the whole table, or nothing of it. -/
def Table.load (nft : Loader) (t : Table) : Option Live :=
  if t.sets.all (AddrSet.readable nft) && nft.accepts t then
    some { sets := t.sets.map (fun s => (s.name, s.intervals nft))
           chains := t.chains
           names := t.counters
           bytes := fun _ => 0 }
  else none

namespace Live

def member (l : Live) (set : String) (a : ℕ) : Bool :=
  ((l.sets.lookup set).getD []).any (fun i => i.1 ≤ a && a ≤ i.2)

def holds (l : Live) (m : AddrTest) (p : Packet) : Bool :=
  p.family = m.family && l.member m.set (p.addr m.side)

def run (l : Live) (hook : Hook) (p : Packet) : List String × Verdict :=
  runHook l.holds p hook l.chains

def pass (l : Live) (hook : Hook) (p : Packet) : Live :=
  { l with bytes := count p Packet.length (l.run hook p).1 l.bytes }

/-- What `list counters` shows: 64-bit counters. -/
def listing (l : Live) : List (String × UInt64) :=
  l.names.map (fun c => (c, UInt64.ofNat (l.bytes c)))

theorem run_pass (l : Live) (hook : Hook) (p : Packet) : (l.pass hook p).run = l.run := rfl

theorem foldl_pass (l : Live) (packets : List (Hook × Packet)) :
    packets.foldl (fun l x => l.pass x.1 x.2) l =
      { l with
        bytes := packets.foldl
          (fun bytes x => count x.2 Packet.length (l.run x.1 x.2).1 bytes) l.bytes } := by
  induction packets generalizing l with
  | nil => rfl
  | cons x packets ih =>
    rw [List.foldl_cons, ih, run_pass]
    rfl

end Live

section Loading
variable {nft : Loader} {t : Table} {l : Live}

theorem load_some (h : t.load nft = some l) :
    (∀ s ∈ t.sets, ∀ e ∈ s.elements, (nft.element s.family e).isSome) ∧
      l = { sets := t.sets.map (fun s => (s.name, s.intervals nft))
            chains := t.chains
            names := t.counters
            bytes := fun _ => 0 } := by
  unfold Table.load at h
  split at h
  · next hc =>
    rw [Bool.and_eq_true, List.all_eq_true] at hc
    exact ⟨fun s hs => List.all_eq_true.mp (hc.1 s hs), (Option.some.inj h).symm⟩
  · cases h

theorem any_intervals (s : AddrSet) (within : ℕ × ℕ → Bool) :
    (s.intervals nft).any within =
      s.elements.any (fun e => (nft.element s.family e).any within) := by
  rw [AddrSet.intervals, List.any_filterMap]
  refine congrArg s.elements.any (funext (fun e => ?_))
  cases nft.element s.family e <;> rfl

end Loading

end Nftables
