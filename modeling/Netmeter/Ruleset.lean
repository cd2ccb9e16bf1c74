import Netmeter.Lib.Nftables
import Netmeter.Readings
set_option autoImplicit false

/-!
The ruleset that is rendered from `lan_subnets`, the table that it writes, and what the
counters of that table hold after any packets.
-/

namespace Netmeter
open Nftables PacketFilter Keyed

/-- The counters and the chains, which no subnet changes. -/
def accounting : String :=
"    counter lan_rx_bytes \x7b \x7d
    counter lan_tx_bytes \x7b \x7d
    counter lan_rx_pkts \x7b \x7d
    counter lan_tx_pkts \x7b \x7d
    chain acct_in \x7b type filter hook input priority filter; policy accept;
        ip saddr @lan4 counter name lan_rx_bytes accept
        ip6 saddr @lan6 counter name lan_rx_bytes accept
    \x7d
    chain acct_out \x7b type filter hook output priority filter; policy accept;
        ip daddr @lan4 counter name lan_tx_bytes accept
        ip6 daddr @lan6 counter name lan_tx_bytes accept
    \x7d
\x7d
"

def renderRuleset (lanSubnets : List String) : String :=
  let v6 := lanSubnets.filter (fun s => s.toList.contains ':')
  let v4 := lanSubnets.filter (fun s => !s.toList.contains ':')
  let v4e := if v4.isEmpty then "10.0.0.0/8" else String.intercalate ", " v4
  let v6e := if v6.isEmpty then "fe80::/10" else String.intercalate ", " v6
  "table inet netmeter \x7b\n" ++
    "    set lan4 \x7b type ipv4_addr; flags interval; elements = \x7b " ++ v4e ++ " \x7d \x7d\n" ++
    "    set lan6 \x7b type ipv6_addr; flags interval; elements = \x7b " ++ v6e ++ " \x7d \x7d\n" ++
    accounting

def lanSet : Family → String
  | .ip => "lan4"
  | .ip6 => "lan6"

def defaultSubnet : Family → String
  | .ip => "10.0.0.0/8"
  | .ip6 => "fe80::/10"

def writtenIn (f : Family) (subnet : String) : Bool :=
  match f with
  | .ip => !subnet.toList.contains ':'
  | .ip6 => subnet.toList.contains ':'

/-- The subnets written in a family, or the family's default. -/
def lanElements (lanSubnets : List String) (f : Family) : List String :=
  if (lanSubnets.filter (writtenIn f)).isEmpty then [defaultSubnet f]
  else lanSubnets.filter (writtenIn f)

namespace Direction

def hook : Direction → Hook
  | .rx => .input
  | .tx => .output

def remote : Direction → Side
  | .rx => .saddr
  | .tx => .daddr

def lanCounter : Direction → String
  | .rx => "lan_rx_bytes"
  | .tx => "lan_tx_bytes"

def chain : Direction → String
  | .rx => "acct_in"
  | .tx => "acct_out"

end Direction

def lanTests (dir : Direction) : List (AddrTest × String) :=
  [Family.ip, Family.ip6].map (fun f => (⟨f, dir.remote, lanSet f⟩, dir.lanCounter))

def lanChain (dir : Direction) : Chain Hook AddrTest String where
  name := dir.chain
  hook := dir.hook
  policy := .accept
  rules := (lanTests dir).map (fun x => tally x.1 x.2)

def lanTable (lanSubnets : List String) : Nftables.Table where
  name := "netmeter"
  sets := [Family.ip, Family.ip6].map (fun f => ⟨lanSet f, f, lanElements lanSubnets f⟩)
  counters := ["lan_rx_bytes", "lan_tx_bytes", "lan_rx_pkts", "lan_tx_pkts"]
  chains := [lanChain .rx, lanChain .tx]

def subnetsText (lanSubnets : List String) (f : Family) : String :=
  if (lanSubnets.filter (writtenIn f)).isEmpty then defaultSubnet f
  else String.intercalate ", " (lanSubnets.filter (writtenIn f))

theorem text_set (f : Family) (lanSubnets : List String) :
    (⟨lanSet f, f, lanElements lanSubnets f⟩ : AddrSet).text =
      "    set " ++ lanSet f ++ " \x7b type " ++ f.type ++
        "; flags interval; elements = \x7b " ++
        subnetsText lanSubnets f ++ " \x7d \x7d\n" := by
  have helements : String.intercalate ", " (lanElements lanSubnets f) =
      subnetsText lanSubnets f := by
    unfold lanElements subnetsText
    split <;> rfl
  rw [AddrSet.text, helements]

theorem renderRuleset_eq (lanSubnets : List String) :
    renderRuleset lanSubnets = (lanTable lanSubnets).text := by
  have haccounting : String.join ((lanTable []).counters.map counterText) ++
      String.join ((lanTable []).chains.map chainText) ++ "\x7d\n" = accounting := by
    decide +kernel
  have hset4 : "    set " ++ lanSet .ip ++ " \x7b type " ++ Family.ip.type ++
      "; flags interval; elements = \x7b " =
        "    set lan4 \x7b type ipv4_addr; flags interval; elements = \x7b " := by decide +kernel
  have hset6 : "    set " ++ lanSet .ip6 ++ " \x7b type " ++ Family.ip6.type ++
      "; flags interval; elements = \x7b " =
        "    set lan6 \x7b type ipv6_addr; flags interval; elements = \x7b " := by decide +kernel
  have hsets : String.join ((lanTable lanSubnets).sets.map AddrSet.text) =
      (⟨lanSet .ip, .ip, lanElements lanSubnets .ip⟩ : AddrSet).text ++
        (⟨lanSet .ip6, .ip6, lanElements lanSubnets .ip6⟩ : AddrSet).text := by
    simp [lanTable, String.join]
  have htext : (lanTable lanSubnets).text = "table inet netmeter \x7b\n" ++
      (⟨lanSet .ip, .ip, lanElements lanSubnets .ip⟩ : AddrSet).text ++
      (⟨lanSet .ip6, .ip6, lanElements lanSubnets .ip6⟩ : AddrSet).text ++ accounting := by
    simp only [← haccounting, Nftables.Table.text, hsets, String.append_assoc]
    rfl
  have hrender : renderRuleset lanSubnets = "table inet netmeter \x7b\n" ++
      "    set lan4 \x7b type ipv4_addr; flags interval; elements = \x7b " ++
      subnetsText lanSubnets .ip ++ " \x7d \x7d\n" ++
      "    set lan6 \x7b type ipv6_addr; flags interval; elements = \x7b " ++
      subnetsText lanSubnets .ip6 ++ " \x7d \x7d\n" ++ accounting := rfl
  simp only [htext, hrender, text_set, hset4, hset6]
  simp only [String.append_assoc]

/-- An address of a family lies in one of the subnets that nft reads in it, or, where it
reads none, in the family's default. -/
def inLan (nft : Loader) (lanSubnets : List String) (f : Family) (a : ℕ) : Bool :=
  (if lanSubnets.any (fun s => (nft.element f s).isSome) then lanSubnets
    else [defaultSubnet f]).any
    (fun s => (nft.element f s).any (fun i => i.1 ≤ a && a ≤ i.2))

/-- A packet of the LAN: received by this machine or sent from it, with the other side in
the subnets. -/
def isLan (nft : Loader) (lanSubnets : List String) (dir : Direction) (x : Hook × Packet) :
    Bool :=
  x.1 = dir.hook && inLan nft lanSubnets x.2.family (x.2.addr dir.remote)

def lanTraffic (nft : Loader) (lanSubnets : List String) (dir : Direction)
    (packets : List (Hook × Packet)) : ℕ :=
  ((packets.filter (isLan nft lanSubnets dir)).map (fun x => x.2.length)).sum

/-- The text of an element shows its family: IPv6 is written with colons, IPv4 without. -/
def ColonTells (nft : Loader) : Prop :=
  ∀ f s, (nft.element f s).isSome → writtenIn f s = true

section Counting
variable {nft : Loader} {lanSubnets : List String} {l : Live}

theorem lanElements_reads (hcolon : ColonTells nft)
    (hread : ∀ f, ∀ s ∈ lanElements lanSubnets f, (nft.element f s).isSome) (f : Family) :
    lanElements lanSubnets f =
      if lanSubnets.any (fun s => (nft.element f s).isSome)
      then lanSubnets.filter (writtenIn f) else [defaultSubnet f] := by
  have hiff : (lanSubnets.filter (writtenIn f)).isEmpty = false ↔
      lanSubnets.any (fun s => (nft.element f s).isSome) = true := by
    rw [List.isEmpty_eq_false_iff_exists_mem, List.any_eq_true]
    constructor
    · rintro ⟨s, hs⟩
      refine ⟨s, List.mem_of_mem_filter hs, hread f s ?_⟩
      rw [lanElements, if_neg]
      · exact hs
      · rw [List.isEmpty_iff]
        exact List.ne_nil_of_mem hs
    · rintro ⟨s, hs, hsome⟩
      exact ⟨s, List.mem_filter.mpr ⟨hs, hcolon f s hsome⟩⟩
  unfold lanElements
  cases hempty : (lanSubnets.filter (writtenIn f)).isEmpty with
  | false => rw [if_neg Bool.false_ne_true, if_pos (hiff.mp hempty)]
  | true =>
    have hnone : ¬ lanSubnets.any (fun s => (nft.element f s).isSome) = true := by
      rw [← hiff, hempty]
      exact Bool.noConfusion
    rw [if_pos rfl, if_neg hnone]

theorem member_lanSet (hcolon : ColonTells nft) (h : (lanTable lanSubnets).load nft = some l)
    (f : Family) (a : ℕ) : l.member (lanSet f) a = inLan nft lanSubnets f a := by
  obtain ⟨hsets, rfl⟩ := load_some h
  have hread : ∀ f, ∀ s ∈ lanElements lanSubnets f, (nft.element f s).isSome := by
    intro f
    refine hsets ⟨lanSet f, f, lanElements lanSubnets f⟩ ?_
    cases f <;> simp [lanTable]
  have hlookup : ((lanTable lanSubnets).sets.map (fun s => (s.name, s.intervals nft))).lookup
      (lanSet f) = some ((⟨lanSet f, f, lanElements lanSubnets f⟩ : AddrSet).intervals nft) := by
    cases f <;> rfl
  rw [Live.member, hlookup, Option.getD_some, any_intervals, inLan]
  dsimp only
  rw [lanElements_reads hcolon hread f]
  split
  · rw [List.any_filter]
    refine congrArg lanSubnets.any (funext (fun s => ?_))
    cases hs : nft.element f s with
    | none => simp
    | some i => rw [hcolon f s (by rw [hs]; rfl), Bool.true_and]
  · rfl

theorem holds_lanTest (hcolon : ColonTells nft) (h : (lanTable lanSubnets).load nft = some l)
    (f : Family) (side : Side) (p : Packet) : l.holds ⟨f, side, lanSet f⟩ p =
      (decide (p.family = f) && inLan nft lanSubnets f (p.addr side)) := by
  rw [Live.holds, member_lanSet hcolon h]

theorem run_lanChain (hcolon : ColonTells nft) (h : (lanTable lanSubnets).load nft = some l)
    (dir : Direction) (p : Packet) : (lanChain dir).run l.holds p =
      (if inLan nft lanSubnets p.family (p.addr dir.remote) then [dir.lanCounter] else [],
        .accept) := by
  rw [Chain.run_tallies (l := lanTests dir) rfl rfl]
  cases hf : p.family with
  | ip =>
    cases hlan : inLan nft lanSubnets .ip (p.addr dir.remote) <;>
      simp [lanTests, holds_lanTest hcolon h, hf, hlan]
  | ip6 =>
    cases hlan : inLan nft lanSubnets .ip6 (p.addr dir.remote) <;>
      simp [lanTests, holds_lanTest hcolon h, hf, hlan]

theorem run_lanTable (hcolon : ColonTells nft) (h : (lanTable lanSubnets).load nft = some l)
    (hook : Hook) (p : Packet) : l.run hook p =
      ([Direction.rx, .tx].filterMap (fun dir =>
        if isLan nft lanSubnets dir (hook, p) then some dir.lanCounter else none), .accept) := by
  have hchains : l.chains = [lanChain .rx, lanChain .tx] := by
    obtain ⟨-, rfl⟩ := load_some h
    rfl
  have hin := run_lanChain hcolon h .rx p
  have hout := run_lanChain hcolon h .tx p
  have hrx : (lanChain .rx).hook = .input := rfl
  have htx : (lanChain .tx).hook = .output := rfl
  rw [Live.run, hchains]
  cases hook with
  | input =>
    rw [runHook_accept hrx hin, runHook_other (by rw [htx]; decide)]
    cases hlan : inLan nft lanSubnets p.family (p.addr Direction.rx.remote) <;>
      simp [runHook, isLan, hlan, Direction.hook]
  | output =>
    rw [runHook_other (by rw [hrx]; decide), runHook_accept htx hout]
    cases hlan : inLan nft lanSubnets p.family (p.addr Direction.tx.remote) <;>
      simp [runHook, isLan, hlan, Direction.hook]
  | prerouting => simp [runHook, isLan, lanChain, Direction.hook]
  | forward => simp [runHook, isLan, lanChain, Direction.hook]
  | postrouting => simp [runHook, isLan, lanChain, Direction.hook]

theorem count_lanCounter (hcolon : ColonTells nft) (h : (lanTable lanSubnets).load nft = some l)
    (dir : Direction) (x : Hook × Packet) : (l.run x.1 x.2).1.count dir.lanCounter =
      if isLan nft lanSubnets dir x then 1 else 0 := by
  have hne : ("lan_rx_bytes" : String) ≠ "lan_tx_bytes" := by decide
  rw [run_lanTable hcolon h]
  cases hrx : isLan nft lanSubnets .rx x <;> cases htx : isLan nft lanSubnets .tx x <;>
    cases dir <;> simp [hrx, htx, Direction.lanCounter, hne, hne.symm]

theorem count_other (hcolon : ColonTells nft) (h : (lanTable lanSubnets).load nft = some l)
    {c : String} (hc : ∀ dir : Direction, c ≠ dir.lanCounter) (x : Hook × Packet) :
    (l.run x.1 x.2).1.count c = 0 := by
  rw [run_lanTable hcolon h, List.count_eq_zero, List.mem_filterMap]
  rintro ⟨dir, -, hdir⟩
  split at hdir
  · exact hc dir (Option.some.inj hdir).symm
  · cases hdir

end Counting

/-- `192.168.0.0/16` and the default of IPv6 as nft reads them. -/
def homeNft : Loader where
  element := fun f s =>
    if f = .ip ∧ s = "192.168.0.0/16" then some (3232235520, 3232301055)
    else if f = .ip6 ∧ s = "fe80::/10" then
      some (338288524927261089654018896841347694592, 338620831926207318622244848606417780735)
    else none
  accepts := fun _ => true

theorem homeNft_colonTells : ColonTells homeNft := by
  intro f s hs
  unfold homeNft at hs
  dsimp only at hs
  split at hs
  · next h =>
    obtain ⟨rfl, rfl⟩ := h
    decide +kernel
  · split at hs
    · next h =>
      obtain ⟨rfl, rfl⟩ := h
      decide +kernel
    · cases hs

def homePackets : List (Hook × Packet) :=
  [(.input, ⟨.ip, 3232235786, 3232235777, 1500⟩), (.input, ⟨.ip, 134744072, 3232235777, 900⟩),
    (.output, ⟨.ip6, 338288524927261089654018896841347694593,
      338288524927261089654018896841347694594, 80⟩),
    (.forward, ⟨.ip, 3232235786, 134744072, 700⟩)]

example : lanTraffic homeNft ["192.168.0.0/16"] .rx homePackets = 1500 ∧
    lanTraffic homeNft ["192.168.0.0/16"] .tx homePackets = 80 := by decide +kernel

end Netmeter
