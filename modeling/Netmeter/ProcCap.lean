import Netmeter.Daemon
set_option autoImplicit false

/-!
`proc_cap.rs`: frames charged to processes, and one pass of the capture thread.
Counters are exact; frames come from the receivers, clocks and `/proc` from
outside.
-/

namespace Netmeter
open Keyed

abbrev Bytes := List UInt8

inductive IpAddr where
  | v4 (octets : Vector UInt8 4)
  | v6 (octets : Vector UInt8 16)
  deriving DecidableEq, Repr

def IpAddr.octets : IpAddr → List UInt8
  | .v4 b => b.toList
  | .v6 b => b.toList

theorem IpAddr.octets_inj {a b : IpAddr} (h : a.octets = b.octets) : a = b := by
  cases a with
  | v4 a =>
    cases b with
    | v4 b => exact congrArg IpAddr.v4 (Vector.toList_inj.mp h)
    | v6 b => simpa [IpAddr.octets] using congrArg List.length h
  | v6 a =>
    cases b with
    | v4 b => simpa [IpAddr.octets] using congrArg List.length h
    | v6 b => exact congrArg IpAddr.v6 (Vector.toList_inj.mp h)

@[ext] structure Endpoint where
  ip : IpAddr
  port : UInt16
  deriving DecidableEq, Repr

instance : LinearOrder Endpoint :=
  LinearOrder.lift' (fun e => toLex (e.ip.octets.map UInt8.toNat, e.port.toNat)) (fun a b h => by
    have h' := congrArg ofLex h
    simp only [ofLex_toLex, Prod.mk.injEq] at h'
    have hip := List.map_injective_iff.mpr (fun _ _ => UInt8.toNat_inj.mp) h'.1
    exact Endpoint.ext (IpAddr.octets_inj hip) (UInt16.toNat_inj.mp h'.2))

structure Owners where
  byEp : Table Endpoint ℕ := ∅
  comm : Table ℕ String := ∅

structure IpPacket (Addr : Type) where
  nextProto : UInt8
  source : Addr
  destination : Addr
  payload : Bytes

/-- The packet views of `pnet`; `none` where `new` refuses the bytes. -/
structure Pnet where
  /-- ethertype and payload -/
  ethernet : Bytes → Option (UInt16 × Bytes)
  ipv4 : Bytes → Option (IpPacket (Vector UInt8 4))
  ipv6 : Bytes → Option (IpPacket (Vector UInt8 16))
  /-- source and destination port -/
  tcp : Bytes → Option (UInt16 × UInt16)
  udp : Bytes → Option (UInt16 × UInt16)

def etherTypeIpv4 : UInt16 := 0x0800

def etherTypeIpv6 : UInt16 := 0x86DD

def protoTcp : UInt8 := 6

def protoUdp : UInt8 := 17

def l4Ports (p : Pnet) (proto : UInt8) (l4 : Bytes) : Option (UInt16 × UInt16) :=
  if proto = protoTcp then p.tcp l4
  else if proto = protoUdp then p.udp l4
  else none

structure Flow where
  src : IpAddr
  dst : IpAddr
  ports : Option (UInt16 × UInt16)

def parseFrame (p : Pnet) (frame : Bytes) : Option Flow :=
  match p.ethernet frame with
  | none => none
  | some (ethertype, payload) =>
    if ethertype = etherTypeIpv4 then
      (p.ipv4 payload).map (fun ip =>
        ⟨.v4 ip.source, .v4 ip.destination, l4Ports p ip.nextProto ip.payload⟩)
    else if ethertype = etherTypeIpv6 then
      (p.ipv6 payload).map (fun ip =>
        ⟨.v6 ip.source, .v6 ip.destination, l4Ports p ip.nextProto ip.payload⟩)
    else none

structure Usage where
  comm : String
  rx : ℕ
  tx : ℕ
  deriving DecidableEq

abbrev Cum := Table ℕ Usage

def charge (owners : Owners) (locals : List IpAddr) (f : Flow) : ℕ × String :=
  match f.ports with
  | some (sp, dp) =>
    let ep := if f.src ∈ locals then ⟨f.src,sp⟩ else ⟨f.dst,dp⟩
    match owners.byEp.lookup ep with
    | some pid => (pid, (owners.comm.lookup pid).getD "?")
    | none => (0, "unknown")
  | none => (0, "other")

/-- A placeholder name gives way to the name of the next frame. -/
def Usage.rename (comm : String) (e : Usage) : Usage :=
  if e.comm = "?" ∨ e.comm = "unknown" ∨ e.comm = "other" then { e with comm := comm } else e

def Usage.count (up : Bool) (bytes : ℕ) (e : Usage) : Usage :=
  if up then { e with tx := e.tx + bytes } else { e with rx := e.rx + bytes }

def account (p : Pnet) (owners : Owners) (locals : List IpAddr) (frame : Bytes) (cum : Cum) :
    Cum :=
  match parseFrame p frame with
  | none => cum
  | some f =>
    let up := decide (f.src ∈ locals)
    let c := charge owners locals f
    let touch := fun e : Usage => (e.rename c.2).count up frame.length
    cum.upsert c.1 (touch ⟨c.2,0,0⟩) touch

inductive ErrorKind where
  | timedOut | wouldBlock | other
  deriving DecidableEq, Repr

inductive Recv where
  | frame (bytes : Bytes)
  | err (kind : ErrorKind)

def maxDrainFrames : ℕ := 4096

def drainFrom (p : Pnet) (next : ℕ → Recv) (owners : Owners) (locals : List IpAddr) :
    ℕ → ℕ → Cum → Cum × Bool
  | _, 0, cum => (cum,false)
  | i, n+1, cum =>
    match next i with
    | .frame frame => drainFrom p next owners locals (i+1) n (account p owners locals frame cum)
    | .err .timedOut => (cum,false)
    | .err .wouldBlock => (cum,false)
    | .err .other => (cum,true)

def drainOne (p : Pnet) (next : ℕ → Recv) (owners : Owners) (locals : List IpAddr) (cum : Cum) :
    Cum × Bool :=
  drainFrom p next owners locals 0 maxDrainFrames cum

def received (next : ℕ → Recv) : ℕ → ℕ → List Bytes × Option ErrorKind
  | _, 0 => ([],none)
  | i, n+1 =>
    match next i with
    | .frame frame => (frame :: (received next (i+1) n).1, (received next (i+1) n).2)
    | .err kind => ([], some kind)

theorem drainFrom_eq (p : Pnet) (next : ℕ → Recv) (owners : Owners) (locals : List IpAddr)
    (i n : ℕ) (cum : Cum) : drainFrom p next owners locals i n cum =
      ((received next i n).1.foldl (fun cum frame => account p owners locals frame cum) cum,
        decide ((received next i n).2 = some .other)) := by
  induction n generalizing i cum with
  | zero => simp [drainFrom, received]
  | succ n ih =>
    unfold drainFrom received
    cases next i with
    | frame frame => simp [ih]
    | err kind => cases kind <;> simp

def drained (next : ℕ → Recv) : List Bytes := (received next 0 maxDrainFrames).1

def dies (next : ℕ → Recv) : Bool := (received next 0 maxDrainFrames).2 = some .other

theorem drainOne_eq (p : Pnet) (next : ℕ → Recv) (owners : Owners) (locals : List IpAddr)
    (cum : Cum) : drainOne p next owners locals cum =
      ((drained next).foldl (fun cum frame => account p owners locals frame cum) cum,
        dies next) :=
  drainFrom_eq p next owners locals 0 maxDrainFrames cum

structure Interface where
  name : String
  ips : List IpAddr
  isUp : Bool
  isLoopback : Bool

/-- An open receiver; the frames it yields come from outside. -/
structure Receiver where
  name : String
  ips : List IpAddr
  deriving DecidableEq

inductive Channel where
  | ethernet | other | error
  deriving DecidableEq

def candidates (exclude : List String) (interfaces : List Interface) : List Interface :=
  (interfaces.filter (fun ni => ni.isUp && !ni.isLoopback)).filter
    (fun ni => !exclude.any (fun p => globMatch p ni.name))

def eligible (exclude : List String) (interfaces : List Interface) :
    List (String × List IpAddr) :=
  (candidates exclude interfaces).map (fun ni => (ni.name,ni.ips))

def setChanged (haveNames wantNames : List String) : Bool :=
  haveNames.insertionSort (· ≤ ·) != wantNames.insertionSort (· ≤ ·)

/-- An interface that does not open is skipped. -/
def openAll (exclude : List String) (interfaces : List Interface) (channel : String → Channel) :
    List Receiver :=
  (candidates exclude interfaces).filterMap (fun ni =>
    match channel ni.name with
    | .ethernet => some ⟨ni.name,ni.ips⟩
    | .other => none
    | .error => none)

def refreshIps (name : String) (ips : List IpAddr) : List Receiver → List Receiver
  | [] => []
  | r :: rs => if r.name = name then { r with ips := ips } :: rs else r :: refreshIps name ips rs

/-- What the interfaces look like to one pass: `due` after 15 seconds, and
listed anew when the sockets are opened. -/
structure Resolve where
  due : Bool
  interfaces : List Interface
  reopened : List Interface := interfaces
  channel : String → Channel

def resolve (exclude : List String) (o : Resolve) (rs : List Receiver) : List Receiver :=
  if rs.isEmpty || o.due then
    let want := eligible exclude o.interfaces
    if setChanged (rs.map (·.name)) (want.map (·.1)) then openAll exclude o.reopened o.channel
    else want.foldl (fun rs w => refreshIps w.1 w.2 rs) rs
  else rs

structure Capture where
  owners : Owners
  cum : Cum := ∅
  receivers : List Receiver := []

def Capture.locals (c : Capture) : List IpAddr := c.receivers.flatMap (·.ips)

abbrev Shared := Table String (ℕ × ℕ)

/-- Fold the pids into names: pids are unstable. -/
def flush (cum : Cum) (shared : Shared) : Shared :=
  shared.addAll (cum.rows.map (fun e => (e.2.comm, (e.2.rx, e.2.tx))))

def drainAll (p : Pnet) (owners : Owners) (locals : List IpAddr) :
    List (ℕ → Recv) → Cum → Cum × Bool
  | [], cum => (cum,false)
  | next :: rest, cum =>
    let d := drainOne p next owners locals cum
    if d.2 then (d.1,true) else drainAll p owners locals rest d.1

/-- What one pass reads from outside: the interfaces, the receivers' results,
a snapshot when 15 seconds have passed, a flush when one has. -/
structure Pass where
  resolve : Resolve
  next : ℕ → ℕ → Recv
  snapshot : Option Owners
  flushDue : Bool

def capturePass (p : Pnet) (exclude : List String) (o : Pass) (c : Capture) (shared : Shared) :
    Capture × Shared :=
  let c := { c with receivers := resolve exclude o.resolve c.receivers }
  if c.receivers.isEmpty then (c,shared)
  else
    let d := drainAll p c.owners c.locals
      ((List.range c.receivers.length).map o.next) c.cum
    if d.2 then ({ c with cum := d.1, receivers := [] }, shared)
    else
      let c := { c with cum := d.1, owners := o.snapshot.getD c.owners }
      if o.flushDue || decide (5000 < c.cum.rows.length) then
        ({ c with cum := ∅ }, flush c.cum shared)
      else (c,shared)

end Netmeter
