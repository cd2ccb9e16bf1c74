import Netmeter.Sockets
set_option autoImplicit false

/-!
Frames against socket tables: whose socket a frame is charged to, across the
protocols and the address families that share one map.
-/

namespace Netmeter
open Keyed Text

def frameProto (p : Pnet) (frame : Bytes) : Option UInt8 :=
  match p.ethernet frame with
  | none => none
  | some (ethertype, payload) =>
    if ethertype = etherTypeIpv4 then (p.ipv4 payload).map (·.nextProto)
    else if ethertype = etherTypeIpv6 then (p.ipv6 payload).map (·.nextProto)
    else none

def localEndpoint (p : Pnet) (locals : List IpAddr) (frame : Bytes) : Option Endpoint :=
  (parseFrame p frame).bind (Flow.endpoint locals)

def tableName (path : String) : List Char := (path.toList.reverse.takeWhile (· ≠ '/')).reverse

def tableProto (path : String) : UInt8 :=
  if tableName path = "udp".toList ∨ tableName path = "udp6".toList then protoUdp else protoTcp

/-- A frame makes an entry for `pid` in an empty scratch map. -/
def ChargedTo (p : Pnet) (owners : Owners) (locals : List IpAddr) (frame : Bytes) (pid : ℕ) :
    Prop :=
  (account p owners locals frame ∅).lookup pid ≠ none

section Charging
variable {p : Pnet} {owners : Owners} {locals : List IpAddr} {frame : Bytes} {ep : Endpoint}

theorem charged_of_endpoint (owners : Owners) (h : localEndpoint p locals frame = some ep) :
    ∃ x, charged p owners locals frame = some x ∧ x.pid = (owners.byEp.lookup ep).getD 0 := by
  obtain ⟨f, hf, hep⟩ := Option.bind_eq_some_iff.mp h
  refine ⟨_, by rw [charged, hf]; rfl, ?_⟩
  rcases charge_pid owners locals f with ⟨ep', pid, hep', hpid, hc⟩ | ⟨⟨ep', hep', hnone⟩, hc⟩ |
    ⟨hports, -⟩
  · rw [hep] at hep'
    dsimp only
    rw [hc, Option.some.inj hep', hpid]
    rfl
  · rw [hep] at hep'
    dsimp only
    rw [hc, Option.some.inj hep', hnone]
    rfl
  · rw [Flow.endpoint, hports] at hep
    cases hep

theorem lookup_account {x : Charged} (h : charged p owners locals frame = some x) (pid : ℕ) :
    (account p owners locals frame ∅).lookup pid =
      if pid = x.pid then (Cum.credit ∅ x).lookup x.pid else none := by
  rw [account_eq, h]
  show (Cum.credit ∅ x).lookup pid = _
  split
  · next hpid => rw [hpid]
  · next hpid =>
    unfold Cum.credit
    rw [Table.lookup_upsert, if_neg hpid]
    rfl

theorem chargedTo_iff (h : localEndpoint p locals frame = some ep) {pid : ℕ} (hpid : pid ≠ 0) :
    ChargedTo p owners locals frame pid ↔ owners.byEp.lookup ep = some pid := by
  obtain ⟨x, hx, hxpid⟩ := charged_of_endpoint owners h
  have hentry : (Cum.credit ∅ x).lookup x.pid ≠ none := by simp [Cum.credit, Table.lookup_upsert]
  have hkey : ChargedTo p owners locals frame pid ↔ pid = x.pid := by
    unfold ChargedTo
    rw [lookup_account hx]
    by_cases hsame : pid = x.pid
    · simp [hsame, hentry]
    · simp [hsame]
  rw [hkey, hxpid]
  cases owners.byEp.lookup ep with
  | none => simp [hpid]
  | some owner => simp [eq_comm]

end Charging

/-- The last owned row of an endpoint is of the other protocol, and its process has no
socket of this one there. -/
def Shadowed (rows : List OwnedRow) (proto : Option UInt8) (ep : Endpoint) : Prop :=
  ∃ r, (rows.filter (fun r => r.ep = ep)).getLast? = some r ∧ r.pid ≠ 0 ∧
    some (tableProto r.path) ≠ proto ∧
    ∀ r' ∈ rows, some (tableProto r'.path) = proto → r'.ep = ep → r'.pid ≠ r.pid

/-- A frame is charged to processes that have a socket of its protocol at its local
endpoint, exactly when no socket of the other protocol shadows it there. -/
theorem charged_owner_iff (p : Pnet) (files : ProcFs) (inodeOwner : InodeOwner)
    (ours : Option (ℕ × ℕ)) (procs : List ProcNs) (owners : Owners)
    (hsnap : snapshot files inodeOwner (tablesFor ours procs) = .ok owners)
    (locals : List IpAddr) (frame : Bytes) (ep : Endpoint)
    (hep : localEndpoint p locals frame = some ep) :
    (∀ pid, pid ≠ 0 → ChargedTo p owners locals frame pid →
      ∃ r ∈ ownedRows files inodeOwner (tablesFor ours procs),
        some (tableProto r.path) = frameProto p frame ∧ r.ep = ep ∧ r.pid = pid) ↔
    ¬ Shadowed (ownedRows files inodeOwner (tablesFor ours procs)) (frameProto p frame) ep := by
  have hcharged : ∀ pid, pid ≠ 0 → (ChargedTo p owners locals frame pid ↔
      lastOwner (ownedRows files inodeOwner (tablesFor ours procs)) ep = some pid) :=
    fun pid hpid => by rw [chargedTo_iff hep hpid, lookup_byEp hsnap]
  generalize ownedRows files inodeOwner (tablesFor ours procs) = rows at hcharged ⊢
  constructor
  · rintro hright ⟨r, hlast, hpid, -, hnone⟩
    obtain ⟨r', hr', hp, he, hsame⟩ :=
      hright r.pid hpid ((hcharged r.pid hpid).mpr (by rw [lastOwner, hlast]; rfl))
    exact hnone r' hr' hp he hsame
  · intro hshadow pid hpid hc
    obtain ⟨r, hlast, hrpid⟩ := Option.map_eq_some_iff.mp ((hcharged pid hpid).mp hc)
    obtain ⟨hr, hrep⟩ := List.mem_filter.mp (List.mem_of_getLast? hlast)
    by_contra hnone
    have hother : ∀ r' ∈ rows, some (tableProto r'.path) = frameProto p frame → r'.ep = ep →
        r'.pid ≠ r.pid :=
      fun r' hr' hp he hsame => hnone ⟨r', hr', hp, he, hsame.trans hrpid⟩
    refine hshadow ⟨r, hlast, hrpid ▸ hpid, fun hp => ?_, hother⟩
    exact hother r hr hp (of_decide_eq_true hrep) rfl

def tcpSegment : Bytes := ipv4Frame protoTcp [10, 0, 0, 1] ourIp tcpHeader

def ourEndpoint : Endpoint := ⟨ourAddr, 50000⟩

theorem endpoint_tcpSegment : localEndpoint .wire [ourAddr] tcpSegment = some ourEndpoint := by
  decide +kernel

def boxOwners : Owners :=
  (ownedRows (procFs boxFiles) boxInodes (tablesFor (some (1,100)) boxProcs)).foldl Owners.own {}

theorem snapshot_box : snapshot (procFs boxFiles) boxInodes (tablesFor (some (1,100)) boxProcs) =
    .ok boxOwners :=
  snapshot_eq boxInodes (sliceable_procFs (by decide +kernel) _)

theorem charged_owner_iff_box :
    (∀ pid, pid ≠ 0 → ChargedTo .wire boxOwners [ourAddr] tcpSegment pid →
      ∃ r ∈ ownedRows (procFs boxFiles) boxInodes (tablesFor (some (1,100)) boxProcs),
        some (tableProto r.path) = frameProto .wire tcpSegment ∧ r.ep = ourEndpoint ∧
          r.pid = pid) ↔
    ¬ Shadowed (ownedRows (procFs boxFiles) boxInodes (tablesFor (some (1,100)) boxProcs))
      (frameProto .wire tcpSegment) ourEndpoint :=
  charged_owner_iff .wire (procFs boxFiles) boxInodes (some (1,100)) boxProcs boxOwners
    snapshot_box [ourAddr] tcpSegment ourEndpoint endpoint_tcpSegment

/-- Our TCP socket of process 7 and UDP socket of process 11 at one endpoint. -/
def sharedFiles : List (String × List Char) :=
  [("/proc/net/tcp", socketTable [("0200000A:C350","4242")]),
    ("/proc/net/udp", socketTable [("0200000A:C350","77")])]

theorem not_charged_owner :
    ¬ ∀ (p : Pnet) (files : ProcFs) (inodeOwner : InodeOwner) (ours : Option (ℕ × ℕ))
      (procs : List ProcNs) (owners : Owners),
      snapshot files inodeOwner (tablesFor ours procs) = .ok owners →
      ∀ (locals : List IpAddr) (frame : Bytes) (ep : Endpoint),
        localEndpoint p locals frame = some ep →
        ∀ pid, pid ≠ 0 → ChargedTo p owners locals frame pid →
          ∃ r ∈ ownedRows files inodeOwner (tablesFor ours procs),
            some (tableProto r.path) = frameProto p frame ∧ r.ep = ep ∧ r.pid = pid := by
  intro h
  have hslice : Sliceable (procFs sharedFiles) (tablesFor none []) :=
    sliceable_procFs (by decide +kernel) _
  have hsnap := snapshot_eq boxInodes hslice
  have hcharged : ChargedTo .wire _ [ourAddr] tcpSegment 11 :=
    (chargedTo_iff endpoint_tcpSegment (by decide)).mpr
      ((lookup_byEp hsnap ourEndpoint).trans (by decide +kernel))
  exact absurd (h .wire (procFs sharedFiles) boxInodes none [] _ hsnap [ourAddr] tcpSegment
    ourEndpoint endpoint_tcpSegment 11 (by decide) hcharged) (by decide +kernel)

def mapped (a : Vector UInt8 4) : IpAddr :=
  .v6 (octetsAt 16 (List.replicate 10 0 ++ [255, 255] ++ a.toList) 0)

/-- A dual-stack socket of `pid` for IPv4 address `a`: a row of our tcp6 table, and no
other row with its port. -/
structure DualStack (files : ProcFs) (inodeOwner : InodeOwner) (paths : List String)
    (a : Vector UInt8 4) (port : UInt16) (pid : ℕ) : Prop where
  row : ∃ r ∈ tableRows files "/proc/net/tcp6", r.ep = ⟨mapped a, port⟩ ∧
    (inodeOwner.lookup r.inode).map (·.1) = some pid
  only : ∀ path ∈ paths, ∀ r ∈ tableRows files path, r.ep.port = port →
    path = "/proc/net/tcp6" ∧ r.ep = ⟨mapped a, port⟩

theorem lastOwner_dualStack {files : ProcFs} {inodeOwner : InodeOwner} {paths : List String}
    {a : Vector UInt8 4} {port : UInt16} {pid : ℕ}
    (h : DualStack files inodeOwner paths a port pid) :
    lastOwner (ownedRows files inodeOwner paths) ⟨.v4 a,port⟩ = none := by
  rw [lastOwner_eq]
  refine Table.lastValue_eq_none (fun x hx he => ?_)
  obtain ⟨r, hr, rfl⟩ := List.mem_map.mp hx
  obtain ⟨path, hpath, hr⟩ := List.mem_flatMap.mp hr
  obtain ⟨row, hrow, hown⟩ := List.mem_filterMap.mp hr
  obtain ⟨owner, -, rfl⟩ := Option.map_eq_some_iff.mp hown
  -- the row has the port, so the mapped address, which is not `a`
  have hrow4 : row.ep = ⟨.v4 a,port⟩ := he
  have hmapped := (h.only path hpath row hrow (by rw [hrow4])).2
  rw [hrow4] at hmapped
  cases congrArg Endpoint.ip hmapped

/-- The row is kept under its IPv6 address and the frame looked up under its IPv4
address: no frame of a dual-stack socket is charged to its process. -/
theorem dual_stack_unattributed (p : Pnet) (files : ProcFs) (inodeOwner : InodeOwner)
    (ours : Option (ℕ × ℕ)) (procs : List ProcNs) (owners : Owners)
    (hsnap : snapshot files inodeOwner (tablesFor ours procs) = .ok owners)
    (a : Vector UInt8 4) (port : UInt16) (pid : ℕ)
    (hdual : DualStack files inodeOwner (tablesFor ours procs) a port pid)
    (locals : List IpAddr) (frame : Bytes)
    (hep : localEndpoint p locals frame = some ⟨.v4 a,port⟩) :
    (charged p owners locals frame).map (fun x => (x.pid, x.comm)) = some (0,"unknown") ∧
      ¬ ∃ e, (account p owners locals frame ∅).lookup pid = some e ∧ e.comm ≠ "unknown" := by
  obtain ⟨f, hf, hfep⟩ := Option.bind_eq_some_iff.mp hep
  have hun : f.Unattributed owners locals :=
    ⟨_, hfep, by rw [lookup_byEp hsnap, lastOwner_dualStack hdual]⟩
  obtain ⟨bytes, hx⟩ : ∃ bytes, charged p owners locals frame = some ⟨0,"unknown",bytes⟩ :=
    ⟨_, by rw [charged, hf, Option.map_some, charge_unattributed hun]⟩
  refine ⟨by rw [hx]; rfl, ?_⟩
  rintro ⟨e, he, hne⟩
  rw [lookup_account hx] at he
  split at he
  · rw [Cum.credit, Table.lookup_upsert, if_pos rfl] at he
    refine hne ?_
    rw [← Option.some.inj he]
    rfl
  · cases he

def dualFiles : List (String × List Char) :=
  [("/proc/net/tcp6", socketTable [("0000000000000000FFFF00000200000A:C350","4242")])]

theorem tableRows_dual (path : String) : tableRows (procFs dualFiles) path =
    if path = "/proc/net/tcp6" then [⟨⟨mapped (octetsAt 4 ourIp 0), 50000⟩, 4242⟩] else [] := by
  split_ifs with h
  · subst h
    decide +kernel
  · simp [tableRows, procFs, dualFiles, List.lookup, beq_eq_false_iff_ne.mpr h]

theorem dualStack_dual (paths : List String) :
    DualStack (procFs dualFiles) boxInodes paths (octetsAt 4 ourIp 0) 50000 7 where
  row := ⟨_, by rw [tableRows_dual, if_pos rfl]; exact List.mem_singleton_self _, rfl,
    by decide +kernel⟩
  only path _ r hr _ := by
    rw [tableRows_dual] at hr
    split at hr
    · next h => exact ⟨h, by rw [List.mem_singleton.mp hr]⟩
    · cases hr

def dualOwners : Owners :=
  (ownedRows (procFs dualFiles) boxInodes (tablesFor none [])).foldl Owners.own {}

theorem snapshot_dual :
    snapshot (procFs dualFiles) boxInodes (tablesFor none []) = .ok dualOwners :=
  snapshot_eq boxInodes (sliceable_procFs (by decide +kernel) _)

theorem dual_stack_unattributed_dual :
    (charged .wire dualOwners [ourAddr] tcpSegment).map (fun x => (x.pid, x.comm)) =
        some (0,"unknown") ∧
      ¬ ∃ e, (account .wire dualOwners [ourAddr] tcpSegment ∅).lookup 7 = some e ∧
        e.comm ≠ "unknown" :=
  dual_stack_unattributed .wire (procFs dualFiles) boxInodes none [] dualOwners
    snapshot_dual (octetsAt 4 ourIp 0) 50000 7 (dualStack_dual _) [ourAddr]
    tcpSegment endpoint_tcpSegment

theorem not_dual_stack_attributed :
    ¬ ∀ (p : Pnet) (files : ProcFs) (inodeOwner : InodeOwner) (ours : Option (ℕ × ℕ))
      (procs : List ProcNs) (owners : Owners),
      snapshot files inodeOwner (tablesFor ours procs) = .ok owners →
      ∀ (a : Vector UInt8 4) (port : UInt16) (pid : ℕ),
        DualStack files inodeOwner (tablesFor ours procs) a port pid →
        ∀ (locals : List IpAddr) (frame : Bytes), frameProto p frame = some protoTcp →
          localEndpoint p locals frame = some ⟨.v4 a,port⟩ →
          ∃ e, (account p owners locals frame ∅).lookup pid = some e ∧ e.comm ≠ "unknown" := by
  intro h
  obtain ⟨e, he, -⟩ := h .wire (procFs dualFiles) boxInodes none [] dualOwners
    snapshot_dual (octetsAt 4 ourIp 0) 50000 7 (dualStack_dual _) [ourAddr]
    tcpSegment (by decide +kernel) endpoint_tcpSegment
  have hnone : (account .wire dualOwners [ourAddr] tcpSegment ∅).lookup 7 = none := by
    decide +kernel
  rw [hnone] at he
  cases he

end Netmeter
