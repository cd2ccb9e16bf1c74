import Netmeter.Lib.FirstWins
import Netmeter.Endpoints
set_option autoImplicit false

/-!
The two walks over `/proc` behind a snapshot, and from there to the process a frame
is charged to.
-/

namespace Netmeter
open Keyed Text

/-- An entry of `/proc`; `none` where a name, link or file does not read as text. -/
structure ProcEntry where
  fileName : Option (List Char)
  netns : Option (ℕ × ℕ) := none
  comm : Option (List Char) := none
  /-- the targets of the links in `fd` -/
  fds : Option (List (Option (List Char))) := none

namespace ProcEntry

def pid (e : ProcEntry) : Option ℕ := e.fileName.bind (fromStrRadix 10 (2 ^ 32))

def name (e : ProcEntry) : String := String.ofList ((e.comm.map trim).getD [])

end ProcEntry

def socketInode (target : List Char) : Option ℕ :=
  ((target.dropPrefix? "socket:[".toList).bind (·.dropSuffix? [']'])).bind
    (fromStrRadix 10 (2 ^ 64))

def holdSockets (pid : ℕ) (comm : String) (fds : List (Option (List Char)))
    (map : InodeOwner) : InodeOwner :=
  fds.foldl (fun map target =>
    match target.bind socketInode with
    | some ino => map.upsert ino (pid,comm) id
    | none => map) map

def holdEntry (map : InodeOwner) (e : ProcEntry) : InodeOwner :=
  match e.pid, e.fds with
  | some pid, some fds => holdSockets pid e.name fds map
  | _, _ => map

def inodeToPid (procs : Option (List ProcEntry)) : InodeOwner :=
  match procs with
  | none => ∅
  | some procs => procs.foldl holdEntry ∅

def ProcEntry.procNs (e : ProcEntry) : Option ProcNs :=
  match e.pid, e.netns with
  | some pid, some ns => some ⟨pid,ns⟩
  | _, _ => none

def netnsSocketTables (ours : Option (ℕ × ℕ)) (procs : Option (List ProcEntry)) : List String :=
  match procs with
  | none => ownTables
  | some procs => tablesFor ours (procs.filterMap ProcEntry.procNs)

/-- `snapshot` with what it reads: `/proc` is listed twice. -/
def snapshotProc (files : ProcFs) (ours : Option (ℕ × ℕ))
    (walk tables : Option (List ProcEntry)) : Except Panic Owners :=
  snapshot files (inodeToPid walk) (netnsSocketTables ours tables)

example : socketInode "socket:[4242]".toList = some 4242 := by decide +kernel

def ProcEntry.sockets (e : ProcEntry) : List ℕ :=
  (e.fds.getD []).filterMap (fun target => target.bind socketInode)

/-- What `inode_to_pid` notes of a process that holds a socket. -/
def ProcEntry.holder (inode : ℕ) (e : ProcEntry) : Option (ℕ × String) :=
  if inode ∈ e.sockets then e.pid.map (fun pid => (pid, e.name)) else none

def firstHolder (walk : List ProcEntry) (inode : ℕ) : Option (ℕ × String) :=
  walk.findSome? (ProcEntry.holder inode)

def ProcEntry.claims (e : ProcEntry) : List (ℕ × (ℕ × String)) :=
  match e.pid with
  | some pid => e.sockets.map (fun inode => (inode, (pid, e.name)))
  | none => []

theorem holdEntry_eq (map : InodeOwner) (e : ProcEntry) :
    holdEntry map e = map.keepAll e.claims := by
  unfold holdEntry ProcEntry.claims
  cases e.pid with
  | none => rfl
  | some pid =>
    unfold ProcEntry.sockets
    cases e.fds with
    | none => rfl
    | some fds =>
      dsimp only [Option.getD_some]
      unfold holdSockets Table.keepAll
      rw [List.foldl_map, List.foldl_filterMap]
      congr 1
      funext map target
      cases target.bind socketInode <;> rfl

theorem inodeToPid_eq (walk : List ProcEntry) :
    inodeToPid (some walk) = Table.keepAll ∅ (walk.flatMap ProcEntry.claims) := by
  unfold inodeToPid
  dsimp only
  generalize (∅ : InodeOwner) = map
  induction walk generalizing map with
  | nil => rfl
  | cons e walk ih =>
    rw [List.foldl_cons, holdEntry_eq, ih, List.flatMap_cons, Table.keepAll_append]

theorem firstValue_claims (inode : ℕ) (e : ProcEntry) :
    firstValue inode e.claims = e.holder inode := by
  unfold ProcEntry.claims ProcEntry.holder
  cases e.pid with
  | none => simp [firstValue]
  | some pid =>
    induction e.sockets with
    | nil => rfl
    | cons ino rest ih =>
      unfold firstValue at ih ⊢
      by_cases h : ino = inode
      · simp [h]
      · have h' : inode ≠ ino := fun e => h e.symm
        simpa [h, h'] using ih

theorem lookup_inodeToPid (walk : List ProcEntry) (inode : ℕ) :
    (inodeToPid (some walk)).lookup inode = firstHolder walk inode := by
  rw [inodeToPid_eq, Table.lookup_keepAll, Table.lookup_empty, Option.none_or]
  unfold firstHolder
  induction walk with
  | nil => rfl
  | cons e walk ih =>
    rw [List.findSome?_cons, ← ih, ← firstValue_claims]
    unfold firstValue
    rw [List.flatMap_cons, List.find?_append]
    cases e.claims.find? (fun r => r.1 = inode) <;> rfl

theorem mem_of_firstHolder {walk : List ProcEntry} {inode : ℕ} {owner : ℕ × String}
    (h : firstHolder walk inode = some owner) :
    ∃ e ∈ walk, inode ∈ e.sockets ∧ e.pid = some owner.1 ∧ e.name = owner.2 := by
  obtain ⟨e, he, hold⟩ := List.exists_of_findSome?_eq_some h
  unfold ProcEntry.holder at hold
  split at hold
  · next hmem =>
    obtain ⟨pid, hpid, rfl⟩ := Option.map_eq_some_iff.mp hold
    exact ⟨e, he, hmem, hpid, rfl⟩
  · cases hold

theorem comm_own (rows : List OwnedRow) (o : Owners) : (rows.foldl Owners.own o).comm =
    o.comm.keepAll (rows.map (fun r => (r.pid, r.comm))) := by
  induction rows generalizing o with
  | nil => rfl
  | cons r rows ih => exact ih (o.own r)

theorem walked_of_owned {files : ProcFs} {walk : List ProcEntry} {paths : List String}
    {r : OwnedRow} (hr : r ∈ ownedRows files (inodeToPid (some walk)) paths) :
    ∃ e ∈ walk, e.pid = some r.pid ∧ e.name = r.comm := by
  obtain ⟨path, -, hr⟩ := List.mem_flatMap.mp hr
  obtain ⟨row, -, hown⟩ := List.mem_filterMap.mp hr
  obtain ⟨owner, hlookup, rfl⟩ := Option.map_eq_some_iff.mp hown
  rw [lookup_inodeToPid] at hlookup
  obtain ⟨e, he, -, hpid, hname⟩ := mem_of_firstHolder hlookup
  exact ⟨e, he, hpid, hname⟩

theorem walked_unique {walk : List ProcEntry} (hpids : (walk.filterMap ProcEntry.pid).Nodup)
    {e e' : ProcEntry} (he : e ∈ walk) (he' : e' ∈ walk) {pid : ℕ} (hp : e.pid = some pid)
    (hp' : e'.pid = some pid) : e = e' := by
  induction walk with
  | nil => cases he
  | cons d walk ih =>
    have hmem : ∀ {x : ProcEntry}, x ∈ walk → x.pid = some pid →
        pid ∈ walk.filterMap ProcEntry.pid := fun hx hxp => List.mem_filterMap.mpr ⟨_, hx, hxp⟩
    have hrest : (walk.filterMap ProcEntry.pid).Nodup :=
      hpids.sublist ((List.sublist_cons_self d walk).filterMap _)
    have hd : d.pid = some pid → pid ∉ walk.filterMap ProcEntry.pid := by
      intro hdp
      rw [List.filterMap_cons_some hdp] at hpids
      exact (List.nodup_cons.mp hpids).1
    rcases List.mem_cons.mp he with rfl | hin <;> rcases List.mem_cons.mp he' with rfl | hin'
    · rfl
    · exact absurd (hmem hin' hp') (hd hp)
    · exact absurd (hmem hin hp) (hd hp')
    · exact ih hrest hin hin'

theorem name_of_owned {files : ProcFs} {walk : List ProcEntry} {paths : List String}
    (hpids : (walk.filterMap ProcEntry.pid).Nodup) {r : OwnedRow}
    (hr : r ∈ ownedRows files (inodeToPid (some walk)) paths) {o : Owners}
    (hsnap : snapshot files (inodeToPid (some walk)) paths = .ok o) :
    o.comm.lookup r.pid = some r.comm := by
  rw [snapshot_eq _ (sliceable_of_snapshot hsnap)] at hsnap
  rw [← Except.ok.inj hsnap, comm_own, Table.lookup_keepAll, Table.lookup_empty, Option.none_or]
  have hsome : (firstValue r.pid ((ownedRows files (inodeToPid (some walk)) paths).map
      (fun r => (r.pid, r.comm)))).isSome :=
    firstValue_isSome.mpr ⟨_, List.mem_map_of_mem hr, rfl⟩
  obtain ⟨comm, hcomm⟩ := Option.isSome_iff_exists.mp hsome
  obtain ⟨r', hr', hsame⟩ := List.mem_map.mp (mem_of_firstValue hcomm)
  obtain ⟨hpid, rfl⟩ := Prod.mk.inj hsame
  obtain ⟨e, he, hep, hname⟩ := walked_of_owned hr
  obtain ⟨e', he', hep', hname'⟩ := walked_of_owned hr'
  obtain rfl := walked_unique hpids he he' hep (hpid ▸ hep')
  rw [hcomm, ← hname, ← hname']

/-- Who holds the sockets that the tables list at an endpoint, in table order. -/
def holdersAt (files : ProcFs) (walk : List ProcEntry) (paths : List String) (ep : Endpoint) :
    List (ℕ × String) :=
  (paths.flatMap (tableRows files)).filterMap (fun row =>
    if row.ep = ep then firstHolder walk row.inode else none)

theorem holdersAt_eq (files : ProcFs) (walk : List ProcEntry) (paths : List String)
    (ep : Endpoint) : holdersAt files walk paths ep =
      ((ownedRows files (inodeToPid (some walk)) paths).filter (fun r => r.ep = ep)).map
        (fun r => (r.pid, r.comm)) := by
  unfold holdersAt ownedRows
  induction paths with
  | nil => rfl
  | cons path paths ih =>
    rw [List.flatMap_cons, List.filterMap_append, ih, List.flatMap_cons, List.filter_append,
      List.map_append]
    congr 1
    induction tableRows files path with
    | nil => rfl
    | cons row rows ihr =>
      rw [List.filterMap_cons, List.filterMap_cons, lookup_inodeToPid]
      by_cases hep : row.ep = ep
      · cases firstHolder walk row.inode with
        | none => simpa [hep] using ihr
        | some owner => simp [hep, ihr]
      · cases firstHolder walk row.inode with
        | none => simpa [hep] using ihr
        | some owner => simpa [hep] using ihr

/-- From `/proc` to a frame: it is charged to the first process of the walk that holds
the socket of the last row for its local endpoint whose socket is held, under that
process's name, and to "unknown" when no process holds one. -/
theorem charged_to_holder (p : Pnet) (files : ProcFs) (ours : Option (ℕ × ℕ))
    (walk : List ProcEntry) (tables : Option (List ProcEntry))
    (hpids : (walk.filterMap ProcEntry.pid).Nodup) (owners : Owners)
    (hsnap : snapshotProc files ours (some walk) tables = .ok owners) (locals : List IpAddr)
    (frame : Bytes) (ep : Endpoint) (hep : localEndpoint p locals frame = some ep) :
    (charged p owners locals frame).map (fun x => (x.pid, x.comm)) =
      some ((holdersAt files walk (netnsSocketTables ours tables) ep).getLast?.getD
        (0,"unknown")) := by
  unfold snapshotProc at hsnap
  generalize netnsSocketTables ours tables = paths at hsnap ⊢
  rw [holdersAt_eq, List.getLast?_map]
  have hlookup := lookup_byEp hsnap ep
  unfold lastOwner at hlookup
  obtain ⟨f, hf, hfep⟩ := Option.bind_eq_some_iff.mp hep
  have hpair : (charged p owners locals frame).map (fun x => (x.pid, x.comm)) =
      some (charge owners locals f) := by
    rw [charged, hf]
    rfl
  rw [hpair]
  congr 1
  cases hlast : ((ownedRows files (inodeToPid (some walk)) paths).filter
      (fun r => r.ep = ep)).getLast? with
  | none =>
    rw [hlast] at hlookup
    exact charge_unattributed ⟨ep, hfep, hlookup⟩
  | some r =>
    rw [hlast] at hlookup
    have hr := List.mem_of_mem_filter (List.mem_of_getLast? hlast)
    have hname := name_of_owned hpids hr hsnap
    rcases charge_pid owners locals f with ⟨ep', pid, hep', hpid, hc⟩ | ⟨⟨ep', hep', hnone⟩, -⟩ |
      ⟨hports, -⟩
    · obtain rfl : ep' = ep := Option.some.inj (hep' ▸ hfep)
      obtain rfl : pid = r.pid := Option.some.inj (hpid ▸ hlookup)
      rw [hc, hname]
      rfl
    · obtain rfl : ep' = ep := Option.some.inj (hep' ▸ hfep)
      rw [hlookup] at hnone
      cases hnone
    · rw [Flow.endpoint, hports] at hfep
      cases hfep

def forkedWalk : List ProcEntry :=
  [⟨some "self".toList, none, none, none⟩,
    ⟨some "7".toList, some (1,100), some "curl\n".toList, some [none, some "socket:[4242]".toList]⟩,
    ⟨some "9".toList, some (1,100), some "sh\n".toList, some [some "socket:[4242]".toList]⟩]

def forkedOwners : Owners :=
  (ownedRows (procFs boxFiles) (inodeToPid (some forkedWalk))
    (netnsSocketTables (some (1,100)) (some forkedWalk))).foldl Owners.own {}

theorem charged_to_holder_forked :
    (charged .wire forkedOwners [ourAddr] tcpSegment).map (fun x => (x.pid, x.comm)) =
      some ((holdersAt (procFs boxFiles) forkedWalk
        (netnsSocketTables (some (1,100)) (some forkedWalk)) ourEndpoint).getLast?.getD
        (0,"unknown")) ∧
    holdersAt (procFs boxFiles) forkedWalk
      (netnsSocketTables (some (1,100)) (some forkedWalk)) ourEndpoint = [(7,"curl")] :=
  ⟨charged_to_holder .wire (procFs boxFiles) (some (1,100)) forkedWalk (some forkedWalk)
    (by decide +kernel) forkedOwners
    (snapshot_eq _ (sliceable_procFs (by decide +kernel) _)) [ourAddr] tcpSegment ourEndpoint
    endpoint_tcpSegment, by decide +kernel⟩

end Netmeter
