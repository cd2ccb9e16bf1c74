import Netmeter.ProcNames
import Netmeter.Lib.Text
set_option autoImplicit false

/-!
The owners of sockets: the tables of `/proc/net`, a set for each network
namespace with our own last, and the map that `snapshot` builds from them.
-/

namespace Netmeter
open Keyed Text

inductive Panic where
  | charBoundary
  deriving DecidableEq, Repr

def leBytes (w : ℕ) : Bytes := [.ofNat w, .ofNat (w / 2^8), .ofNat (w / 2^16), .ofNat (w / 2^24)]

def readWords (hexIp : List Char) : List ℕ → Except Panic (Option Bytes)
  | [] => .ok (some [])
  | i :: is =>
    match slice (i*8) (i*8+8) hexIp with
    | none => .error .charBoundary
    | some chunk =>
      match fromStrRadix 16 (2^32) chunk with
      | none => .ok none
      | some w => (readWords hexIp is).map (fun b => b.map (leBytes w ++ ·))

def parseLocal (s : List Char) (v6 : Bool) : Except Panic (Option Endpoint) :=
  match splitOnce ':' s with
  | none => .ok none
  | some (hexIp, hexPort) =>
    match fromStrRadix 16 (2^16) hexPort with
    | none => .ok none
    | some port =>
      if v6 then
        if byteLen hexIp ≠ 32 then .ok none
        else (readWords hexIp [0, 1, 2, 3]).map (fun b =>
          b.map (fun b => ⟨.v6 (octetsAt 16 b 0), .ofNat port⟩))
      else .ok ((fromStrRadix 16 (2^32) hexIp).map (fun raw =>
        ⟨.v4 (octetsAt 4 (leBytes raw) 0), .ofNat port⟩))

example : parseLocal "0100007F:0035".toList false =
    .ok (some ⟨.v4 #v[127, 0, 0, 1], 53⟩) := by decide +kernel

structure SocketRow where
  ep : Endpoint
  inode : ℕ
  deriving DecidableEq

def readRow (v6 : Bool) (line : List Char) : Except Panic (Option SocketRow) :=
  let f := splitWhitespace line
  if f.length < 10 then .ok none
  else (parseLocal (f.getD 1 []) v6).map (fun ep => ep.bind (fun ep =>
    ((fromStrRadix 10 (2^64) (f.getD 9 [])).filter (· ≠ 0)).map (fun inode => ⟨ep,inode⟩)))

/-- The texts under `/proc`; `none` where a file does not read. -/
abbrev ProcFs := String → Option (List Char)

abbrev InodeOwner := Table ℕ (ℕ × String)

def Owners.insert (inodeOwner : InodeOwner) (o : Owners) (r : SocketRow) : Owners :=
  match inodeOwner.lookup r.inode with
  | some (pid, comm) => ⟨o.byEp.set r.ep pid, o.comm.upsert pid comm id⟩
  | none => o

def isV6 (path : String) : Bool := path.toList.getLast? = some '6'

def snapshotTable (files : ProcFs) (inodeOwner : InodeOwner) (o : Owners) (path : String) :
    Except Panic Owners :=
  match files path with
  | none => .ok o
  | some text => readFold (readRow (isV6 path)) (Owners.insert inodeOwner) o ((lines text).drop 1)

def snapshot (files : ProcFs) (inodeOwner : InodeOwner) (paths : List String) :
    Except Panic Owners :=
  paths.foldlM (snapshotTable files inodeOwner) {}

/-- A process and the `(dev, ino)` of its network namespace. -/
structure ProcNs where
  pid : ℕ
  ns : ℕ × ℕ
  deriving DecidableEq

def protos : List String := ["tcp", "tcp6", "udp", "udp6"]

def procTable (pid : ℕ) (proto : String) : String :=
  "/proc/" ++ toString pid ++ "/net/" ++ proto

def ownTables : List String := protos.map (fun p => "/proc/net/" ++ p)

def foreignTables (ours : Option (ℕ × ℕ)) : List (ℕ × ℕ) → List ProcNs → List String
  | _, [] => []
  | seen, q :: procs =>
    if some q.ns = ours ∨ q.ns ∈ seen then foreignTables ours seen procs
    else protos.map (procTable q.pid) ++ foreignTables ours (q.ns :: seen) procs

def tablesFor (ours : Option (ℕ × ℕ)) (procs : List ProcNs) : List String :=
  foreignTables ours [] procs ++ ownTables

/-- The processes whose tables are read: the first one in each foreign namespace. -/
structure FirstOfEach (ours : Option (ℕ × ℕ)) (procs firsts : List ProcNs) : Prop where
  sublist : firsts.Sublist procs
  once : (firsts.map (·.ns)).Nodup
  mem : ∀ q, q ∈ firsts ↔ some q.ns ≠ ours ∧ procs.find? (fun q' => q'.ns = q.ns) = some q

def firstsOf (ours : Option (ℕ × ℕ)) : List (ℕ × ℕ) → List ProcNs → List ProcNs
  | _, [] => []
  | seen, q :: procs =>
    if some q.ns = ours ∨ q.ns ∈ seen then firstsOf ours seen procs
    else q :: firstsOf ours (q.ns :: seen) procs

theorem foreignTables_eq (ours : Option (ℕ × ℕ)) (seen : List (ℕ × ℕ)) (procs : List ProcNs) :
    foreignTables ours seen procs =
      (firstsOf ours seen procs).flatMap (fun q => protos.map (procTable q.pid)) := by
  induction procs generalizing seen with
  | nil => rfl
  | cons q procs ih =>
    unfold foreignTables firstsOf
    split
    · exact ih seen
    · rw [List.flatMap_cons, ih]

theorem firstsOf_sublist (ours : Option (ℕ × ℕ)) (seen : List (ℕ × ℕ)) (procs : List ProcNs) :
    (firstsOf ours seen procs).Sublist procs := by
  induction procs generalizing seen with
  | nil => exact List.Sublist.slnil
  | cons q procs ih =>
    unfold firstsOf
    split
    · exact (ih seen).cons q
    · exact (ih (q.ns :: seen)).cons_cons q

theorem mem_firstsOf {ours : Option (ℕ × ℕ)} {seen : List (ℕ × ℕ)} {procs : List ProcNs}
    {q : ProcNs} : q ∈ firstsOf ours seen procs ↔
      some q.ns ≠ ours ∧ q.ns ∉ seen ∧ procs.find? (fun q' => q'.ns = q.ns) = some q := by
  induction procs generalizing seen with
  | nil => simp [firstsOf]
  | cons r procs ih =>
    unfold firstsOf
    by_cases hns : r.ns = q.ns
    · rw [List.find?_cons_of_pos (by simpa using hns)]
      split
      · next hskip =>
        rw [ih]
        rw [hns] at hskip
        tauto
      · next hkeep =>
        rw [List.mem_cons, ih]
        rw [hns] at hkeep
        simp only [List.mem_cons, hns, true_or, not_true_eq_false, false_and, and_false, or_false,
          Option.some.injEq]
        tauto
    · rw [List.find?_cons_of_neg (by simpa using hns)]
      have hne : q ≠ r := fun h => hns (congrArg ProcNs.ns h).symm
      have hne' : q.ns ≠ r.ns := fun h => hns h.symm
      split
      · exact ih
      · rw [List.mem_cons, ih]
        simp [hne, hne']

theorem firstsOf_once (ours : Option (ℕ × ℕ)) (seen : List (ℕ × ℕ)) (procs : List ProcNs) :
    ((firstsOf ours seen procs).map (·.ns)).Nodup := by
  induction procs generalizing seen with
  | nil => exact List.nodup_nil
  | cons q procs ih =>
    unfold firstsOf
    split
    · exact ih seen
    · refine List.nodup_cons.mpr ⟨fun hmem => ?_, ih (q.ns :: seen)⟩
      obtain ⟨r, hr, hns⟩ := List.mem_map.mp hmem
      exact (mem_firstsOf.mp hr).2.1 (by rw [hns]; exact List.mem_cons_self)

theorem firstOfEach_firstsOf (ours : Option (ℕ × ℕ)) (procs : List ProcNs) :
    FirstOfEach ours procs (firstsOf ours [] procs) where
  sublist := firstsOf_sublist ours [] procs
  once := firstsOf_once ours [] procs
  mem _ := by simp [mem_firstsOf]

theorem toList_procTable (pid : ℕ) (proto : String) : (procTable pid proto).toList =
    "/proc/".toList ++ (Nat.toDigits 10 pid ++ '/' :: ("net/".toList ++ proto.toList)) := by
  simp [procTable]

theorem slash_notMem_digits (n : ℕ) : '/' ∉ Nat.toDigits 10 n := fun h =>
  absurd (Nat.isDigit_of_mem_toDigits (by norm_num) (by norm_num) h) (by decide)

theorem procTable_inj {pid pid' : ℕ} {proto proto' : String}
    (h : procTable pid proto = procTable pid' proto') : pid = pid' ∧ proto = proto' := by
  have hlist := congrArg String.toList h
  rw [toList_procTable, toList_procTable] at hlist
  obtain ⟨hdigits, hrest⟩ := split_at_first (slash_notMem_digits pid) (slash_notMem_digits pid')
    (List.append_cancel_left hlist)
  refine ⟨?_, String.toList_injective (List.append_cancel_left hrest)⟩
  rw [← Nat.ofDigitChars_ten_toDigits (n := pid), hdigits, Nat.ofDigitChars_ten_toDigits]

theorem procTable_ne_own (pid : ℕ) (proto name : String) :
    procTable pid proto ≠ "/proc/net/" ++ name := by
  intro h
  have hlist := congrArg String.toList h
  have hown : ("/proc/net/" ++ name).toList =
      "/proc/".toList ++ ("net".toList ++ '/' :: name.toList) := by simp
  rw [toList_procTable, hown] at hlist
  obtain ⟨hdigits, -⟩ := split_at_first (slash_notMem_digits pid) (by decide)
    (List.append_cancel_left hlist)
  have hn : 'n' ∈ Nat.toDigits 10 pid := by
    rw [hdigits]
    decide
  exact absurd (Nat.isDigit_of_mem_toDigits (by norm_num) (by norm_num) hn) (by decide)

theorem tablesFor_nodup (ours : Option (ℕ × ℕ)) {procs : List ProcNs}
    (hpids : (procs.map (·.pid)).Nodup) : (tablesFor ours procs).Nodup := by
  unfold tablesFor
  rw [foreignTables_eq, List.nodup_append]
  have hfirsts : ((firstsOf ours [] procs).map (·.pid)).Nodup :=
    ((firstsOf_sublist ours [] procs).map _).nodup hpids
  refine ⟨List.nodup_flatMap.mpr ⟨fun q _ => ?_, ?_⟩, by decide, ?_⟩
  · exact List.Nodup.map (fun _ _ h => (procTable_inj h).2) (by decide)
  · refine (List.pairwise_map.mp hfirsts).imp (fun {q q'} hne path hq hq' => ?_)
    obtain ⟨proto, -, rfl⟩ := List.mem_map.mp hq
    obtain ⟨proto', -, he⟩ := List.mem_map.mp hq'
    exact hne (procTable_inj he).1.symm
  · intro path hq path' hown he
    obtain ⟨q, -, hq⟩ := List.mem_flatMap.mp hq
    obtain ⟨proto, -, rfl⟩ := List.mem_map.mp hq
    obtain ⟨name, -, rfl⟩ := List.mem_map.mp hown
    exact procTable_ne_own q.pid proto name he

def tableRows (files : ProcFs) (path : String) : List SocketRow :=
  match files path with
  | none => []
  | some text => readItems (readRow (isV6 path)) ((lines text).drop 1)

/-- A row whose socket has an owner, and the table it stands in. -/
structure OwnedRow where
  path : String
  ep : Endpoint
  pid : ℕ
  comm : String
  deriving DecidableEq

def ownedRows (files : ProcFs) (inodeOwner : InodeOwner) (paths : List String) : List OwnedRow :=
  paths.flatMap (fun path => (tableRows files path).filterMap (fun r =>
    (inodeOwner.lookup r.inode).map (fun o => ⟨path, r.ep, o.1, o.2⟩)))

/-- No row cuts its address inside a character. -/
def Sliceable (files : ProcFs) (paths : List String) : Prop :=
  ∀ path ∈ paths, ∀ text, files path = some text →
    ∀ line ∈ (lines text).drop 1, ∃ r, readRow (isV6 path) line = .ok r

def Owners.own (o : Owners) (r : OwnedRow) : Owners :=
  ⟨o.byEp.set r.ep r.pid, o.comm.upsert r.pid r.comm id⟩

variable {files : ProcFs} {inodeOwner : InodeOwner} {paths : List String}

theorem ownedRows_append (paths paths' : List String) :
    ownedRows files inodeOwner (paths ++ paths') =
      ownedRows files inodeOwner paths ++ ownedRows files inodeOwner paths' :=
  List.flatMap_append

theorem snapshotTable_eq {path : String} (h : Sliceable files [path]) (o : Owners) :
    snapshotTable files inodeOwner o path =
      .ok ((ownedRows files inodeOwner [path]).foldl Owners.own o) := by
  unfold snapshotTable ownedRows
  rw [List.flatMap_singleton, List.foldl_filterMap]
  unfold tableRows
  cases htext : files path with
  | none => rfl
  | some text =>
    dsimp only
    rw [readFold_eq (h path List.mem_cons_self text htext)]
    congr 2
    funext o r
    unfold Owners.insert
    cases inodeOwner.lookup r.inode <;> rfl

theorem snapshot_eq (inodeOwner : InodeOwner) (h : Sliceable files paths) :
    snapshot files inodeOwner paths =
      .ok ((ownedRows files inodeOwner paths).foldl Owners.own {}) := by
  unfold snapshot
  generalize ({} : Owners) = o
  induction paths generalizing o with
  | nil => rfl
  | cons path paths ih =>
    have hpath : Sliceable files [path] := fun p hp =>
      h p (List.mem_singleton.mp hp ▸ List.mem_cons_self)
    have hrows : ownedRows files inodeOwner (path :: paths) =
        ownedRows files inodeOwner [path] ++ ownedRows files inodeOwner paths :=
      ownedRows_append [path] paths
    rw [List.foldlM_cons, snapshotTable_eq hpath, hrows, List.foldl_append]
    exact ih (fun p hp => h p (List.mem_cons_of_mem _ hp)) _

theorem sliceable_of_snapshot {o : Owners} (h : snapshot files inodeOwner paths = .ok o) :
    Sliceable files paths := by
  unfold snapshot at h
  generalize ({} : Owners) = start at h
  induction paths generalizing start with
  | nil => exact fun path hpath => absurd hpath (List.not_mem_nil)
  | cons path paths ih =>
    rw [List.foldlM_cons] at h
    cases ht : snapshotTable files inodeOwner start path with
    | error e =>
      rw [ht] at h
      cases h
    | ok next =>
      rw [ht] at h
      refine List.forall_mem_cons.mpr ⟨fun text htext => ?_, ih next h⟩
      unfold snapshotTable at ht
      rw [htext] at ht
      exact readFold_ok ht

theorem byEp_own (rows : List OwnedRow) (o : Owners) : (rows.foldl Owners.own o).byEp =
    o.byEp.setAll (rows.map (fun r => (r.ep, r.pid))) := by
  induction rows generalizing o with
  | nil => rfl
  | cons r rows ih => exact ih (o.own r)

def lastOwner (rows : List OwnedRow) (ep : Endpoint) : Option ℕ :=
  ((rows.filter (fun r => r.ep = ep)).getLast?).map (·.pid)

theorem lastOwner_eq (rows : List OwnedRow) (ep : Endpoint) :
    lastOwner rows ep = Table.lastValue ep (rows.map (fun r => (r.ep, r.pid))) := by
  unfold lastOwner Table.lastValue
  rw [List.filter_map, List.getLast?_map, Option.map_map]
  congr 3
  funext r
  exact decide_eq_decide.mpr Iff.rfl

theorem lastOwner_append (rows rows' : List OwnedRow) (ep : Endpoint) :
    lastOwner (rows ++ rows') ep = (lastOwner rows' ep).or (lastOwner rows ep) := by
  rw [lastOwner_eq, lastOwner_eq, lastOwner_eq, List.map_append, Table.lastValue_append]

theorem lookup_byEp {o : Owners} (h : snapshot files inodeOwner paths = .ok o) (ep : Endpoint) :
    o.byEp.lookup ep = lastOwner (ownedRows files inodeOwner paths) ep := by
  rw [snapshot_eq inodeOwner (sliceable_of_snapshot h)] at h
  rw [← Except.ok.inj h, byEp_own, Table.lookup_setAll, lastOwner_eq, Table.lookup_empty,
    Option.or_none]

def Owners.Closed (o : Owners) : Prop :=
  ∀ ep pid, o.byEp.lookup ep = some pid → o.comm.lookup pid ≠ none

theorem closed_own {o : Owners} (h : o.Closed) (r : OwnedRow) : (o.own r).Closed := by
  intro ep pid hpid
  unfold Owners.own at hpid ⊢
  rw [Table.lookup_set] at hpid
  rw [Table.lookup_upsert]
  split
  · simp
  · next hne =>
    split at hpid
    · exact absurd (Option.some.inj hpid).symm hne
    · exact h ep pid hpid

theorem closed_snapshot {o : Owners} (h : snapshot files inodeOwner paths = .ok o) :
    o.Closed := by
  rw [snapshot_eq inodeOwner (sliceable_of_snapshot h)] at h
  rw [← Except.ok.inj h]
  generalize ownedRows files inodeOwner paths = rows
  induction rows using List.reverseRecOn with
  | nil => exact fun ep pid hpid => by simp at hpid
  | append_singleton rows r ih =>
    rw [List.foldl_append]
    exact closed_own ih r

/-! ## Texts of the kernel -/

theorem readWords_ascii {hexIp : List Char} (h : Ascii hexIp) (is : List ℕ)
    (his : ∀ i ∈ is, i*8+8 ≤ hexIp.length) : ∃ b, readWords hexIp is = .ok b := by
  induction is with
  | nil => exact ⟨_, rfl⟩
  | cons i is ih =>
    unfold readWords
    rw [slice_ascii h (Nat.le_add_right _ 8) (his i List.mem_cons_self)]
    dsimp only
    split
    · exact ⟨_, rfl⟩
    · obtain ⟨b, hb⟩ := ih (fun j hj => his j (List.mem_cons_of_mem _ hj))
      exact ⟨_, by rw [hb]; rfl⟩

theorem parseLocal_ascii {s : List Char} (h : Ascii s) (v6 : Bool) :
    ∃ ep, parseLocal s v6 = .ok ep := by
  unfold parseLocal
  split
  · exact ⟨_, rfl⟩
  · next hexIp hexPort hsplit =>
    have hip : Ascii hexIp := h.mono (splitOnce_subset hsplit).1
    split
    · exact ⟨_, rfl⟩
    · split
      · split
        · exact ⟨_, rfl⟩
        · next hlen =>
          rw [byteLen_ascii hip, not_not] at hlen
          obtain ⟨b, hb⟩ := readWords_ascii hip [0, 1, 2, 3] (by simp [hlen])
          exact ⟨_, by rw [hb]; rfl⟩
      · exact ⟨_, rfl⟩

theorem readRow_ascii {line : List Char} (h : Ascii line) (v6 : Bool) :
    ∃ r, readRow v6 line = .ok r := by
  unfold readRow
  dsimp only
  split
  · exact ⟨_, rfl⟩
  · next hlen =>
    have hword : (splitWhitespace line).getD 1 [] ∈ splitWhitespace line := by
      rw [List.getD_eq_getElem _ _ (by omega)]
      exact List.getElem_mem _
    obtain ⟨ep, hep⟩ := parseLocal_ascii (h.mono (subset_splitWhitespace hword)) v6
    exact ⟨_, by rw [hep]; rfl⟩

theorem sliceable_ascii (h : ∀ path ∈ paths, ∀ text, files path = some text → Ascii text) :
    Sliceable files paths := fun path hpath text htext _ hline =>
  readRow_ascii ((h path hpath text htext).mono (subset_lines (List.mem_of_mem_drop hline))) _

/-- What a snapshot of foreign tables, then our own, says of every endpoint. -/
structure Owners.OursFirst (files : ProcFs) (inodeOwner : InodeOwner) (foreign : List String)
    (o : Owners) : Prop where
  owner : ∀ ep, o.byEp.lookup ep = (lastOwner (ownedRows files inodeOwner ownTables) ep).or
    (lastOwner (ownedRows files inodeOwner foreign) ep)
  named : o.Closed

theorem procTable_mem {ours : Option (ℕ × ℕ)} {procs : List ProcNs}
    (hpids : (procs.map (·.pid)).Nodup) {q : ProcNs} (hq : q ∈ procs) {proto : String}
    (hproto : proto ∈ protos) :
    procTable q.pid proto ∈ tablesFor ours procs ↔ q ∈ firstsOf ours [] procs := by
  unfold tablesFor
  rw [foreignTables_eq, List.mem_append]
  constructor
  · rintro (h | h)
    · obtain ⟨q', hq', h⟩ := List.mem_flatMap.mp h
      obtain ⟨proto', -, he⟩ := List.mem_map.mp h
      have hsame : q' = q := List.inj_on_of_nodup_map hpids
        ((firstsOf_sublist ours [] procs).subset hq') hq (procTable_inj he).1
      exact hsame ▸ hq'
    · obtain ⟨name, -, he⟩ := List.mem_map.mp h
      exact absurd he.symm (procTable_ne_own q.pid proto name)
  · intro h
    exact .inl (List.mem_flatMap.mpr ⟨q, h, List.mem_map_of_mem hproto⟩)

/-- Four tables of the first process in each foreign namespace, then ours; the last
owned row for an endpoint wins, so ours do. Only a row that cuts its address inside a
character ends the snapshot. -/
theorem own_tables_win (files : ProcFs) (inodeOwner : InodeOwner) (ours : Option (ℕ × ℕ))
    (procs : List ProcNs) (hpids : (procs.map (·.pid)).Nodup) :
    ∃ firsts, FirstOfEach ours procs firsts ∧
      tablesFor ours procs =
        firsts.flatMap (fun q => protos.map (procTable q.pid)) ++ ownTables ∧
      (∀ q ∈ procs, ∀ proto ∈ protos,
        (procTable q.pid proto ∈ tablesFor ours procs ↔ q ∈ firsts)) ∧
      (tablesFor ours procs).Nodup ∧
      (Sliceable files (tablesFor ours procs) ↔
        ∃ o, snapshot files inodeOwner (tablesFor ours procs) = .ok o ∧
          o.OursFirst files inodeOwner
            (firsts.flatMap (fun q => protos.map (procTable q.pid)))) := by
  have htables : tablesFor ours procs = (firstsOf ours [] procs).flatMap
      (fun q => protos.map (procTable q.pid)) ++ ownTables := by
    rw [tablesFor, foreignTables_eq]
  refine ⟨firstsOf ours [] procs, firstOfEach_firstsOf ours procs, htables,
    fun q hq proto hproto => procTable_mem hpids hq hproto, tablesFor_nodup ours hpids, ?_⟩
  constructor
  · intro hslice
    have hsnap := snapshot_eq inodeOwner hslice
    refine ⟨_, hsnap, fun ep => ?_, closed_snapshot hsnap⟩
    rw [lookup_byEp hsnap, htables, ownedRows_append, lastOwner_append]
  · rintro ⟨o, hsnap, -⟩
    exact sliceable_of_snapshot hsnap

def socketLine (addr inode : String) : List Char :=
  "0: ".toList ++ addr.toList ++ " 0100000A:01BB 01 0:0 0:0 0 1000 0 ".toList ++ inode.toList ++
    ['\n']

def socketTable (rows : List (String × String)) : List Char :=
  "sl\n".toList ++ rows.flatMap (fun r => socketLine r.1 r.2)

def procFs (texts : List (String × List Char)) : ProcFs := fun path => texts.lookup path

theorem sliceable_procFs {texts : List (String × List Char)} (h : ∀ x ∈ texts, Ascii x.2)
    (paths : List String) : Sliceable (procFs texts) paths :=
  sliceable_ascii (fun path _ text htext => by
    obtain ⟨l, l', rfl, -⟩ := List.lookup_eq_some_iff.mp htext
    exact h (path,text) (by simp))

def boxFiles : List (String × List Char) :=
  [("/proc/net/tcp", socketTable [("0200000A:C350","4242")]),
    ("/proc/11/net/tcp", socketTable [("0200000A:C350","77")])]

def boxInodes : InodeOwner := (Table.set ∅ 4242 (7,"curl")).set 77 (11,"nginx")

def boxProcs : List ProcNs := [⟨7,(1,100)⟩, ⟨11,(2,200)⟩, ⟨12,(2,200)⟩]

theorem own_tables_win_box : ∃ firsts, FirstOfEach (some (1,100)) boxProcs firsts ∧
    tablesFor (some (1,100)) boxProcs =
      firsts.flatMap (fun q => protos.map (procTable q.pid)) ++ ownTables ∧
    (∀ q ∈ boxProcs, ∀ proto ∈ protos,
      (procTable q.pid proto ∈ tablesFor (some (1,100)) boxProcs ↔ q ∈ firsts)) ∧
    (tablesFor (some (1,100)) boxProcs).Nodup ∧
    (Sliceable (procFs boxFiles) (tablesFor (some (1,100)) boxProcs) ↔
      ∃ o, snapshot (procFs boxFiles) boxInodes (tablesFor (some (1,100)) boxProcs) = .ok o ∧
        o.OursFirst (procFs boxFiles) boxInodes
          (firsts.flatMap (fun q => protos.map (procTable q.pid)))) :=
  own_tables_win (procFs boxFiles) boxInodes (some (1,100)) boxProcs (by decide)

/-- Bytes 7 and 8 of this address are one character. -/
def accentFiles : List (String × List Char) :=
  [("/proc/net/tcp6", socketTable [("0000000é00000000000000000000000:C350","4242")])]

theorem not_own_tables_win :
    ¬ ∀ (files : ProcFs) (inodeOwner : InodeOwner) (ours : Option (ℕ × ℕ)) (procs : List ProcNs),
      (procs.map (·.pid)).Nodup →
      ∃ o, snapshot files inodeOwner (tablesFor ours procs) = .ok o := by
  intro h
  obtain ⟨o, ho⟩ := h (procFs accentFiles) boxInodes none [] List.nodup_nil
  have hpanic : (snapshot (procFs accentFiles) boxInodes (tablesFor none [])).isOk = false := by
    decide +kernel
  rw [ho] at hpanic
  cases hpanic

end Netmeter
