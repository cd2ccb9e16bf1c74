import Netmeter.Lib.Subrows
import Netmeter.ProcNetDev
import Netmeter.Import
set_option autoImplicit false

/-!
From the kernel's files to the database: what a tick reads of `/proc`, `/sys` and nft,
and runs of the daemon over it against runs over the kernel's own counters.
-/

namespace Netmeter
open Keyed Text

def Json.asU64 : Json → Option UInt64
  | .int n => if 0 ≤ n ∧ n < 18446744073709551616 then some (.ofNat n.toNat) else none
  | _ => none

/-- One object of the listing; a counter without a name is no counter of ours. -/
def nftCounter (lan : Option UInt64 × Option UInt64) (obj : Json) :
    Option UInt64 × Option UInt64 :=
  match obj.get "counter" with
  | none => lan
  | some c =>
    let name := ((c.get "name").bind Json.asStr).getD ""
    let bytes := ((c.get "bytes").bind Json.asU64).getD 0
    if name = "lan_rx_bytes" then (some bytes, lan.2)
    else if name = "lan_tx_bytes" then (lan.1, some bytes)
    else lan

def parseNftCounters (fromStr : String → Option Json) (text : String) :
    Option (UInt64 × UInt64) :=
  match fromStr text with
  | none => none
  | some v =>
    match (((v.get "nftables").bind Json.asArray).getD []).foldl nftCounter (none, none) with
    | (some r, some t) => some (r,t)
    | _ => none

structure Output where
  success : Bool
  stdout : String

/-- `read_nft`; no output where the command does not start. -/
def readNft (fromStr : String → Option Json) (out : Option Output) : Option (UInt64 × UInt64) :=
  out.bind (fun o => if o.success then parseNftCounters fromStr o.stdout else none)

/-- The files that a tick reads; `none` where one cannot be read. -/
structure NetFiles where
  procNetDev : Option (List Char)
  sysClassNet : Option (List String)
  rxBytes : String → Option (List Char)
  txBytes : String → Option (List Char)
  speed : String → Option (List Char)

def fileNumber (file : Option (List Char)) : Option ℕ :=
  file.bind (fun s => fromStrRadix 10 (2^64) (trim s))

def statistic (file : Option (List Char)) : UInt64 := .ofNat ((fileNumber file).getD 0)

/-- `read_proc`: `/sys/class/net` where `/proc/net/dev` names no interface. -/
def readProc (fs : NetFiles) : Table String (UInt64 × UInt64) :=
  let map := (fs.procNetDev.map parseProc).getD ∅
  if map.rows.isEmpty then
    Table.setAll ∅ ((fs.sysClassNet.getD []).map
      (fun i => (i, statistic (fs.rxBytes i), statistic (fs.txBytes i))))
  else map

/-- The interfaces, their nominal speeds, and the named counters of our nft table
where there is one. -/
structure Kernel where
  devs : List NetDev
  distinct : (devs.map (·.name)).Nodup
  speed : String → Option UInt64
  counters : Option (Table String UInt64)

namespace Kernel

def totals (k : Kernel) : Table String (UInt64 × UInt64) :=
  Table.setAll ∅ (k.devs.map (fun d => (d.name, d.totals)))

def lan (k : Kernel) : Option (UInt64 × UInt64) :=
  k.counters.bind (fun t => (t.lookup "lan_rx_bytes").bind (fun r =>
    (t.lookup "lan_tx_bytes").map (fun t => (r,t))))

end Kernel

def numberText (n : UInt64) : List Char := Nat.toDigits 10 n.toNat ++ ['\n']

/-- An object of nft's listing: a counter with its other fields, or another kind. -/
inductive NftObject where
  | counter (name : String) (bytes : UInt64) (fields : List (String × Json))
      (h : fields.lookup "name" = some (.str name) ∧
        fields.lookup "bytes" = some (.int bytes.toNat))
  | other (obj : Json) (h : (obj.get "counter").isNone)

namespace NftObject

def json : NftObject → Json
  | .counter _ _ fields _ => .obj [("counter", .obj fields)]
  | .other obj _ => obj

def row : NftObject → Option (String × UInt64)
  | .counter name bytes _ _ => some (name,bytes)
  | .other _ _ => none

end NftObject

/-- nft lists the table's counters in any order among other objects, and fails
without the table. -/
def NftShows (fromStr : String → Option Json) (k : Kernel) (out : Option Output) : Prop :=
  match k.counters with
  | none => ∀ o, out = some o → o.success = false
  | some t => ∃ (text : String) (fields : List (String × Json)) (objs : List NftObject),
    out = some ⟨true, text⟩ ∧ fromStr text = some (.obj fields) ∧
      fields.lookup "nftables" = some (.arr (objs.map NftObject.json)) ∧
      (objs.filterMap NftObject.row).Perm t.rows

def ProcShows (k : Kernel) (text : List Char) : Prop :=
  ∃ header header' ls, '\n' ∉ header ∧ '\n' ∉ header' ∧ text = netDevText header header' ls ∧
    (ls.filterMap DevLine.dev).Perm k.devs

/-- Every interface is listed with its counters; whatever else is listed is stray
and has none. -/
structure SysShows (stray : String → Bool) (k : Kernel) (fs : NetFiles) (names : List String) :
    Prop where
  listed : ∀ i ∈ names, stray i = true ∨ ∃ d ∈ k.devs, d.name = i
  devs : ∀ d ∈ k.devs, d.name ∈ names ∧
    fs.rxBytes d.name = some (numberText d.totals.1) ∧
    fs.txBytes d.name = some (numberText d.totals.2)
  stray : ∀ i, stray i = true → fs.rxBytes i = none ∧ fs.txBytes i = none

/-- `/proc/net/dev` shows the interfaces; or it cannot be read or names none, and
`/sys/class/net` shows them. -/
structure NetFiles.Shows (stray : String → Bool) (k : Kernel) (fs : NetFiles) : Prop where
  totals : (k.devs ≠ [] ∧ ∃ text, fs.procNetDev = some text ∧ ProcShows k text) ∨
    (∀ text, fs.procNetDev = some text → ∀ line ∈ (lines text).drop 2, Short line) ∧
      SysShows stray k fs (fs.sysClassNet.getD [])
  speed : ∀ i, match k.speed i with
    | some n => fs.speed i = some (numberText n)
    -- the driver knows none
    | none => fs.speed i = none ∨ fs.speed i = some "-1\n".toList

theorem trim_word {w pad : List Char} (hne : w ≠ []) (hw : ∀ c ∈ w, isWhitespace c = false)
    (hpad : ∀ c ∈ pad, isWhitespace c = true) : trim (w ++ pad) = w := by
  obtain ⟨c, cs, rfl⟩ := List.exists_cons_of_ne_nil hne
  have hleft : ((c :: cs) ++ pad).dropWhile isWhitespace = (c :: cs) ++ pad := by
    simp [hw c List.mem_cons_self]
  have hright : ((c :: cs).reverse).dropWhile isWhitespace = (c :: cs).reverse := by
    rw [List.dropWhile_eq_self_iff]
    intro h
    simpa using hw _ (List.mem_reverse.mp (List.getElem_mem h))
  rw [trim, hleft, List.rdropWhile, List.reverse_append,
    List.dropWhile_append_of_pos (fun a ha => hpad a (List.mem_reverse.mp ha)), hright,
    List.reverse_reverse]

theorem fileNumber_text (n : UInt64) : fileNumber (some (numberText n)) = some n.toNat := by
  have hnum := numeral_column n
  have htrim : trim (numberText n) = Nat.toDigits 10 n.toNat :=
    trim_word hnum.ne_nil hnum.not_isWhitespace (by simp [isWhitespace])
  rw [fileNumber, Option.bind_some, htrim]
  exact hnum.fromStrRadix_eq n.toNat_lt

theorem statistic_text (n : UInt64) : statistic (some (numberText n)) = n := by
  rw [statistic, fileNumber_text]
  exact UInt64.ofNat_toNat

section Sources
variable {stray : String → Bool} {k : Kernel} {fs : NetFiles}

theorem lookup_totals {i : String} {v : UInt64 × UInt64} :
    k.totals.lookup i = some v ↔ ∃ d ∈ k.devs, d.name = i ∧ d.totals = v := by
  have hkeys : ((k.devs.map (fun d => (d.name, d.totals))).map (·.1)).Nodup := by
    rw [List.map_map]
    exact k.distinct
  rw [Kernel.totals, Table.lookup_setAll_empty hkeys]
  simp

theorem lookup_totals_stray (hk : ∀ d ∈ k.devs, stray d.name = false) {i : String}
    (hi : stray i = true) : k.totals.lookup i = none := by
  rw [Option.eq_none_iff_forall_ne_some]
  intro v hv
  obtain ⟨d, hd, rfl, -⟩ := lookup_totals.mp hv
  rw [hk d hd] at hi
  cases hi

theorem readProc_proc {text : List Char} (htext : fs.procNetDev = some text)
    (hshows : ProcShows k text) (hne : k.devs ≠ []) : readProc fs = k.totals := by
  obtain ⟨header, header', ls, h, h', rfl, hperm⟩ := hshows
  have hmap := hperm.map (fun d => (d.name, d.totals))
  have hkeys : ((k.devs.map (fun d => (d.name, d.totals))).map (·.1)).Nodup := by
    rw [List.map_map]
    exact k.distinct
  have hparse : parseProc (netDevText header header' ls) = k.totals := by
    rw [parseProc_text h h', Kernel.totals]
    exact (Table.setAll_empty_perm hkeys hmap.symm).symm
  obtain ⟨d, hd⟩ := List.exists_mem_of_ne_nil _ hne
  have hrow := Table.mem_rows.mpr (lookup_totals.mpr ⟨d, hd, rfl, rfl⟩)
  have hrows : k.totals.rows.isEmpty = false := by
    rw [List.isEmpty_eq_false_iff]
    exact List.ne_nil_of_mem hrow
  simp [readProc, htext, hparse, hrows]

theorem parseProc_short {text : List Char} (h : ∀ line ∈ (lines text).drop 2, Short line) :
    parseProc text = ∅ := by
  have hnone : ((lines text).drop 2).filterMap parseLine = [] :=
    List.filterMap_eq_nil_iff.mpr (fun line hline => parseLine_short (h line hline))
  rw [parseProc, hnone]
  rfl

theorem readProc_sys
    (hproc : ∀ text, fs.procNetDev = some text → ∀ line ∈ (lines text).drop 2, Short line)
    (i : String) : (readProc fs).lookup i = if i ∈ fs.sysClassNet.getD [] then
      some (statistic (fs.rxBytes i), statistic (fs.txBytes i)) else none := by
  have hempty : (fs.procNetDev.map parseProc).getD ∅ = ∅ := by
    cases htext : fs.procNetDev with
    | none => rfl
    | some text => exact parseProc_short (hproc text htext)
  rw [readProc, hempty]
  exact Table.lookup_setAll_fun
    (fun i => (statistic (fs.rxBytes i), statistic (fs.txBytes i))) _ i

/-- A table read that is the kernel's but for stray entries without traffic. -/
structure Reads (stray : String → Bool) (t k : Table String (UInt64 × UInt64)) : Prop where
  devs : ∀ i, stray i = false → t.lookup i = k.lookup i
  kernel : ∀ i, stray i = true → k.lookup i = none
  stray : ∀ i, stray i = true → ∀ v, t.lookup i = some v → v = (0,0)

theorem readProc_shows (hk : ∀ d ∈ k.devs, stray d.name = false) (h : fs.Shows stray k) :
    Reads stray (readProc fs) k.totals := by
  have hkernel : ∀ i, stray i = true → k.totals.lookup i = none :=
    fun i hi => lookup_totals_stray hk hi
  rcases h.totals with ⟨hne, text, htext, hshows⟩ | ⟨hproc, hsys⟩
  · rw [readProc_proc htext hshows hne]
    exact ⟨fun i hi => rfl, hkernel, fun i hi v hv => by rw [hkernel i hi] at hv; cases hv⟩
  · refine ⟨fun i hi => ?_, hkernel, fun i hi v hv => ?_⟩
    · rw [readProc_sys hproc]
      by_cases hmem : i ∈ fs.sysClassNet.getD []
      · rcases hsys.listed i hmem with hstray | ⟨d, hd, rfl⟩
        · rw [hi] at hstray
          cases hstray
        · obtain ⟨-, hrx, htx⟩ := hsys.devs d hd
          rw [if_pos hmem, hrx, htx, statistic_text, statistic_text]
          exact (lookup_totals.mpr ⟨d, hd, rfl, rfl⟩).symm
      · rw [if_neg hmem, eq_comm, Option.eq_none_iff_forall_ne_some]
        intro v hv
        obtain ⟨d, hd, rfl, -⟩ := lookup_totals.mp hv
        exact hmem (hsys.devs d hd).1
    · rw [readProc_sys hproc, (hsys.stray i hi).1, (hsys.stray i hi).2] at hv
      split at hv
      · exact (Option.some.inj hv).symm
      · cases hv

end Sources

theorem asU64_int (n : UInt64) : Json.asU64 (.int n.toNat) = some n := by
  have hlt := n.toNat_lt
  have hrange : (0 : ℤ) ≤ n.toNat ∧ (n.toNat : ℤ) < 18446744073709551616 := by omega
  simp only [Json.asU64, hrange, and_self, if_true, Int.toNat_natCast, UInt64.ofNat_toNat]

theorem nftCounter_counter (lan : Option UInt64 × Option UInt64) {name : String} {bytes : UInt64}
    {fields : List (String × Json)} (h : fields.lookup "name" = some (.str name) ∧
      fields.lookup "bytes" = some (.int bytes.toNat)) :
    nftCounter lan (NftObject.counter name bytes fields h).json =
      if name = "lan_rx_bytes" then (some bytes, lan.2)
      else if name = "lan_tx_bytes" then (lan.1, some bytes)
      else lan := by
  have hget : (Json.obj [("counter", .obj fields)]).get "counter" = some (.obj fields) := by
    simp [Json.get, List.lookup]
  have hname : (((Json.obj fields).get "name").bind Json.asStr).getD "" = name := by
    rw [Json.get, h.1]
    rfl
  have hbytes : (((Json.obj fields).get "bytes").bind Json.asU64).getD 0 = bytes := by
    rw [Json.get, h.2, Option.bind_some, asU64_int, Option.getD_some]
  unfold nftCounter NftObject.json
  rw [hget]
  dsimp only
  rw [hname, hbytes]

theorem nftCounter_json (lan : Option UInt64 × Option UInt64) (obj : NftObject) :
    nftCounter lan obj.json =
      ((Table.lastValue "lan_rx_bytes" obj.row.toList).or lan.1,
        (Table.lastValue "lan_tx_bytes" obj.row.toList).or lan.2) := by
  cases obj with
  | other obj h =>
    have hnone : obj.get "counter" = none := Option.isNone_iff_eq_none.mp h
    unfold nftCounter NftObject.json
    rw [hnone]
    rfl
  | counter name bytes fields h =>
    have hrow : ∀ key, Table.lastValue key (NftObject.counter name bytes fields h).row.toList =
        if key = name then some bytes else none := fun key => Table.lastValue_singleton key _
    have hne : ("lan_tx_bytes" : String) ≠ "lan_rx_bytes" := by decide
    rw [nftCounter_counter lan h, hrow, hrow]
    by_cases hrx : name = "lan_rx_bytes"
    · rw [if_pos hrx, if_pos hrx.symm, if_neg (fun e => hne (e.trans hrx))]
      rfl
    · by_cases htx : name = "lan_tx_bytes"
      · rw [if_neg hrx, if_pos htx, if_neg (Ne.symm hrx), if_pos htx.symm]
        rfl
      · rw [if_neg hrx, if_neg htx, if_neg (Ne.symm hrx), if_neg (Ne.symm htx)]
        rfl

theorem foldl_nftCounter (objs : List NftObject) (lan : Option UInt64 × Option UInt64) :
    (objs.map NftObject.json).foldl nftCounter lan =
      ((Table.lastValue "lan_rx_bytes" (objs.filterMap NftObject.row)).or lan.1,
        (Table.lastValue "lan_tx_bytes" (objs.filterMap NftObject.row)).or lan.2) := by
  induction objs generalizing lan with
  | nil => rfl
  | cons obj objs ih =>
    have hrow : ∀ key, Table.lastValue key ((obj :: objs).filterMap NftObject.row) =
        (Table.lastValue key (objs.filterMap NftObject.row)).or
          (Table.lastValue key obj.row.toList) := by
      intro key
      rw [← Table.lastValue_append]
      cases hobj : obj.row <;> simp [hobj]
    rw [List.map_cons, List.foldl_cons, ih, nftCounter_json, hrow, hrow, Option.or_assoc,
      Option.or_assoc]

theorem readNft_shows {fromStr : String → Option Json} {k : Kernel} {out : Option Output}
    (h : NftShows fromStr k out) : readNft fromStr out = k.lan := by
  unfold NftShows at h
  cases hc : k.counters with
  | none =>
    rw [hc] at h
    cases out with
    | none => simp [readNft, Kernel.lan, hc]
    | some o => simp [readNft, Kernel.lan, hc, h o rfl]
  | some t =>
    rw [hc] at h
    obtain ⟨text, fields, objs, rfl, htext, hfields, hperm⟩ := h
    have hkeys : ((objs.filterMap NftObject.row).map (·.1)).Nodup :=
      ((hperm.map _).nodup_iff).mpr t.keys_nodup
    have hlast : ∀ key, Table.lastValue key (objs.filterMap NftObject.row) = t.lookup key := by
      intro key
      have hsame := congrArg (fun t => t.lookup key) (Table.setAll_empty_perm hkeys hperm)
      simpa [Table.lookup_setAll, Table.lastValue_rows] using hsame
    have hlisted : ((Json.obj fields).get "nftables").bind Json.asArray =
        some (objs.map NftObject.json) := by
      rw [Json.get, hfields]
      rfl
    simp only [readNft, Option.bind_some, if_true, parseNftCounters, htext, hlisted,
      Option.getD_some, foldl_nftCounter, hlast, Option.or_none, Kernel.lan, hc]
    cases t.lookup "lan_rx_bytes" <;> cases t.lookup "lan_tx_bytes" <;> rfl

structure FileTick where
  gap : ℕ
  nowWall : WallClock
  budgetNow : WallClock := nowWall
  tableExists : Bool := true
  procDeltas : Table String (ℕ × ℕ) := ∅
  kernel : Kernel
  files : NetFiles
  nft : Option Output

def FileTick.reading (fromStr : String → Option Json) (p : FileTick) : Reading where
  gap := p.gap
  nowWall := p.nowWall
  totals := readProc p.files
  lanNow := readNft fromStr p.nft
  speed := fun i => fileNumber (p.files.speed i)
  tableExists := p.tableExists
  budgetNow := p.budgetNow
  procDeltas := p.procDeltas

def FileTick.counted (p : FileTick) : Reading where
  gap := p.gap
  nowWall := p.nowWall
  totals := p.kernel.totals
  lanNow := p.kernel.lan
  speed := fun i => (p.kernel.speed i).map UInt64.toNat
  tableExists := p.tableExists
  budgetNow := p.budgetNow
  procDeltas := p.procDeltas

/-- The files show the kernel, whose interfaces are none of the stray names. -/
structure FileTick.Shown (fromStr : String → Option Json) (stray : String → Bool) (p : FileTick) :
    Prop where
  named : ∀ d ∈ p.kernel.devs, stray d.name = false
  files : p.files.Shows stray p.kernel
  nft : NftShows fromStr p.kernel p.nft

inductive MachineEvent where
  | tick (p : FileTick)
  | rollup (f : Faults)
  | retain (now : WallClock)
  | restart

namespace MachineEvent

def read (fromStr : String → Option Json) : MachineEvent → Event
  | .tick p => .tick (p.reading fromStr)
  | .rollup f => .rollup f
  | .retain now => .retain now
  | .restart => .restart

def counted : MachineEvent → Event
  | .tick p => .tick p.counted
  | .rollup f => .rollup f
  | .retain now => .retain now
  | .restart => .restart

end MachineEvent

/-! ## The simulation -/

section Simulation
variable {fromStr : String → Option Json} {stray : String → Bool} {cfg : Config} {tz : TimeZone}
  {d d' : Daemon} {r r' : Reading} {s s' : State}

theorem Reads.filter_eq {t k : Table String (UInt64 × UInt64)} (h : Reads stray t k) :
    t.filter (fun i => !stray i) = k := by
  refine Table.ext_lookup (fun i => ?_)
  rw [Table.lookup_filter]
  cases hi : stray i with
  | true => simp [h.kernel i hi]
  | false => simp [h.devs i hi]

theorem Reads.filter {t k : Table String (UInt64 × UInt64)} (h : Reads stray t k)
    (keep : String → Bool) : Reads stray (t.filter keep) (k.filter keep) where
  devs i hi := by rw [Table.lookup_filter, Table.lookup_filter, h.devs i hi]
  kernel i hi := by rw [Table.lookup_filter, h.kernel i hi, ite_self]
  stray i hi v hv := by
    rw [Table.lookup_filter] at hv
    split at hv
    · exact h.stray i hi v hv
    · cases hv

theorem reads_empty : Reads stray ∅ ∅ where
  devs _ _ := rfl
  kernel _ _ := rfl
  stray i hi v hv := by cases hv

theorem delta_zero (b : UInt64) : delta 0 0 b = (0, false) := by
  unfold delta
  simp

/-- Stray entries have no deltas: what skips an interface without traffic and without
a spike does not see them. -/
theorem filterMap_ifaceDeltas {β : Type} (htotals : Reads stray r.totals r'.totals)
    (hprev : Reads stray d.prev d'.prev) (hspeed : r.speed = r'.speed)
    {g : IfaceDelta → Option β} (hg : ∀ i, g ⟨i, (0, false), (0, false)⟩ = none) :
    (ifaceDeltas cfg d r).filterMap g = (ifaceDeltas cfg d' r').filterMap g := by
  unfold ifaceDeltas
  rw [← htotals.filter_eq, Table.rows_filter, List.filterMap_filterMap, List.filterMap_filterMap,
    List.filterMap_filter]
  refine List.filterMap_congr (fun e he => ?_)
  have hlookup := Table.mem_rows.mp he
  cases hi : stray e.1 with
  | false =>
    have hsame : ifaceDelta cfg r d.prev e = ifaceDelta cfg r' d'.prev e := by
      unfold ifaceDelta
      rw [hspeed, hprev.devs e.1 hi]
    simp [hsame]
  | true =>
    have hzero : e.2 = (0,0) := htotals.stray e.1 hi e.2 hlookup
    unfold ifaceDelta
    by_cases hx : cfg.excluded e.1
    · simp [hx]
    · cases hp : d.prev.lookup e.1 with
      | none => simp [hx]
      | some o =>
        have ho : o = (0,0) := hprev.stray e.1 hi o hp
        simp [hx, ho, hzero, delta_zero, hg]

theorem perIfs_reads (cfg : Config) (htotals : Reads stray r.totals r'.totals)
    (hprev : Reads stray d.prev d'.prev) (hspeed : r.speed = r'.speed) :
    perIfs cfg d r = perIfs cfg d' r' :=
  filterMap_ifaceDeltas htotals hprev hspeed (fun _ => rfl)

theorem discarded_reads (cfg : Config) (htotals : Reads stray r.totals r'.totals)
    (hprev : Reads stray d.prev d'.prev) (hspeed : r.speed = r'.speed) :
    discarded cfg d r = discarded cfg d' r' := by
  have hspikes : ∀ l : List IfaceDelta, l.countP (fun x => x.rx.2 || x.tx.2) =
      (l.filterMap (Option.guard (fun x => x.rx.2 || x.tx.2))).length := fun l => by
    rw [List.filterMap_eq_filter, List.countP_eq_length_filter]
  unfold discarded
  rw [hspikes, hspikes]
  exact congrArg List.length (filterMap_ifaceDeltas htotals hprev hspeed (fun _ => rfl))

theorem sampleRows_reads (cfg : Config) (htotals : Reads stray r.totals r'.totals)
    (hprev : Reads stray d.prev d'.prev) (hspeed : r.speed = r'.speed)
    (hlan : r.lanNow = r'.lanNow) (hprevLan : d.prevLan = d'.prevLan) :
    sampleRows cfg d r = sampleRows cfg d' r' := by
  have hdelta : lanDelta cfg d r = lanDelta cfg d' r' := by
    unfold lanDelta
    rw [hlan, hprevLan, hspeed]
  unfold sampleRows
  rw [perIfs_reads cfg htotals hprev hspeed, hdelta]

/-- Two states that differ in stray baselines without traffic alone. -/
structure SameRecord (stray : String → Bool) (s s' : State) : Prop where
  db : s.db = s'.db
  prev : Reads stray s.daemon.prev s'.daemon.prev
  rest : s.daemon = { s'.daemon with prev := s.daemon.prev }

theorem speed_shown (fromStr : String → Option Json) {p : FileTick}
    (h : p.files.Shows stray p.kernel) :
    (p.reading fromStr).speed = p.counted.speed := by
  funext i
  have hspeed := h.speed i
  show fileNumber (p.files.speed i) = (p.kernel.speed i).map UInt64.toNat
  cases hn : p.kernel.speed i with
  | some n =>
    rw [hn] at hspeed
    rw [hspeed]
    exact fileNumber_text n
  | none =>
    rw [hn] at hspeed
    rcases hspeed with hspeed | hspeed
    · rw [hspeed]
      rfl
    · rw [hspeed]
      decide +kernel

theorem sameRecord_tick (h : SameRecord stray s s') {p : FileTick} (hp : p.Shown fromStr stray) :
    SameRecord stray (tick cfg tz s (p.reading fromStr)) (tick cfg tz s' p.counted) := by
  have hlan : (p.reading fromStr).lanNow = p.counted.lanNow := readNft_shows hp.nft
  have hspeed := speed_shown fromStr hp.files
  have htotals : Reads stray (p.reading fromStr).totals p.counted.totals :=
    readProc_shows hp.named hp.files
  obtain ⟨db, d⟩ := s
  obtain ⟨db', d'⟩ := s'
  obtain ⟨hdb, hprev, hrest⟩ := h
  dsimp only at hdb hprev hrest
  subst hdb
  have hprevLan : d.prevLan = d'.prevLan := by rw [hrest]
  have hreported : d.nftOkReported = d'.nftOkReported := by rw [hrest]
  have hmissing : d.nftMissingTicks = d'.nftMissingTicks := by rw [hrest]
  have hgapSame : gapBranch cfg p.counted = gapBranch cfg (p.reading fromStr) := rfl
  cases hgap : gapBranch cfg (p.reading fromStr) with
  | true =>
    rw [tick_gap hgap, tick_gap (hgapSame.trans hgap)]
    refine ⟨rfl, reads_empty, ?_⟩
    dsimp only
    rw [hlan, hreported, hmissing]
  | false =>
    have hrows := sampleRows_reads cfg htotals hprev hspeed hlan hprevLan
    have hcount := discarded_reads cfg htotals hprev hspeed
    have hreport : ∀ l db, reportNft d l db = reportNft d' l db := fun l db => by
      unfold reportNft
      rw [hreported]
    have hstep : ∀ l b, (nftStep d l b).1.nftMissingTicks = (nftStep d' l b).1.nftMissingTicks ∧
        (nftStep d l b).1.nftOkReported = (nftStep d' l b).1.nftOkReported := fun l b => by
      unfold nftStep
      dsimp only
      rw [hmissing]
      split <;> exact ⟨rfl, rfl⟩
    refine ⟨?_, ?_, ?_⟩
    · simp only [tick, tickSamples, hgap, hgapSame, Bool.false_eq_true, if_false, hrows, hcount,
        hreport, hlan]
      rfl
    · simp only [tick, tickSamples, hgap, hgapSame, Bool.false_eq_true, if_false]
      exact htotals.filter _
    · simp only [tick, tickSamples, hgap, hgapSame, Bool.false_eq_true, if_false, hlan,
        (hstep _ _).1, (hstep _ _).2]
      rfl

theorem sameRecord_step (h : SameRecord stray s s') {e : MachineEvent}
    (he : ∀ p, e = .tick p → p.Shown fromStr stray) :
    SameRecord stray (step cfg tz s (e.read fromStr)) (step cfg tz s' e.counted) := by
  cases e with
  | tick p => exact sameRecord_tick h (he p rfl)
  | rollup f => exact ⟨congrArg (rollupCall (Level.floor tz) f) h.db, h.prev, h.rest⟩
  | retain now => exact ⟨congrArg (enforceRetention cfg now.secs) h.db, h.prev, h.rest⟩
  | restart => exact ⟨h.db, reads_empty, rfl⟩

theorem sameRecord_run (h : SameRecord stray s s') {es : List MachineEvent}
    (hes : ∀ p, MachineEvent.tick p ∈ es → p.Shown fromStr stray) :
    SameRecord stray ((es.map (·.read fromStr)).foldl (step cfg tz) s)
      ((es.map (·.counted)).foldl (step cfg tz) s') := by
  induction es generalizing s s' with
  | nil => exact h
  | cons e es ih =>
    exact ih (sameRecord_step h (fun p hp => hes p (hp ▸ List.mem_cons_self)))
      (fun p hp => hes p (List.mem_cons_of_mem e hp))

end Simulation

/-- Whichever of its sources each tick reads, however these are laid out, and whatever
else `/sys/class/net` lists: the database is the one that the kernel's own counters
make. -/
theorem files_record_kernel (cfg : Config) (tz : TimeZone) (fromStr : String → Option Json)
    (stray : String → Bool) (es : List MachineEvent)
    (h : ∀ p, MachineEvent.tick p ∈ es → p.Shown fromStr stray) :
    ((es.map (·.read fromStr)).foldl (step cfg tz) State.init).db =
      ((es.map (·.counted)).foldl (step cfg tz) State.init).db :=
  (sameRecord_run ⟨rfl, reads_empty, rfl⟩ h).db

def eth1Later : NetDev :=
  ⟨"eth1", [105, 0, 0, 0, 0, 0, 0, 0, 57, 0, 0, 0, 0, 0, 0, 0], eth1_named, by simp⟩

def listingText : String :=
  "\x7b\"nftables\":[\x7b\"counter\":\x7b\"name\":\"lan_rx_bytes\",\"bytes\":40\x7d\x7d]\x7d"

def listing : List NftObject := [.counter "lan_rx_bytes" 40
  [("name", .str "lan_rx_bytes"), ("bytes", .int 40)] (by simp [List.lookup])]

def listingValue : String → Option Json := fun text =>
  if text = listingText then some (.obj [("nftables", .arr (listing.map NftObject.json))])
  else none

def procTick : FileTick where
  gap := 5
  nowWall := .at 1000
  kernel := ⟨[eth1], List.nodup_singleton _, fun _ => none, none⟩
  files := ⟨some (netDevText "h1".toList "h2".toList eth1Lines), none, fun _ => none,
    fun _ => none, fun _ => some "-1\n".toList⟩
  nft := none

def sysTick : FileTick where
  gap := 5
  nowWall := .at 1005
  kernel := ⟨[eth1Later], List.nodup_singleton _, fun _ => none,
    some ((∅ : Table String UInt64).set "lan_rx_bytes" 40)⟩
  files := ⟨none, some ["bonding_masters", "eth1"],
    fun i => if i = "eth1" then some (numberText 105) else none,
    fun i => if i = "eth1" then some (numberText 57) else none, fun _ => none⟩
  nft := some ⟨true, listingText⟩

theorem procTick_shown : procTick.Shown listingValue (· = "bonding_masters") where
  named d hd := by
    obtain rfl := List.mem_singleton.mp hd
    decide
  files :=
    { totals := .inl ⟨List.cons_ne_nil _ _, _, rfl, _, _, eth1Lines, by decide, by decide, rfl,
        List.Perm.refl _⟩
      speed := fun _ => .inr rfl }
  nft := fun o ho => by cases ho

theorem sysTick_shown : sysTick.Shown listingValue (· = "bonding_masters") where
  named d hd := by
    obtain rfl := List.mem_singleton.mp hd
    decide
  files :=
    { totals := .inr ⟨(fun text htext => by cases htext),
        { listed := by decide
          devs := fun d hd => by
            obtain rfl := List.mem_singleton.mp hd
            exact ⟨by decide, rfl, rfl⟩
          stray := fun i hi => by
            obtain rfl := of_decide_eq_true hi
            exact ⟨rfl, rfl⟩ }⟩
      speed := fun _ => .inl rfl }
  nft := ⟨listingText, _, listing, rfl, if_pos rfl, by simp [List.lookup], List.Perm.refl _⟩

theorem files_record_kernel_eth1 :
    let es : List MachineEvent := [.tick procTick, .tick sysTick]
    let db := ((es.map (·.read listingValue)).foldl (step {} .utc) State.init).db
    db = ((es.map (·.counted)).foldl (step {} .utc) State.init).db ∧
      db.samples.rows = [(⟨1005, "eth1"⟩, ⟨100, 50, 0, 0⟩)] := by
  have hshown : ∀ p, MachineEvent.tick p ∈ [MachineEvent.tick procTick, .tick sysTick] →
      p.Shown listingValue (· = "bonding_masters") := by
    intro p hp
    simp only [List.mem_cons, MachineEvent.tick.injEq, List.not_mem_nil, or_false] at hp
    rcases hp with rfl | rfl
    · exact procTick_shown
    · exact sysTick_shown
  have hsame := files_record_kernel {} .utc listingValue (· = "bonding_masters") _ hshown
  refine ⟨hsame, ?_⟩
  rw [hsame]
  decide +kernel

end Netmeter
