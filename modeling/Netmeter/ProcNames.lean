import Netmeter.ProcCap
set_option autoImplicit false

/-!
From pids to names: what the scratch map of `account` holds when it is flushed,
against the classification of each frame on its own.
-/

namespace Netmeter
open Keyed

def Flow.endpoint (locals : List IpAddr) (f : Flow) : Option Endpoint :=
  f.ports.map (fun ports => if f.src ∈ locals then ⟨f.src,ports.1⟩ else ⟨f.dst,ports.2⟩)

/-- The name a frame counts for on its own: its owner's comm, "unknown" without an
owner, "other" without ports. -/
def Flow.classify (owners : Owners) (locals : List IpAddr) (f : Flow) : String :=
  match f.endpoint locals with
  | some ep =>
    match owners.byEp.lookup ep with
    | some pid => (owners.comm.lookup pid).getD "?"
    | none => "unknown"
  | none => "other"

def Flow.Unattributed (owners : Owners) (locals : List IpAddr) (f : Flow) : Prop :=
  ∃ ep, f.endpoint locals = some ep ∧ owners.byEp.lookup ep = none

instance (owners : Owners) (locals : List IpAddr) (f : Flow) :
    Decidable (f.Unattributed owners locals) :=
  decidable_of_iff ((f.endpoint locals).any (fun ep => (owners.byEp.lookup ep).isNone) = true)
    (by simp [Flow.Unattributed, Option.any_eq_true])

/-- A frame as `account` charges it: pid, name, and bytes in and out. -/
structure Charged where
  pid : ℕ
  comm : String
  bytes : ℕ × ℕ
  deriving DecidableEq

def charged (p : Pnet) (owners : Owners) (locals : List IpAddr) (frame : Bytes) :
    Option Charged :=
  (parseFrame p frame).map (fun f =>
    ⟨(charge owners locals f).1, (charge owners locals f).2,
      if f.src ∈ locals then (0, frame.length) else (frame.length, 0)⟩)

def chargedAll (p : Pnet) (owners : Owners) (locals : List IpAddr) (frames : List Bytes) :
    List Charged :=
  frames.filterMap (charged p owners locals)

def Usage.pair (e : Usage) : ℕ × ℕ := (e.rx, e.tx)

def accountAll (p : Pnet) (owners : Owners) (locals : List IpAddr) (frames : List Bytes) : Cum :=
  frames.foldl (fun cum frame => account p owners locals frame cum) ∅

theorem charge_comm (owners : Owners) (locals : List IpAddr) (f : Flow) :
    (charge owners locals f).2 = f.classify owners locals := by
  unfold charge Flow.classify Flow.endpoint
  cases f.ports with
  | none => rfl
  | some ports =>
    dsimp only [Option.map_some]
    cases owners.byEp.lookup (if f.src ∈ locals then ⟨f.src,ports.1⟩ else ⟨f.dst,ports.2⟩) <;> rfl

theorem charge_pid (owners : Owners) (locals : List IpAddr) (f : Flow) :
    (∃ ep pid, f.endpoint locals = some ep ∧ owners.byEp.lookup ep = some pid ∧
      charge owners locals f = (pid, (owners.comm.lookup pid).getD "?")) ∨
    (f.Unattributed owners locals ∧ charge owners locals f = (0,"unknown")) ∨
    (f.ports = none ∧ charge owners locals f = (0,"other")) := by
  unfold charge Flow.Unattributed Flow.endpoint
  cases f.ports with
  | none => exact .inr (.inr ⟨rfl, rfl⟩)
  | some ports =>
    dsimp only [Option.map_some]
    cases hep : owners.byEp.lookup
      (if f.src ∈ locals then ⟨f.src,ports.1⟩ else ⟨f.dst,ports.2⟩) with
    | some pid => exact .inl ⟨_, pid, rfl, hep, rfl⟩
    | none => exact .inr (.inl ⟨⟨_, rfl, hep⟩, rfl⟩)

def Cum.credit (cum : Cum) (x : Charged) : Cum :=
  let touch := fun e : Usage =>
    { e.rename x.comm with rx := e.rx + x.bytes.1, tx := e.tx + x.bytes.2 }
  cum.upsert x.pid (touch ⟨x.comm,0,0⟩) touch

@[simp] theorem rx_rename (comm : String) (e : Usage) : (e.rename comm).rx = e.rx := by
  unfold Usage.rename
  split <;> rfl

@[simp] theorem tx_rename (comm : String) (e : Usage) : (e.rename comm).tx = e.tx := by
  unfold Usage.rename
  split <;> rfl

theorem count_rename (up : Bool) (comm : String) (n : ℕ) (e : Usage) :
    (e.rename comm).count up n =
      { e.rename comm with
        rx := e.rx + (if up then (0, n) else (n, 0)).1
        tx := e.tx + (if up then (0, n) else (n, 0)).2 } := by
  unfold Usage.count
  cases up <;> simp

theorem account_eq (p : Pnet) (owners : Owners) (locals : List IpAddr) (frame : Bytes)
    (cum : Cum) : account p owners locals frame cum =
      ((charged p owners locals frame).map cum.credit).getD cum := by
  unfold account charged
  cases parseFrame p frame with
  | none => rfl
  | some f =>
    simp only [Option.map_some, Option.getD_some, Cum.credit, count_rename, decide_eq_true_eq]

theorem accountAll_eq (p : Pnet) (owners : Owners) (locals : List IpAddr) (frames : List Bytes) :
    accountAll p owners locals frames =
      (chargedAll p owners locals frames).foldl Cum.credit ∅ := by
  unfold accountAll chargedAll
  generalize (∅ : Cum) = cum
  induction frames generalizing cum with
  | nil => rfl
  | cons frame frames ih =>
    rw [List.foldl_cons, account_eq, ih, List.filterMap_cons]
    cases charged p owners locals frame <;> rfl

/-- An entry holds the bytes charged to its pid, and one of the names. -/
structure Scratch (xs : List Charged) (cum : Cum) : Prop where
  bytes : cum.mapVal Usage.pair = Table.group (xs.map (fun x => (x.pid, x.bytes)))
  name : ∀ e ∈ cum.rows, ∃ x ∈ xs, x.pid = e.1 ∧ x.comm = e.2.comm

theorem rename_comm (comm : String) (e : Usage) :
    (e.rename comm).comm = comm ∨ (e.rename comm).comm = e.comm := by
  unfold Usage.rename
  split
  · exact .inl rfl
  · exact .inr rfl

theorem scratch_credit {xs : List Charged} {cum : Cum} (h : Scratch xs cum) (x : Charged) :
    Scratch (xs ++ [x]) (cum.credit x) := by
  constructor
  · unfold Cum.credit
    rw [Table.mapVal_upsert _ _ _ _ _ (fun v => v + x.bytes) (fun _ => rfl), h.bytes,
      List.map_append]
    unfold Table.group
    rw [Table.addAll_append, List.map_singleton, Table.addAll_cons, Table.addAll_nil, Table.add]
    congr 1
    simp [Usage.pair]
  · intro e he
    have hkeep : ∀ e : ℕ × Usage, (∃ y ∈ xs, y.pid = e.1 ∧ y.comm = e.2.comm) →
        ∃ y ∈ xs ++ [x], y.pid = e.1 ∧ y.comm = e.2.comm :=
      fun e ⟨y, hy, hp⟩ => ⟨y, List.mem_append_left _ hy, hp⟩
    rcases Table.mem_upsert he with rfl | ⟨v, hv, rfl⟩ | he
    · refine ⟨x, by simp, rfl, ?_⟩
      rcases rename_comm x.comm ⟨x.comm,0,0⟩ with hc | hc <;> exact hc.symm
    · rcases rename_comm x.comm v with hc | hc
      · exact ⟨x, by simp, rfl, hc.symm⟩
      · obtain ⟨y, hy, hpid, hcomm⟩ := h.name _ hv
        exact ⟨y, List.mem_append_left _ hy, hpid, hcomm.trans hc.symm⟩
    · exact hkeep e (h.name e he)

theorem scratch_credits (xs : List Charged) : Scratch xs (xs.foldl Cum.credit ∅) := by
  induction xs using List.reverseRecOn with
  | nil => exact ⟨rfl, by simp⟩
  | append_singleton xs x ih =>
    rw [List.foldl_append]
    exact scratch_credit ih x

def Cum.nameOf (cum : Cum) (pid : ℕ) : String := ((cum.lookup pid).map (·.comm)).getD ""

variable {xs : List Charged} {cum : Cum}

def chargedTotal (q : Charged → Bool) (xs : List Charged) : WithZero (ℕ × ℕ) :=
  total q (xs.map (fun x => (x, x.bytes)))

theorem total_chargedBy {κ : Type} (g : Charged → κ) (q : κ → Bool) (xs : List Charged) :
    total q (xs.map (fun x => (g x, x.bytes))) = chargedTotal (fun x => q (g x)) xs := by
  have hmap : xs.map (fun x => (g x, x.bytes)) =
      (xs.map (fun x => (x, x.bytes))).map (fun r => (g r.1, r.2)) := by simp
  rw [hmap, total_rekey g, chargedTotal]

theorem nameOf_mem (h : Scratch xs cum) {x : Charged} (hx : x ∈ xs) :
    ∃ y ∈ xs, y.pid = x.pid ∧ y.comm = cum.nameOf x.pid := by
  have hcell : (cum.mapVal Usage.pair).cell x.pid ≠ 0 := by
    rw [h.bytes, Table.cell_group]
    exact total_ne_zero.mpr ⟨(x.pid, x.bytes), List.mem_map_of_mem hx, by simp⟩
  cases hrow : cum.lookup x.pid with
  | none =>
    refine absurd ?_ hcell
    rw [Table.cell, Table.lookup_mapVal, hrow]
    rfl
  | some e =>
    obtain ⟨y, hy, hpid, hcomm⟩ := h.name (x.pid, e) (Table.mem_rows.mpr hrow)
    exact ⟨y, hy, hpid, hcomm.trans (by simp [Cum.nameOf, hrow])⟩

theorem total_flush (h : Scratch xs cum) (c : String) :
    (flush cum ∅).cell c = chargedTotal (fun x => cum.nameOf x.pid = c) xs := by
  have hrows : cum.rows.map (fun e => (e.2.comm, (e.2.rx, e.2.tx))) =
      (cum.mapVal Usage.pair).rows.map (fun r => (cum.nameOf r.1, r.2)) := by
    rw [Table.rows_mapVal, List.map_map]
    refine List.map_congr_left (fun e he => ?_)
    simp [Cum.nameOf, Table.mem_rows.mp he, Usage.pair]
  unfold flush
  rw [hrows, Table.cell_addAll, Table.cell_empty, zero_add, total_rekey cum.nameOf, h.bytes,
    Table.total_group, total_chargedBy]

/-- The charges without a process share one name. -/
def OneName (xs : List Charged) : Prop :=
  ∀ x ∈ xs, ∀ y ∈ xs, x.pid = 0 → y.pid = 0 → x.comm = y.comm

def Named (xs : List Charged) : Prop :=
  ∀ x ∈ xs, ∀ y ∈ xs, x.pid = y.pid → x.pid ≠ 0 → x.comm = y.comm

theorem flush_eq_group (h : Scratch xs cum) (hnamed : Named xs) (hone : OneName xs) :
    flush cum ∅ = Table.group (xs.map (fun x => (x.comm, x.bytes))) := by
  refine Table.ext_cell (fun c => ?_)
  rw [total_flush h, Table.cell_group, total_chargedBy]
  refine total_congr (fun r hr => ?_)
  obtain ⟨x, hx, rfl⟩ := List.mem_map.mp hr
  obtain ⟨y, hy, hpid, hcomm⟩ := nameOf_mem h hx
  have hsame : y.comm = x.comm := by
    by_cases hz : y.pid = 0
    · exact hone y hy x hx hz (hpid ▸ hz)
    · exact hnamed y hy x hx hpid hz
  show decide (cum.nameOf x.pid = c) = decide (x.comm = c)
  rw [← hcomm, hsame]

theorem exists_lost (hone : ¬ OneName xs) (name : String) :
    ∃ z ∈ xs, z.pid = 0 ∧ z.comm ≠ name := by
  by_contra hall
  have hname : ∀ z ∈ xs, z.pid = 0 → z.comm = name := fun z hz hz0 => by
    by_contra hne
    exact hall ⟨z, hz, hz0, hne⟩
  exact hone (fun x hx y hy hx0 hy0 => (hname x hx hx0).trans (hname y hy hy0).symm)

theorem flush_short (h : Scratch xs cum) (hnamed : Named xs) (hpos : ∀ x ∈ xs, x.bytes ≠ 0)
    (hone : ¬ OneName xs) : ∃ c, value ((flush cum ∅).cell c) ≠
      value (total (fun n => n = c) (xs.map (fun x => (x.comm, x.bytes)))) := by
  obtain ⟨z, hz, hpid, hlost⟩ := exists_lost hone (cum.nameOf 0)
  refine ⟨z.comm, ?_⟩
  have hkept : chargedTotal (fun x => decide (x.comm = z.comm) &&
      decide (cum.nameOf x.pid = z.comm)) xs =
      chargedTotal (fun x => cum.nameOf x.pid = z.comm) xs := by
    refine total_congr (fun r hr => ?_)
    obtain ⟨x, hx, rfl⟩ := List.mem_map.mp hr
    obtain ⟨y, hy, hypid, hycomm⟩ := nameOf_mem h hx
    by_cases hc : cum.nameOf x.pid = z.comm
    · -- flushed under the lost name, so not under the shared key
      have hx0 : x.pid ≠ 0 := fun hx0 => hlost (by rw [← hc, hx0])
      have hxc : x.comm = z.comm := by
        rw [← hc, ← hycomm]
        exact hnamed x hx y hy hypid.symm hx0
      simp [hc, hxc]
    · simp [hc]
  rw [total_flush h, total_chargedBy, ← hkept]
  have hsplit : chargedTotal (fun x => decide (x.comm = z.comm)) xs = _ :=
    total_split _ (fun x : Charged => decide (cum.nameOf x.pid = z.comm)) _
  rw [hsplit, value_add]
  intro he
  have hd := left_eq_add.mp he
  rw [value_total] at hd
  have hmem : (z, z.bytes) ∈ (xs.map (fun x => (x, x.bytes))).filter (fun r =>
      decide (r.1.comm = z.comm) && !decide (cum.nameOf r.1.pid = z.comm)) := by
    refine List.mem_filter.mpr ⟨List.mem_map_of_mem hz, ?_⟩
    simp [hpid, Ne.symm hlost]
  have hle := List.le_sum_of_mem (List.mem_map_of_mem (f := Prod.snd) hmem)
  rw [hd] at hle
  exact hpos z hz (le_antisymm hle zero_le)

variable {p : Pnet} {owners : Owners} {locals : List IpAddr}

def classified (p : Pnet) (owners : Owners) (locals : List IpAddr) (up : Bool) (c : String)
    (frames : List Bytes) : List Bytes :=
  frames.filter (fun frame => match parseFrame p frame with
    | some f => decide (f.src ∈ locals) = up && f.classify owners locals = c
    | none => false)

def classBytes (p : Pnet) (owners : Owners) (locals : List IpAddr) (c : String)
    (frames : List Bytes) : ℕ × ℕ :=
  (((classified p owners locals false c frames).map List.length).sum,
    ((classified p owners locals true c frames).map List.length).sum)

theorem classBytes_eq (c : String) (frames : List Bytes) :
    classBytes p owners locals c frames = value (total (fun n => n = c)
      ((chargedAll p owners locals frames).map (fun x => (x.comm, x.bytes)))) := by
  induction frames with
  | nil => rfl
  | cons frame frames ih =>
    unfold chargedAll at ih ⊢
    rw [List.filterMap_cons]
    unfold classBytes classified at ih ⊢
    cases hf : parseFrame p frame with
    | none =>
      have hc : charged p owners locals frame = none := by simp [charged, hf]
      rw [hc, List.filter_cons_of_neg (by simp [hf]), List.filter_cons_of_neg (by simp [hf])]
      exact ih
    | some f =>
      have hc : charged p owners locals frame = some ⟨(charge owners locals f).1,
          f.classify owners locals,
          if f.src ∈ locals then (0, frame.length) else (frame.length, 0)⟩ := by
        simp [charged, hf, charge_comm]
      rw [hc]
      dsimp only
      rw [List.map_cons, total_cons, value_add, ← ih]
      by_cases hname : f.classify owners locals = c <;> by_cases hup : f.src ∈ locals <;>
        simp [hf, hname, hup]

/-- A frame of a protocol without ports. -/
def Portless (p : Pnet) (frame : Bytes) : Prop :=
  ∃ f, parseFrame p frame = some f ∧ f.ports = none

/-- A frame with ports at a local endpoint that no process owns. -/
def Unowned (p : Pnet) (owners : Owners) (locals : List IpAddr) (frame : Bytes) : Prop :=
  ∃ f, parseFrame p frame = some f ∧ f.Unattributed owners locals

instance (p : Pnet) (frame : Bytes) : Decidable (Portless p frame) :=
  decidable_of_iff ((parseFrame p frame).any (fun f => f.ports.isNone) = true)
    (by simp [Portless, Option.any_eq_true])

instance (p : Pnet) (owners : Owners) (locals : List IpAddr) (frame : Bytes) :
    Decidable (Unowned p owners locals frame) :=
  decidable_of_iff ((parseFrame p frame).any (fun f => f.Unattributed owners locals) = true)
    (by simp [Unowned, Option.any_eq_true])

theorem charge_unattributed {f : Flow} (h : f.Unattributed owners locals) :
    charge owners locals f = (0,"unknown") := by
  obtain ⟨ep, hep, hnone⟩ := h
  rcases charge_pid owners locals f with ⟨ep', pid, hep', hpid, -⟩ | ⟨-, hc⟩ | ⟨hports, -⟩
  · rw [hep] at hep'
    obtain rfl := Option.some.inj hep'
    simp [hnone] at hpid
  · exact hc
  · simp [Flow.endpoint, hports] at hep

theorem charge_portless {f : Flow} (h : f.ports = none) :
    charge owners locals f = (0,"other") := by
  simp [charge, h]

theorem mem_chargedAll {frames : List Bytes} {x : Charged} :
    x ∈ chargedAll p owners locals frames ↔
      ∃ frame ∈ frames, ∃ f, parseFrame p frame = some f ∧
        x = ⟨(charge owners locals f).1, (charge owners locals f).2,
          if f.src ∈ locals then (0, frame.length) else (frame.length, 0)⟩ := by
  unfold chargedAll charged
  simp only [List.mem_filterMap, Option.map_eq_some_iff, eq_comm (b := x)]

theorem named_chargedAll (frames : List Bytes) :
    Named (chargedAll p owners locals frames) := by
  have hname : ∀ x ∈ chargedAll p owners locals frames, x.pid ≠ 0 →
      x.comm = (owners.comm.lookup x.pid).getD "?" := by
    intro x hx hx0
    obtain ⟨frame, -, f, -, rfl⟩ := mem_chargedAll.mp hx
    rcases charge_pid owners locals f with ⟨ep, pid, -, -, hc⟩ | ⟨-, hc⟩ | ⟨-, hc⟩
    · rw [hc]
    · exact absurd (congrArg Prod.fst hc) hx0
    · exact absurd (congrArg Prod.fst hc) hx0
  intro x hx y hy hxy hx0
  rw [hname x hx hx0, hname y hy (hxy ▸ hx0), hxy]

theorem oneName_chargedAll (hpid : ∀ ep, owners.byEp.lookup ep ≠ some 0) (frames : List Bytes) :
    OneName (chargedAll p owners locals frames) ↔
      ¬ ((∃ frame ∈ frames, Unowned p owners locals frame) ∧
        ∃ frame ∈ frames, Portless p frame) := by
  constructor
  · rintro hone ⟨⟨frame, hmem, f, hf, hun⟩, frame', hmem', f', hf', hports⟩
    have h := hone _ (mem_chargedAll.mpr ⟨frame, hmem, f, hf, rfl⟩)
      _ (mem_chargedAll.mpr ⟨frame', hmem', f', hf', rfl⟩)
    rw [charge_unattributed hun, charge_portless hports] at h
    have hcomm : "unknown" = "other" := h rfl rfl
    exact absurd hcomm (by decide)
  · intro hnot
    -- a charge without a process is of one of two kinds, and its kind is its name
    have hkind : ∀ x ∈ chargedAll p owners locals frames, x.pid = 0 →
        (x.comm = "unknown" ∧ ∃ frame ∈ frames, Unowned p owners locals frame) ∨
          (x.comm = "other" ∧ ∃ frame ∈ frames, Portless p frame) := by
      intro x hx hx0
      obtain ⟨frame, hmem, f, hf, rfl⟩ := mem_chargedAll.mp hx
      rcases charge_pid owners locals f with ⟨ep, pid, -, hown, hc⟩ | ⟨hun, hc⟩ | ⟨hports, hc⟩
      · rw [hc] at hx0
        exact absurd (hx0 ▸ hown) (hpid ep)
      · exact .inl ⟨congrArg Prod.snd hc, frame, hmem, f, hf, hun⟩
      · exact .inr ⟨congrArg Prod.snd hc, frame, hmem, f, hf, hports⟩
    intro x hx y hy hx0 hy0
    rcases hkind x hx hx0 with ⟨hxc, hun⟩ | ⟨hxc, hless⟩ <;>
      rcases hkind y hy hy0 with ⟨hyc, hun'⟩ | ⟨hyc, hless'⟩
    · rw [hxc, hyc]
    · exact absurd ⟨hun, hless'⟩ hnot
    · exact absurd ⟨hun', hless⟩ hnot
    · rw [hxc, hyc]

theorem bytes_chargedAll (heth : ∀ frame, p.ethernet frame ≠ none → 14 ≤ frame.length)
    (frames : List Bytes) : ∀ x ∈ chargedAll p owners locals frames, x.bytes ≠ 0 := by
  intro x hx
  obtain ⟨frame, -, f, hf, rfl⟩ := mem_chargedAll.mp hx
  have hlen : 14 ≤ frame.length := heth frame (fun hnone => by simp [parseFrame, hnone] at hf)
  have hpos : frame.length ≠ 0 := by omega
  dsimp only
  split <;> simp [Prod.ext_iff, hpos]

/-- The totals flushed under each name are those of the frames classified under it,
in any order of the frames, exactly when no unowned frame comes with a portless
one: these two share the key 0. -/
theorem flushed_names_iff (p : Pnet) (owners : Owners) (locals : List IpAddr)
    (frames : List Bytes) (heth : ∀ frame, p.ethernet frame ≠ none → 14 ≤ frame.length)
    (hpid : ∀ ep, owners.byEp.lookup ep ≠ some 0) :
    ((∀ c, ((flush (accountAll p owners locals frames) ∅).lookup c).getD (0,0) =
        classBytes p owners locals c frames) ∧
      ∀ frames', frames'.Perm frames → flush (accountAll p owners locals frames') ∅ =
        flush (accountAll p owners locals frames) ∅) ↔
    ¬ ((∃ frame ∈ frames, Unowned p owners locals frame) ∧ ∃ frame ∈ frames, Portless p frame) := by
  have hscratch : ∀ frames, Scratch (chargedAll p owners locals frames)
      (accountAll p owners locals frames) := fun frames => by
    rw [accountAll_eq]
    exact scratch_credits _
  have hgroup : ∀ frames, OneName (chargedAll p owners locals frames) →
      flush (accountAll p owners locals frames) ∅ =
        Table.group ((chargedAll p owners locals frames).map (fun x => (x.comm, x.bytes))) :=
    fun frames => flush_eq_group (hscratch frames) (named_chargedAll frames)
  rw [← oneName_chargedAll hpid]
  constructor
  · rintro ⟨hright, -⟩
    by_contra hone
    obtain ⟨c, hc⟩ := flush_short (hscratch frames) (named_chargedAll frames)
      (bytes_chargedAll heth frames) hone
    exact hc ((hright c).trans (classBytes_eq c frames))
  · intro hone
    refine ⟨fun c => ?_, fun frames' hperm => ?_⟩
    · rw [classBytes_eq, hgroup frames hone, ← Table.cell_group]
      rfl
    · have hxs := (hperm.filterMap (charged p owners locals))
      have hone' : OneName (chargedAll p owners locals frames') := fun x hx y hy =>
        hone x (hxs.mem_iff.mp hx) y (hxs.mem_iff.mp hy)
      rw [hgroup frames hone, hgroup frames' hone']
      refine Table.ext_cell (fun c => ?_)
      rw [Table.cell_group, Table.cell_group]
      exact total_perm _ (hxs.map _)

/-! ## The packet formats on the wire -/

def be16 (b : Bytes) (i : ℕ) : UInt16 := .ofNat (256 * (b.getD i 0).toNat + (b.getD (i+1) 0).toNat)

def octetsAt (n : ℕ) (b : Bytes) (i : ℕ) : Vector UInt8 n := Vector.ofFn (fun k => b.getD (i+k) 0)

/-- The views `pnet` has of these formats: the least length and the offsets of
each, the payloads cut by the length fields. -/
def Pnet.wire : Pnet where
  ethernet b := if b.length < 14 then none else some (be16 b 12, b.drop 14)
  ipv4 b :=
    if b.length < 20 then none
    else
      let header := max 20 (4 * ((b.getD 0 0).toNat % 16))
      some ⟨b.getD 9 0, octetsAt 4 b 12, octetsAt 4 b 16,
        (b.drop header).take ((be16 b 2).toNat - 4 * ((b.getD 0 0).toNat % 16))⟩
  ipv6 b :=
    if b.length < 40 then none
    else some ⟨b.getD 6 0, octetsAt 16 b 8, octetsAt 16 b 24, (b.drop 40).take (be16 b 4).toNat⟩
  tcp b := if b.length < 20 then none else some (be16 b 0, be16 b 2)
  udp b := if b.length < 8 then none else some (be16 b 0, be16 b 2)

theorem wire_ethernet (frame : Bytes) (h : Pnet.wire.ethernet frame ≠ none) :
    14 ≤ frame.length := by
  by_contra hlt
  exact h (if_pos (not_le.mp hlt))

def ipv4Frame (proto : UInt8) (src dst payload : Bytes) : Bytes :=
  List.replicate 12 0 ++ [8, 0] ++
    [0x45, 0, 0, .ofNat (20 + payload.length), 0, 0, 0x40, 0, 64, proto, 0, 0] ++ src ++ dst ++
    payload

def tcpHeader : Bytes := [1, 187, 195, 80] ++ List.replicate 16 0

def ourIp : Bytes := [10, 0, 0, 2]

def ourAddr : IpAddr := .v4 (octetsAt 4 ourIp 0)

def mixedFrames : List Bytes :=
  [ipv4Frame protoTcp [10, 0, 0, 1] ourIp tcpHeader, ipv4Frame 1 [10, 0, 0, 1] ourIp [8, 0, 0, 0]]

/-- Both are flushed as "other". -/
theorem not_flushed_names :
    ¬ ∀ (p : Pnet) (owners : Owners) (locals : List IpAddr) (frames : List Bytes),
      (∀ frame, p.ethernet frame ≠ none → 14 ≤ frame.length) →
      (∀ ep, owners.byEp.lookup ep ≠ some 0) →
      ∀ c, ((flush (accountAll p owners locals frames) ∅).lookup c).getD (0,0) =
        classBytes p owners locals c frames := by
  intro h
  have hd := h .wire {} [ourAddr] mixedFrames wire_ethernet (fun ep => by simp) "unknown"
  exact absurd hd (by decide +kernel)

def curlOwners : Owners where
  byEp := Table.set ∅ ⟨ourAddr, 50000⟩ 7
  comm := Table.set ∅ 7 "curl"

theorem flushed_names_curl :
    (∀ c, ((flush (accountAll .wire curlOwners [ourAddr] mixedFrames) ∅).lookup c).getD (0,0) =
        classBytes .wire curlOwners [ourAddr] c mixedFrames) ∧
      ∀ frames', frames'.Perm mixedFrames →
        flush (accountAll .wire curlOwners [ourAddr] frames') ∅ =
          flush (accountAll .wire curlOwners [ourAddr] mixedFrames) ∅ :=
  (flushed_names_iff .wire curlOwners [ourAddr] mixedFrames wire_ethernet
    (fun ep => by
      rw [curlOwners, Table.lookup_set]
      split <;> simp)).mpr
    (by decide +kernel)

end Netmeter
