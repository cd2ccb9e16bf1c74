import Netmeter.ProcCap
set_option autoImplicit false

/-!
Per-app bytes between two threads: the capture thread's scratch map, the shared
map, the deltas the daemon has taken, and `proc_hourly`.
-/

namespace Netmeter
open Keyed

/-- Both threads; `taken` is what `drain_deltas` returned and no transaction has
committed yet. -/
structure Recorder where
  capture : Capture
  shared : Shared := ∅
  taken : Option Shared := none
  state : State

/-- `snapshot` at the start of the thread, on a fresh database. -/
def Recorder.spawn (owners : Owners) : Recorder :=
  { capture := { owners := owners }, state := State.init }

/-- What either thread does between two points where the other can run. A
receiver that dies clears them all; the next `resolve` reopens. -/
inductive Act where
  | resolve (o : Resolve)
  | drain (next : ℕ → Recv)
  | snapshot (owners : Owners)
  | flush
  | samples (r : Reading)
  | take
  | commit (nowWall : WallClock)
  | rollup (f : Faults)

/-- `drain` may stop anywhere in its stream, so the states within one
`drain_one` are reached as well. -/
def Recorder.act (p : Pnet) (cfg : Config) (tz : TimeZone) (s : Recorder) : Act → Recorder
  | .resolve o =>
    { s with capture := { s.capture with
        receivers := resolve cfg.excludeIfaces o s.capture.receivers } }
  | .drain next =>
    let d := drainOne p next s.capture.owners s.capture.locals s.capture.cum
    { s with capture := { s.capture with
        cum := d.1
        receivers := if d.2 then [] else s.capture.receivers } }
  | .snapshot owners => { s with capture := { s.capture with owners := owners } }
  | .flush =>
    { s with
      capture := { s.capture with cum := ∅ }
      shared := flush s.capture.cum s.shared }
  | .samples r => { s with state := tickSamples cfg tz s.state r }
  | .take =>
    match s.taken with
    | none => { s with shared := ∅, taken := some s.shared }
    | some _ => s
  | .commit nowWall =>
    match s.taken with
    | none => s
    | some deltas =>
      { s with
        taken := none
        state := { s.state with
          db := commitDeltas (floorHour tz nowWall.secs) deltas s.state.db } }
  | .rollup f => { s with state := { s.state with db := rollupCall (Level.floor tz) f s.state.db } }

def Recorder.run (p : Pnet) (cfg : Config) (tz : TimeZone) (s : Recorder) (acts : List Act) :
    Recorder :=
  acts.foldl (Recorder.act p cfg tz) s

theorem Recorder.run_cons (p : Pnet) (cfg : Config) (tz : TimeZone) (s : Recorder) (a : Act)
    (acts : List Act) : s.run p cfg tz (a :: acts) = (s.act p cfg tz a).run p cfg tz acts := rfl

theorem Recorder.run_append (p : Pnet) (cfg : Config) (tz : TimeZone) (s : Recorder)
    (acts acts' : List Act) :
    s.run p cfg tz (acts ++ acts') = (s.run p cfg tz acts).run p cfg tz acts' :=
  List.foldl_append

def handed (acts : List Act) : List Bytes :=
  acts.flatMap (fun a =>
    match a with
    | .drain next => drained next
    | _ => [])

variable (p : Pnet) (cfg : Config) (tz : TimeZone)

def drainActs : List (ℕ → Recv) → List Act
  | [] => []
  | next :: rest => .drain next :: if dies next then [] else drainActs rest

theorem run_drainActs (streams : List (ℕ → Recv)) (s : Recorder) :
    s.run p cfg tz (drainActs streams) =
      let d := drainAll p s.capture.owners s.capture.locals streams s.capture.cum
      { s with capture := { s.capture with
          cum := d.1
          receivers := if d.2 then [] else s.capture.receivers } } := by
  induction streams generalizing s with
  | nil => rfl
  | cons next rest ih =>
    have hdies : (drainOne p next s.capture.owners s.capture.locals s.capture.cum).2 =
        dies next := by rw [drainOne_eq]
    unfold drainActs drainAll
    cases hd : dies next with
    | true =>
      rw [hd] at hdies
      simp [Recorder.run, Recorder.act, hdies]
    | false =>
      rw [hd] at hdies
      have hact : s.act p cfg tz (.drain next) = { s with capture := { s.capture with
          cum := (drainOne p next s.capture.owners s.capture.locals s.capture.cum).1 } } := by
        simp [Recorder.act, hdies]
      show Recorder.run p cfg tz (s.act p cfg tz (.drain next)) (drainActs rest) = _
      rw [hact, ih]
      simp only [hdies, Bool.false_eq_true, if_false]
      rfl

def passActs (exclude : List String) (o : Pass) (c : Capture) : List Act :=
  let c := { c with receivers := resolve exclude o.resolve c.receivers }
  .resolve o.resolve :: if c.receivers.isEmpty then []
    else
      let streams := (List.range c.receivers.length).map o.next
      let d := drainAll p c.owners c.locals streams c.cum
      drainActs streams ++ if d.2 then []
        else o.snapshot.toList.map Act.snapshot ++
          if o.flushDue || decide (5000 < d.1.rows.length) then [.flush] else []

theorem capturePass_run (o : Pass) (s : Recorder) :
    s.run p cfg tz (passActs p cfg.excludeIfaces o s.capture) =
      let r := capturePass p cfg.excludeIfaces o s.capture s.shared
      { s with capture := r.1, shared := r.2 } := by
  unfold passActs capturePass
  dsimp only
  rw [Recorder.run_cons]
  have hact : s.act p cfg tz (.resolve o.resolve) = { s with capture := { s.capture with
      receivers := resolve cfg.excludeIfaces o.resolve s.capture.receivers } } := rfl
  rw [hact]
  generalize resolve cfg.excludeIfaces o.resolve s.capture.receivers = receivers
  cases hempty : receivers.isEmpty with
  | true => rfl
  | false =>
    simp only [Bool.false_eq_true, if_false]
    rw [Recorder.run_append, run_drainActs]
    dsimp only
    generalize drainAll p s.capture.owners _ _ s.capture.cum = d
    obtain ⟨cum, dead⟩ := d
    cases dead with
    | true => rfl
    | false =>
      simp only [Bool.false_eq_true, if_false]
      cases o.flushDue || decide (5000 < cum.rows.length) <;> cases o.snapshot <;> rfl

theorem tick_run (r : Reading) (s : Recorder) (hrec : cfg.procRecording = true)
    (htaken : s.taken = none) (hgap : gapBranch cfg r = false) :
    s.run p cfg tz [.samples r, .take, .commit r.nowWall] =
      { s with
        shared := ∅
        state := tick cfg tz s.state { r with procDeltas := s.shared } } := by
  have hsamples : tickSamples cfg tz s.state { r with procDeltas := s.shared } =
      tickSamples cfg tz s.state r := rfl
  have hgap' : gapBranch cfg { r with procDeltas := s.shared } = false := hgap
  simp [Recorder.run, Recorder.act, htaken, tick, hgap', hsamples, recordProc, hrec]

def Usage.bytes (e : Usage) : ℤ := e.rx + e.tx

def deltaBytes (v : ℕ × ℕ) : ℤ := v.1 + v.2

def rowBytes (v : ℤ × ℤ) : ℤ := v.1 + v.2

def Recorder.bytes (s : Recorder) : ℤ :=
  s.state.db.procHourly.weigh rowBytes + s.shared.weigh deltaBytes +
    s.capture.cum.weigh Usage.bytes + (s.taken.getD ∅).weigh deltaBytes

/-- Ethernet with a well-formed IP header of the family it announces. -/
def carriesIp (frame : Bytes) : Bool :=
  match p.ethernet frame with
  | none => false
  | some (ethertype, payload) =>
    (ethertype = etherTypeIpv4 && (p.ipv4 payload).isSome) ||
      (ethertype = etherTypeIpv6 && (p.ipv6 payload).isSome)

def ipBytes (frames : List Bytes) : ℤ :=
  ((frames.filter (carriesIp p)).map (fun frame => (frame.length : ℤ))).sum

theorem ipBytes_cons (frame : Bytes) (frames : List Bytes) :
    ipBytes p (frame :: frames) =
      (if carriesIp p frame then (frame.length : ℤ) else 0) + ipBytes p frames := by
  by_cases h : carriesIp p frame <;> simp [ipBytes, h]

theorem ipBytes_append (frames frames' : List Bytes) :
    ipBytes p (frames ++ frames') = ipBytes p frames + ipBytes p frames' := by
  simp [ipBytes]

theorem parseFrame_isSome (frame : Bytes) :
    (parseFrame p frame).isSome = carriesIp p frame := by
  unfold parseFrame carriesIp
  cases p.ethernet frame with
  | none => rfl
  | some e =>
    obtain ⟨ethertype, payload⟩ := e
    have hne : etherTypeIpv6 ≠ etherTypeIpv4 := by decide
    by_cases h4 : ethertype = etherTypeIpv4
    · simp [h4, hne.symm]
    · by_cases h6 : ethertype = etherTypeIpv6 <;> simp [h4, h6, hne]

theorem Usage.bytes_rename (comm : String) (e : Usage) : (e.rename comm).bytes = e.bytes := by
  unfold Usage.rename
  split <;> rfl

theorem Usage.bytes_count (up : Bool) (n : ℕ) (e : Usage) :
    (e.count up n).bytes = e.bytes + n := by
  unfold Usage.count Usage.bytes
  split <;> push_cast <;> ring

theorem weigh_account (owners : Owners) (locals : List IpAddr) (frame : Bytes) (cum : Cum) :
    (account p owners locals frame cum).weigh Usage.bytes =
      cum.weigh Usage.bytes + if carriesIp p frame then (frame.length : ℤ) else 0 := by
  unfold account
  rw [← parseFrame_isSome]
  cases parseFrame p frame with
  | none => simp
  | some f =>
    refine Table.weigh_upsert ?_ (fun e => ?_) _ _
    · rw [Usage.bytes_count, Usage.bytes_rename]
      simp [Usage.bytes]
    · rw [Usage.bytes_count, Usage.bytes_rename]
      simp

theorem weigh_accountAll (owners : Owners) (locals : List IpAddr) (frames : List Bytes)
    (cum : Cum) :
    (frames.foldl (fun cum frame => account p owners locals frame cum) cum).weigh Usage.bytes =
      cum.weigh Usage.bytes + ipBytes p frames := by
  induction frames generalizing cum with
  | nil => simp [ipBytes]
  | cons frame frames ih => rw [List.foldl_cons, ih, weigh_account, ipBytes_cons, add_assoc]

theorem deltaBytes_add (a b : ℕ × ℕ) : deltaBytes (a + b) = deltaBytes a + deltaBytes b := by
  simp only [deltaBytes, Prod.fst_add, Prod.snd_add]
  push_cast
  ring

theorem rowBytes_add (a b : ℤ × ℤ) : rowBytes (a + b) = rowBytes a + rowBytes b := by
  simp only [rowBytes, Prod.fst_add, Prod.snd_add]
  ring

theorem weigh_flush (cum : Cum) (shared : Shared) :
    (flush cum shared).weigh deltaBytes =
      shared.weigh deltaBytes + cum.weigh Usage.bytes := by
  unfold flush
  rw [Table.weigh_addAll deltaBytes_add, List.map_map]
  rfl

theorem sum_procRows (hour : ℤ) (deltas : Shared) :
    ((procRows hour deltas).map (fun r => rowBytes r.2)).sum = deltas.weigh deltaBytes := by
  unfold procRows Table.weigh
  induction deltas.rows with
  | nil => rfl
  | cons e l ih =>
    rw [List.filterMap_cons]
    split
    · next h =>
      have hz : deltaBytes e.2 = 0 := by
        simp only [ite_eq_right_iff, reduceCtorEq, imp_false, not_or] at h
        unfold deltaBytes
        omega
      rw [ih, List.map_cons, List.sum_cons, hz, zero_add]
    · next row h =>
      have hrow : rowBytes row.2 = deltaBytes e.2 := by
        split at h
        · obtain rfl := Option.some.inj h
          rfl
        · simp at h
      rw [List.map_cons, List.sum_cons, ih, List.map_cons, List.sum_cons, hrow]

theorem weigh_commitDeltas (hour : ℤ) (deltas : Shared) (db : Db) :
    (commitDeltas hour deltas db).procHourly.weigh rowBytes =
      db.procHourly.weigh rowBytes + deltas.weigh deltaBytes := by
  show (db.procHourly.addAll _).weigh rowBytes = _
  rw [Table.weigh_addAll rowBytes_add, sum_procRows]

theorem bytes_act (s : Recorder) (a : Act) :
    (s.act p cfg tz a).bytes = s.bytes + ipBytes p (handed [a]) := by
  cases a with
  | drain next =>
    have hcum : (drainOne p next s.capture.owners s.capture.locals s.capture.cum).1.weigh
        Usage.bytes = s.capture.cum.weigh Usage.bytes + ipBytes p (drained next) := by
      rw [drainOne_eq]
      exact weigh_accountAll p _ _ _ _
    have hhanded : handed [.drain next] = drained next := by simp [handed]
    simp only [Recorder.bytes, Recorder.act, hcum, hhanded]
    ring
  | flush =>
    simp only [Recorder.bytes, Recorder.act, weigh_flush, Table.weigh_empty]
    simp [handed, ipBytes, add_assoc]
  | take =>
    cases h : s.taken with
    | none =>
      simp [Recorder.bytes, Recorder.act, h, handed, ipBytes]
      ring
    | some deltas => simp [Recorder.act, h, handed, ipBytes]
  | commit nowWall =>
    cases h : s.taken with
    | none => simp [Recorder.act, h, handed, ipBytes]
    | some deltas =>
      simp [Recorder.bytes, Recorder.act, h, weigh_commitDeltas, handed, ipBytes]
      ring
  | resolve o => simp [Recorder.bytes, Recorder.act, handed, ipBytes]
  | snapshot owners => simp [Recorder.bytes, Recorder.act, handed, ipBytes]
  | samples r => simp [Recorder.bytes, Recorder.act, handed, ipBytes]
  | rollup f => simp [Recorder.bytes, Recorder.act, handed, ipBytes]

theorem bytes_run (s : Recorder) (acts : List Act) :
    (s.run p cfg tz acts).bytes = s.bytes + ipBytes p (handed acts) := by
  induction acts generalizing s with
  | nil => simp [Recorder.run, handed, ipBytes]
  | cons a acts ih =>
    have hhanded : handed (a :: acts) = handed [a] ++ handed acts := by simp [handed]
    rw [Recorder.run_cons, ih, bytes_act, hhanded, ipBytes_append, add_assoc]

/-- In every state either thread can see, the bytes of all frames handed to
`account` are in the database, in one of the maps, or on their way: once each. -/
theorem per_app_bytes_conserved (owners : Owners) (acts : List Act) :
    let s := (Recorder.spawn owners).run p cfg tz acts
    s.state.db.procHourly.weigh rowBytes + s.shared.weigh deltaBytes +
        s.capture.cum.weigh Usage.bytes + (s.taken.getD ∅).weigh deltaBytes =
      (((handed acts).filter (carriesIp p)).map (fun frame => (frame.length : ℤ))).sum := by
  have h := bytes_run p cfg tz (Recorder.spawn owners) acts
  have hspawn : (Recorder.spawn owners).bytes = 0 := rfl
  rw [hspawn, zero_add] at h
  exact h

end Netmeter
