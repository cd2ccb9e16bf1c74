import Netmeter.PerApp
import Netmeter.ProcNames
set_option autoImplicit false

/-!
Per-app recording with a capture thread that may die, `ensure_running`, and a
service that stops, is killed and starts again: what happens to every frame.
-/

namespace Netmeter
open Keyed

structure Frames where
  recorded : List Bytes := []
  taken : List Bytes := []
  shared : List Bytes := []
  scratch : List Bytes := []
  lost : List Bytes := []

/-- The recorder, whether the service and its capture thread run, and as ghost state
where the frames are and the bytes that retention deleted. -/
structure Service where
  recorder : Recorder := { capture := { owners := {} }, state := State.init }
  running : Bool := false
  alive : Bool := false
  frames : Frames := {}
  pruned : ℤ := 0

inductive ServiceEvent where
  /-- `ProcRecorder::spawn` -/
  | spawn (owners : Owners)
  | act (a : Act)
  /-- the capture thread panics -/
  | die
  | ensureRunning (owners : Owners)
  | retain (now : WallClock)
  /-- the stop branch, which takes nothing from the recorder -/
  | stop (f : Faults) (now : WallClock)
  | kill

def ServiceEvent.orderly : ServiceEvent → Bool
  | .die => false
  | .stop _ _ => false
  | .kill => false
  | _ => true

/-- The capture thread may die, the daemon runs on. -/
def ServiceEvent.staysUp : ServiceEvent → Bool
  | .stop _ _ => false
  | .kill => false
  | _ => true

def Act.ofCapture : Act → Bool
  | .resolve _ => true
  | .drain _ => true
  | .snapshot _ => true
  | .flush => true
  | .samples _ => false
  | .take => false
  | .commit _ => false
  | .rollup _ => false

namespace Frames

def act (busy : Bool) (fr : Frames) : Act → Frames
  | .drain next => { fr with scratch := fr.scratch ++ drained next }
  | .flush => { fr with scratch := [], shared := fr.shared ++ fr.scratch }
  | .take => if busy then fr else { fr with shared := [], taken := fr.taken ++ fr.shared }
  | .commit _ => { fr with taken := [], recorded := fr.recorded ++ fr.taken }
  | _ => fr

def loseScratch (fr : Frames) : Frames :=
  { fr with scratch := [], lost := fr.lost ++ fr.scratch }

def loseMemory (fr : Frames) : Frames :=
  { fr with
    taken := [], shared := [], scratch := []
    lost := fr.lost ++ (fr.taken ++ fr.shared ++ fr.scratch) }

def all (fr : Frames) : List Bytes :=
  fr.recorded ++ fr.taken ++ fr.shared ++ fr.scratch ++ fr.lost

end Frames

def Recorder.dropMemory (r : Recorder) : Recorder :=
  { r with capture := { owners := r.capture.owners }, shared := ∅, taken := none }

def procWeight (db : Db) : ℤ := db.procHourly.weigh rowBytes

namespace Service

variable (p : Pnet) (cfg : Config) (tz : TimeZone)

def admits (s : Service) (a : Act) : Bool := s.running && (s.alive || !a.ofCapture)

def retained (s : Service) (db : Db) : Service :=
  { s with
    recorder := { s.recorder with state := { s.recorder.state with db := db } }
    pruned := s.pruned + (procWeight s.recorder.state.db - procWeight db) }

def step (s : Service) : ServiceEvent → Service
  | .spawn owners =>
    if s.running then s
    else
      { s with
        recorder := { capture := { owners := owners }, state := { db := s.recorder.state.db } }
        running := true
        alive := true }
  | .act a =>
    if s.admits a then
      { s with
        recorder := s.recorder.act p cfg tz a
        frames := s.frames.act s.recorder.taken.isSome a }
    else s
  | .die =>
    { s with
      recorder := { s.recorder with capture := { owners := s.recorder.capture.owners } }
      alive := false
      frames := s.frames.loseScratch }
  | .ensureRunning owners =>
    if s.running && !s.alive then
      { s with
        recorder := { s.recorder with capture := { owners := owners } }
        alive := true }
    else s
  | .retain now =>
    if s.running then s.retained (enforceRetention cfg now.secs s.recorder.state.db) else s
  | .stop f now =>
    let s := if s.running then s.retained (stopRequested cfg tz s.recorder.state f now).db else s
    { s with
      recorder := s.recorder.dropMemory
      running := false
      alive := false
      frames := s.frames.loseMemory }
  | .kill =>
    { s with
      recorder := s.recorder.dropMemory
      running := false
      alive := false
      frames := s.frames.loseMemory }

def run (s : Service) (es : List ServiceEvent) : Service := es.foldl (step p cfg tz) s

def read (s : Service) : ServiceEvent → List Bytes
  | .act a => if s.admits a then handed [a] else []
  | _ => []

def readAll : Service → List ServiceEvent → List Bytes
  | _, [] => []
  | s, e :: es => s.read e ++ readAll (s.step p cfg tz e) es

/-- Each store holds the bytes of its frames, and what does not run holds none. -/
structure Accounted (s : Service) : Prop where
  recorded : procWeight s.recorder.state.db + s.pruned = ipBytes p s.frames.recorded
  taken : (s.recorder.taken.getD ∅).weigh deltaBytes = ipBytes p s.frames.taken
  shared : s.recorder.shared.weigh deltaBytes = ipBytes p s.frames.shared
  scratch : s.recorder.capture.cum.weigh Usage.bytes = ipBytes p s.frames.scratch
  free : s.recorder.taken = none → s.frames.taken = []
  idle : s.alive = false → s.frames.scratch = []
  down : s.running = false → s.frames.taken = [] ∧ s.frames.shared = [] ∧ s.frames.scratch = []

variable {p cfg tz} {s : Service}

theorem accounted_init : ({} : Service).Accounted p :=
  ⟨rfl, rfl, rfl, rfl, fun _ => rfl, fun _ => rfl, fun _ => ⟨rfl, rfl, rfl⟩⟩

theorem accounted_act (h : s.Accounted p) {a : Act} (ha : s.admits a = true) :
    (s.step p cfg tz (.act a)).Accounted p := by
  obtain ⟨hrec, htaken, hshared, hscratch, hfree, hidle, hdown⟩ := h
  have hrun : s.running = true := by
    simp only [admits, Bool.and_eq_true] at ha
    exact ha.1
  have hdown' : s.running = false → ∀ q : Prop, q := fun hr => by simp [hrun] at hr
  simp only [step, ha, if_true]
  cases a with
  | resolve o => exact ⟨hrec, htaken, hshared, hscratch, hfree, hidle, hdown⟩
  | drain next =>
    have halive : s.alive = true := by simpa [admits, hrun, Act.ofCapture] using ha
    refine ⟨hrec, htaken, hshared, ?_, hfree, fun hd => by simp [halive] at hd,
      fun hr => hdown' hr _⟩
    simp only [Recorder.act, drainOne_eq, Frames.act]
    rw [weigh_accountAll, hscratch, ipBytes_append]
  | snapshot owners => exact ⟨hrec, htaken, hshared, hscratch, hfree, hidle, hdown⟩
  | flush =>
    refine ⟨hrec, htaken, ?_, rfl, hfree, fun _ => rfl, fun hr => hdown' hr _⟩
    simp only [Recorder.act, Frames.act]
    rw [weigh_flush, hshared, hscratch, ipBytes_append]
  | samples r =>
    refine ⟨?_, htaken, hshared, hscratch, hfree, hidle, hdown⟩
    simpa only [procWeight, Recorder.act, Frames.act, procHourly_tickSamples] using hrec
  | take =>
    cases hbusy : s.recorder.taken with
    | some deltas =>
      simp only [Recorder.act, Frames.act, hbusy, Option.isSome_some, if_true]
      exact ⟨hrec, hbusy ▸ htaken, hshared, hscratch, fun hn => hfree (hbusy ▸ hn), hidle, hdown⟩
    | none =>
      simp only [Recorder.act, Frames.act, hbusy, Option.isSome_none, Bool.false_eq_true, if_false,
        hfree hbusy, List.nil_append]
      exact ⟨hrec, hshared, rfl, hscratch, fun hn => by simp at hn, hidle, fun hr => hdown' hr _⟩
  | commit nowWall =>
    cases hbusy : s.recorder.taken with
    | some deltas =>
      rw [hbusy] at htaken
      simp only [Recorder.act, Frames.act, hbusy]
      refine ⟨?_, rfl, hshared, hscratch, fun _ => rfl, hidle, fun hr => hdown' hr _⟩
      unfold procWeight at hrec ⊢
      dsimp only
      rw [weigh_commitDeltas, ipBytes_append, ← hrec, ← htaken]
      simp only [Option.getD_some]
      ring
    | none =>
      have hnone : s.frames.taken = [] := hfree hbusy
      simp only [Recorder.act, Frames.act, hbusy, hnone, List.append_nil]
      refine ⟨hrec, ?_, hshared, hscratch, fun _ => rfl, hidle, fun hr => hdown' hr _⟩
      rw [hbusy]
      rfl
  | rollup f =>
    refine ⟨?_, htaken, hshared, hscratch, hfree, hidle, hdown⟩
    simpa only [procWeight, Recorder.act, Frames.act, procHourly_rollupCall] using hrec

theorem Accounted.retained (h : s.Accounted p) (db : Db) : (s.retained db).Accounted p where
  recorded := by
    have hrec := h.recorded
    simp only [Service.retained]
    linarith
  taken := h.taken
  shared := h.shared
  scratch := h.scratch
  free := h.free
  idle := h.idle
  down := h.down

theorem Accounted.dropped (h : s.Accounted p) : Accounted p { s with
    recorder := s.recorder.dropMemory, running := false, alive := false
    frames := s.frames.loseMemory } :=
  ⟨h.recorded, rfl, rfl, rfl, fun _ => rfl, fun _ => rfl, fun _ => ⟨rfl, rfl, rfl⟩⟩

theorem accounted_step (s : Service) (e : ServiceEvent) (h : s.Accounted p) :
    (s.step p cfg tz e).Accounted p := by
  cases e with
  | spawn owners =>
    cases hrun : s.running with
    | true => simpa [step, hrun] using h
    | false =>
      obtain ⟨htaken, hshared, hscratch⟩ := h.down hrun
      simp only [step, hrun, Bool.false_eq_true, if_false]
      refine ⟨h.recorded, ?_, ?_, ?_, fun _ => htaken, fun _ => hscratch,
        fun _ => ⟨htaken, hshared, hscratch⟩⟩
      · rw [htaken]
        rfl
      · rw [hshared]
        rfl
      · rw [hscratch]
        rfl
  | act a =>
    cases ha : s.admits a with
    | true => exact accounted_act h ha
    | false => simpa [step, ha] using h
  | die =>
    exact ⟨h.recorded, h.taken, h.shared, rfl, h.free, fun _ => rfl,
      fun hr => ⟨(h.down hr).1, (h.down hr).2.1, rfl⟩⟩
  | ensureRunning owners =>
    cases hdead : s.running && !s.alive with
    | true =>
      have hscratch : s.frames.scratch = [] := by
        simp only [Bool.and_eq_true, Bool.not_eq_true'] at hdead
        exact h.idle hdead.2
      simp only [step, hdead, if_true]
      refine ⟨h.recorded, h.taken, h.shared, ?_, h.free, fun _ => hscratch, h.down⟩
      rw [hscratch]
      rfl
    | false => simpa [step, hdead] using h
  | retain now =>
    simp only [step]
    split
    · exact h.retained _
    · exact h
  | stop f now =>
    simp only [step]
    split
    · exact (h.retained _).dropped
    · exact h.dropped
  | kill => exact h.dropped

theorem frames_act (busy : Bool) (fr : Frames) (a : Act) :
    (fr.act busy a).all.Perm (fr.all ++ handed [a]) := by
  rw [List.perm_iff_count]
  intro frame
  cases a with
  | drain next =>
    simp only [Frames.act, Frames.all, handed, List.flatMap_cons, List.flatMap_nil,
      List.append_nil, List.count_append]
    omega
  | flush =>
    simp only [Frames.act, Frames.all, handed, List.flatMap_cons, List.flatMap_nil,
      List.append_nil, List.count_append]
    omega
  | take => cases busy <;> simp [Frames.act, Frames.all, handed]
  | commit nowWall => simp [Frames.act, Frames.all, handed]
  | _ => simp [Frames.act, Frames.all, handed]

theorem frames_loseMemory (fr : Frames) : fr.loseMemory.all.Perm fr.all := by
  rw [List.perm_iff_count]
  intro frame
  simp only [Frames.loseMemory, Frames.all, List.count_append, List.count_nil]
  omega

theorem frames_step (s : Service) (e : ServiceEvent) :
    (s.step p cfg tz e).frames.all.Perm (s.frames.all ++ s.read e) := by
  cases e with
  | act a =>
    cases ha : s.admits a with
    | true =>
      simp only [step, read, ha, if_true]
      exact frames_act _ _ a
    | false => simp [step, read, ha]
  | die =>
    rw [List.perm_iff_count]
    intro frame
    simp only [step, read, Frames.loseScratch, Frames.all, List.count_append, List.count_nil]
    omega
  | spawn owners =>
    simp only [step, read, List.append_nil]
    split <;> exact List.Perm.refl _
  | ensureRunning owners =>
    simp only [step, read, List.append_nil]
    split <;> exact List.Perm.refl _
  | retain now =>
    simp only [step, read, List.append_nil]
    split <;> exact List.Perm.refl _
  | stop f now =>
    simp only [step, read, List.append_nil]
    split <;> exact frames_loseMemory s.frames
  | kill =>
    simp only [step, read, List.append_nil]
    exact frames_loseMemory s.frames

theorem lost_act (busy : Bool) (fr : Frames) (a : Act) : (fr.act busy a).lost = fr.lost := by
  cases a with
  | take => cases busy <;> rfl
  | _ => rfl

theorem lost_step (s : Service) {e : ServiceEvent} (he : e.orderly = true) :
    (s.step p cfg tz e).frames.lost = s.frames.lost := by
  cases e with
  | act a =>
    simp only [step]
    split
    · exact lost_act _ _ a
    · rfl
  | die => cases he
  | stop f now => cases he
  | kill => cases he
  | spawn owners =>
    simp only [step]
    split <;> rfl
  | ensureRunning owners =>
    simp only [step]
    split <;> rfl
  | retain now =>
    simp only [step]
    split <;> rfl

theorem atRisk_step (s : Service) {e : ServiceEvent} (he : e.staysUp = true) :
    ((s.step p cfg tz e).frames.lost ++ (s.step p cfg tz e).frames.scratch).Sublist
      (s.frames.lost ++ s.frames.scratch ++ s.read e) := by
  cases e with
  | act a =>
    cases ha : s.admits a with
    | false => simp [step, read, ha]
    | true =>
      simp only [step, read, ha, if_true]
      cases a with
      | drain next => simp [Frames.act, handed]
      | flush => simp [Frames.act, handed]
      | take => cases s.recorder.taken <;> simp [Frames.act, handed]
      | _ => simp [Frames.act, handed]
  | die => simp [step, read, Frames.loseScratch]
  | stop f now => cases he
  | kill => cases he
  | spawn owners =>
    simp only [step, read, List.append_nil]
    split <;> exact List.Sublist.refl _
  | ensureRunning owners =>
    simp only [step, read, List.append_nil]
    split <;> exact List.Sublist.refl _
  | retain now =>
    simp only [step, read, List.append_nil]
    split <;> exact List.Sublist.refl _

theorem run_append (s : Service) (es es' : List ServiceEvent) :
    s.run p cfg tz (es ++ es') = (s.run p cfg tz es).run p cfg tz es' :=
  List.foldl_append

theorem accounted_run (es : List ServiceEvent) (h : s.Accounted p) :
    (s.run p cfg tz es).Accounted p :=
  Transaction.invariant (Accounted p) accounted_step h es

theorem frames_run (s : Service) (es : List ServiceEvent) :
    (s.run p cfg tz es).frames.all.Perm (s.frames.all ++ s.readAll p cfg tz es) := by
  induction es generalizing s with
  | nil => simp [run, readAll]
  | cons e es ih =>
    show ((s.step p cfg tz e).run p cfg tz es).frames.all.Perm _
    refine (ih (s.step p cfg tz e)).trans ?_
    rw [readAll, ← List.append_assoc]
    exact (frames_step s e).append_right _

theorem lost_run (s : Service) {es : List ServiceEvent} (hes : ∀ e ∈ es, e.orderly = true) :
    (s.run p cfg tz es).frames.lost = s.frames.lost := by
  induction es generalizing s with
  | nil => rfl
  | cons e es ih =>
    show ((s.step p cfg tz e).run p cfg tz es).frames.lost = _
    rw [ih _ (fun e' he' => hes e' (List.mem_cons_of_mem _ he')),
      lost_step s (hes e List.mem_cons_self)]

theorem atRisk_run (s : Service) {es : List ServiceEvent} (hes : ∀ e ∈ es, e.staysUp = true) :
    ((s.run p cfg tz es).frames.lost ++ (s.run p cfg tz es).frames.scratch).Sublist
      (s.frames.lost ++ s.frames.scratch ++ s.readAll p cfg tz es) := by
  induction es generalizing s with
  | nil => simp [run, readAll]
  | cons e es ih =>
    have hrest := ih (s.step p cfg tz e) (fun e' he' => hes e' (List.mem_cons_of_mem _ he'))
    refine List.Sublist.trans hrest ?_
    rw [readAll, ← List.append_assoc]
    exact (atRisk_step s (hes e List.mem_cons_self)).append_right _

end Service

/-- In every run in which the capture thread dies and restarts and the service stops,
is killed and starts again, each frame is in one place: recorded, taken, shared, in
the scratch map or lost; each place holds the bytes of its frames; and nothing is lost
where nothing died, stopped or was killed. -/
theorem every_frame_once (p : Pnet) (cfg : Config) (tz : TimeZone) (es : List ServiceEvent) :
    let s := ({} : Service).run p cfg tz es
    s.frames.all.Perm (({} : Service).readAll p cfg tz es) ∧
      s.recorder.state.db.procHourly.weigh rowBytes + s.pruned = ipBytes p s.frames.recorded ∧
      (s.recorder.taken.getD ∅).weigh deltaBytes = ipBytes p s.frames.taken ∧
      s.recorder.shared.weigh deltaBytes = ipBytes p s.frames.shared ∧
      s.recorder.capture.cum.weigh Usage.bytes = ipBytes p s.frames.scratch ∧
      ((∀ e ∈ es, e.orderly = true) → s.frames.lost = []) := by
  have h : (({} : Service).run p cfg tz es).Accounted p :=
    Service.accounted_run es Service.accounted_init
  exact ⟨Service.frames_run {} es, h.recorded, h.taken, h.shared, h.scratch,
    fun hes => Service.lost_run {} hes⟩

/-- However often the capture thread dies after a flush, it loses no frame that was
handed to it before the flush. -/
theorem flushed_frames_survive (p : Pnet) (cfg : Config) (tz : TimeZone)
    (pre post : List ServiceEvent)
    (hflush : (({} : Service).run p cfg tz pre).admits .flush = true)
    (hpost : ∀ e ∈ post, e.staysUp = true) :
    (({} : Service).run p cfg tz (pre ++ .act .flush :: post)).frames.lost.Sublist
      ((({} : Service).run p cfg tz pre).frames.lost ++
        (({} : Service).run p cfg tz (pre ++ [.act .flush])).readAll p cfg tz post) := by
  have hstep : ({} : Service).run p cfg tz (pre ++ .act .flush :: post) =
      (({} : Service).run p cfg tz (pre ++ [.act .flush])).run p cfg tz post := by
    rw [← Service.run_append, List.append_assoc]
    rfl
  have hafter : ({} : Service).run p cfg tz (pre ++ [.act .flush]) =
      (({} : Service).run p cfg tz pre).step p cfg tz (.act .flush) := Service.run_append _ _ _
  have hrisk : (((({} : Service).run p cfg tz (pre ++ [.act .flush])).run p cfg tz post).frames.lost
      ++ _).Sublist _ := Service.atRisk_run _ hpost
  have hlost : (({} : Service).run p cfg tz (pre ++ [.act .flush])).frames.lost ++
      (({} : Service).run p cfg tz (pre ++ [.act .flush])).frames.scratch =
        (({} : Service).run p cfg tz pre).frames.lost := by
    rw [hafter]
    simp [Service.step, hflush, Frames.act]
  rw [hstep]
  rw [hlost] at hrisk
  exact (List.sublist_append_left _ _).trans hrisk

def oneFrame : Act :=
  .drain (fun i => if i = 0 then .frame (mixedFrames.headD []) else .err .timedOut)

theorem flushed_frames_survive_death :
    let pre : List ServiceEvent := [.spawn curlOwners, .act oneFrame]
    let post : List ServiceEvent := [.act oneFrame, .die]
    (({} : Service).run .wire {} .utc (pre ++ .act .flush :: post)).frames.lost.Sublist
      ((({} : Service).run .wire {} .utc pre).frames.lost ++
        (({} : Service).run .wire {} .utc (pre ++ [.act .flush])).readAll .wire {} .utc post) :=
  flushed_frames_survive .wire {} .utc [.spawn curlOwners, .act oneFrame]
    [.act oneFrame, .die] (by decide +kernel) (by decide)

end Netmeter
