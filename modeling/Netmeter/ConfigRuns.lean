import Netmeter.ConfigFile
import Netmeter.Lib.Transaction
set_option autoImplicit false

/-!
Runs of `netmeter config` by root and by any number of users, over the files of one
machine, against what each layer of settings is meant to hold.
-/

namespace Netmeter
open Keyed

variable {F : Type}

/-- `reset` carries whether a file that is there can be removed. -/
inductive ConfigOp where
  | path
  | get (key : Option String)
  | set (key value : String)
  | reset (removeOk : Bool)

structure Command extends Host where
  op : ConfigOp

inductive CommandError where
  | config (e : ConfigError)
  | remove
  deriving DecidableEq, Repr

inductive Answer (F : Type) where
  | paths (user : Bool)
  | value (v : Option (Toml F))
  | all (cfg : Settings F)
  | wrote
  | removed (user : Bool)

def Field.named (key : String) : Option Field := Field.all.find? (fun f => f.name = key)

section
variable (fl : F64 F) (toml : TomlText F)

def Command.perform (c : Command) (files : ConfigFiles) (cfg : Settings F) :
    ConfigFiles × Except CommandError (Answer F) :=
  match c.op with
  | .path => (files, .ok (.paths c.home.isSome))
  | .get none => (files, .ok (.all cfg))
  | .get (some key) =>
    (files, .ok (.value ((Field.named key).map (fun f => f.kind.encode (cfg f)))))
  | .set key value =>
    match cmdConfigSet fl toml c.toHost key value files with
    | (files, .ok ()) => (files, .ok .wrote)
    | (files, .error e) => (files, .error (.config e))
  | .reset removeOk =>
    if c.home.isNone then (files, .ok (.removed false))
    else if removeOk then ({ files with user := none }, .ok (.removed true))
    else (files, .error .remove)

/-- The configuration is loaded before any command runs. -/
def cmdConfig (c : Command) (files : ConfigFiles) :
    ConfigFiles × Except CommandError (Answer F) :=
  match Settings.load fl toml c.toHost files with
  | none => (files, .error (.config .load))
  | some cfg => c.perform fl toml files cfg

/-- Whether a call changes a file: it reports no error, or fails with its file open. -/
def writes : Except CommandError (Answer F) → Bool
  | .ok _ => true
  | .error (.config .write) => true
  | .error _ => false

namespace Disk

def call (d : Disk) (c : Command) : Disk × Except CommandError (Answer F) :=
  let out := cmdConfig fl toml c (d.files c.home)
  (d.put c.home out.1, out.2)

def after (d : Disk) (cs : List Command) : Disk := cs.foldl (fun d c => (d.call fl toml c).1) d

def written (d : Disk) : List Command → List Command
  | [] => []
  | c :: cs =>
    let out := d.call fl toml c
    if writes out.2 then c :: written out.1 cs else written out.1 cs

end Disk

/-- The settings that root has made and those that each user has made. -/
structure Layers (F : Type) where
  system : Table String (Toml F)
  users : String → Table String (Toml F)

def setLayer (w : WriteRun) (key value : String) (t : Table String (Toml F)) :
    Table String (Toml F) :=
  let t := t.set key (guess fl value)
  match w with
  | .torn bytes => (parsed toml ((toml.toStringPretty t).bind (beginning bytes))).getD ∅
  | _ => t

namespace Layers

def apply (l : Layers F) (c : Command) : Layers F :=
  match c.op, c.home with
  | .set key value, home =>
    if c.root then { l with system := setLayer fl toml c.write key value l.system }
    else match home with
      | some h =>
        { l with
          users := Function.update l.users h (setLayer fl toml c.write key value (l.users h)) }
      | none => l
  | .reset _, some h => { l with users := Function.update l.users h ∅ }
  | _, _ => l

def view (l : Layers F) (home : Option String) : Table String (Toml F) :=
  let part := match home with
    | some h => l.users h
    | none => ∅
  mergeValue (mergeValue (Settings.default fl).toToml l.system) part

end Layers

def Disk.layers (d : Disk) : Layers F where
  system := (parsed toml d.system).getD ∅
  users h := (parsed toml (d.users h)).getD ∅

end

section
variable {fl : F64 F} {toml : TomlText F} {d : Disk} {c : Command}

theorem call_unloaded (h : Settings.load fl toml c.toHost (d.files c.home) = none) :
    d.call fl toml c = (d, .error (.config .load)) := by
  unfold Disk.call cmdConfig
  rw [h]
  dsimp only
  rw [put_files]

theorem layers_put_user (d : Disk) (h : String) (text : Option String) :
    (d.put (some h) ⟨d.system, text⟩).layers toml =
      { d.layers toml with
        users := Function.update (d.layers toml).users h ((parsed toml text).getD ∅) } := by
  unfold Disk.layers Disk.put
  congr 1
  funext h'
  by_cases hh : h' = h
  · subst hh
    simp
  · simp [hh]

theorem layers_put_system (d : Disk) (home : Option String) (text : Option String) :
    (d.put home ⟨text, (d.files home).user⟩).layers toml =
      { d.layers toml with system := (parsed toml text).getD ∅ } := by
  have hput :
      d.put home ⟨text, (d.files home).user⟩ = ⟨text, (d.put home (d.files home)).users⟩ := by
    cases home <;> rfl
  rw [hput, put_files]
  rfl

/-- What a call has done to the layers. -/
def Disk.Layered (fl : F64 F) (toml : TomlText F) (d : Disk) (c : Command)
    (out : ConfigFiles × Except CommandError (Answer F)) : Prop :=
  (d.put c.home out.1).layers toml =
    if writes out.2 then (d.layers toml).apply fl toml c else d.layers toml

theorem layered_error {e : CommandError} (h : e ≠ .config .write) :
    d.Layered fl toml c (d.files c.home, .error e) := by
  have hwrites : writes (.error e : Except CommandError (Answer F)) = false := by
    unfold writes
    split
    · next heq => cases heq
    · next heq =>
      cases heq
      exact absurd rfl h
    · rfl
  unfold Disk.Layered
  rw [put_files, hwrites]
  rfl

theorem layered_written {files : ConfigFiles} {result : Except CommandError (Answer F)}
    (hwrites : writes result = true)
    (h : (d.put c.home files).layers toml = (d.layers toml).apply fl toml c) :
    d.Layered fl toml c (files, result) := by
  unfold Disk.Layered
  rw [hwrites]
  exact h

theorem layered_kept {answer : Answer F} (h : (d.layers toml).apply fl toml c = d.layers toml) :
    d.Layered fl toml c (d.files c.home, .ok answer) := by
  refine layered_written rfl ?_
  rw [put_files, h]

theorem layers_replaced {key value : String} {text : Option String} (hop : c.op = .set key value)
    (hpath : c.root = true ∨ c.home.isSome = true)
    (htext : (parsed toml text).getD ∅ = setLayer fl toml c.write key value
      ((parsed toml ((d.files c.home).target c.toHost)).getD ∅)) :
    (d.replaced c.toHost text).layers toml = (d.layers toml).apply fl toml c := by
  unfold Layers.apply Disk.replaced
  rw [hop]
  dsimp only
  cases hroot : c.root with
  | true =>
    have htarget : (d.files c.home).withTarget c.toHost text =
        ⟨text, (d.files c.home).user⟩ := by
      simp [ConfigFiles.withTarget, hroot]
    rw [htarget, layers_put_system, htext, if_pos rfl]
    simp [ConfigFiles.target, hroot, Disk.files, Disk.layers]
  | false =>
    obtain ⟨h, hhome⟩ := Option.isSome_iff_exists.mp (show c.home.isSome = true by
      simpa [hroot] using hpath)
    have htarget : (d.files (some h)).withTarget c.toHost text = ⟨d.system, text⟩ := by
      simp [ConfigFiles.withTarget, hroot, Disk.files]
    rw [hhome, htarget, layers_put_user, htext, if_neg Bool.false_ne_true]
    simp [ConfigFiles.target, hroot, hhome, Disk.files, Disk.layers]

theorem layered_set {key value : String} {cfg : Settings F}
    (hround : ∀ t text, toml.toStringPretty t = some text → toml.fromStr text = some t)
    (hload : Settings.load fl toml c.toHost (d.files c.home) = some cfg)
    (hop : c.op = .set key value) :
    d.Layered fl toml c (c.perform fl toml (d.files c.home) cfg) := by
  by_cases hopens : Opens fl toml c.toHost key value (d.files c.home)
  · obtain ⟨text, htext, hset⟩ := cmdConfigSet_opened hload hopens
    cases hwrite : c.write with
    | notOpened => exact absurd hwrite hopens.2.2.1
    | done =>
      have hrun : c.perform fl toml (d.files c.home) cfg =
          ((d.files c.home).withTarget c.toHost (some text), .ok .wrote) := by
        simp [Command.perform, hop, hset, hwrite]
      rw [hrun]
      refine layered_written rfl (layers_replaced hop hopens.1 ?_)
      have hparsed := congrArg (·.getD ∅) (hround _ _ htext)
      rw [hwrite]
      exact hparsed
    | torn bytes =>
      have hrun : c.perform fl toml (d.files c.home) cfg =
          ((d.files c.home).withTarget c.toHost (beginning bytes text),
            .error (.config .write)) := by
        simp [Command.perform, hop, hset, hwrite]
      rw [hrun]
      refine layered_written rfl (layers_replaced hop hopens.1 ?_)
      have htext' : toml.toStringPretty ((((parsed toml ((d.files c.home).target
          c.toHost)).getD ∅).set key (guess fl value))) = some text := htext
      rw [hwrite, setLayer, htext']
      rfl
  · obtain ⟨e, he, hne⟩ := cmdConfigSet_unopened hload hopens
    have hrun : c.perform fl toml (d.files c.home) cfg =
        (d.files c.home, .error (.config e)) := by
      simp [Command.perform, hop, he]
    rw [hrun]
    exact layered_error (fun h => hne (CommandError.config.inj h))

theorem layered_perform {cfg : Settings F}
    (hround : ∀ t text, toml.toStringPretty t = some text → toml.fromStr text = some t)
    (hload : Settings.load fl toml c.toHost (d.files c.home) = some cfg) :
    d.Layered fl toml c (c.perform fl toml (d.files c.home) cfg) := by
  cases hop : c.op with
  | set key value => exact layered_set hround hload hop
  | path =>
    have hkept : (d.layers toml).apply fl toml c = d.layers toml := by simp [Layers.apply, hop]
    unfold Command.perform
    rw [hop]
    exact layered_kept hkept
  | get key =>
    have hkept : (d.layers toml).apply fl toml c = d.layers toml := by simp [Layers.apply, hop]
    unfold Command.perform
    rw [hop]
    cases key with
    | none => exact layered_kept hkept
    | some key => exact layered_kept hkept
  | reset removeOk =>
    cases hhome : c.home with
    | none =>
      have hkept : (d.layers toml).apply fl toml c = d.layers toml := by
        simp [Layers.apply, hop, hhome]
      have hrun : c.perform fl toml (d.files c.home) cfg =
          (d.files c.home, .ok (.removed false)) := by
        simp [Command.perform, hop, hhome]
      rw [← hhome, hrun]
      exact layered_kept hkept
    | some h =>
      cases removeOk with
      | false =>
        have hrun : c.perform fl toml (d.files c.home) cfg = (d.files c.home, .error .remove) := by
          simp [Command.perform, hop, hhome]
        rw [← hhome, hrun]
        exact layered_error (by decide)
      | true =>
        have hrun : c.perform fl toml (d.files (some h)) cfg =
            (⟨d.system, none⟩, .ok (.removed true)) := by
          simp [Command.perform, hop, hhome, Disk.files]
        rw [hrun]
        refine layered_written rfl ?_
        simp only [Layers.apply, hop, hhome]
        exact layers_put_user d h none

theorem layers_call
    (hround : ∀ t text, toml.toStringPretty t = some text → toml.fromStr text = some t) :
    (d.call fl toml c).1.layers toml =
      if writes (d.call fl toml c).2 then (d.layers toml).apply fl toml c else d.layers toml := by
  cases hload : Settings.load fl toml c.toHost (d.files c.home) with
  | none =>
    rw [call_unloaded hload]
    rfl
  | some cfg =>
    have h := layered_perform hround hload
    have hcall : d.call fl toml c = (d.put c.home (c.perform fl toml (d.files c.home) cfg).1,
        (c.perform fl toml (d.files c.home) cfg).2) := by
      simp [Disk.call, cmdConfig, hload]
    rw [hcall]
    exact h

theorem written_cons (d : Disk) (c : Command) (cs : List Command) :
    d.written fl toml (c :: cs) = if writes (d.call fl toml c).2 then
      c :: (d.call fl toml c).1.written fl toml cs
      else (d.call fl toml c).1.written fl toml cs := rfl

theorem layers_after
    (hround : ∀ t text, toml.toStringPretty t = some text → toml.fromStr text = some t)
    (d : Disk) (cs : List Command) : (d.after fl toml cs).layers toml =
      (d.written fl toml cs).foldl (Layers.apply fl toml) (d.layers toml) := by
  induction cs generalizing d with
  | nil => rfl
  | cons c cs ih =>
    show ((d.call fl toml c).1.after fl toml cs).layers toml = _
    rw [ih, layers_call hround, written_cons]
    split <;> rfl

theorem mergedValue_layers (d : Disk) (host : Host) :
    mergedValue fl toml host (d.files host.home) = (d.layers toml).view fl host.home := by
  have hlayer : ∀ (val : Table String (Toml F)) (part : Option (Table String (Toml F))),
      mergeLayer val part = mergeValue val (part.getD ∅) := by
    intro val part
    cases part <;> rfl
  have hempty : ∀ val : Table String (Toml F), mergeValue val ∅ = val := fun _ => rfl
  unfold mergedValue Layers.view Disk.layers Disk.files
  cases host.home with
  | none =>
    simp only [Option.isSome_none, Bool.false_eq_true, if_false, List.foldl_cons, List.foldl_nil,
      hlayer, hempty]
  | some h =>
    simp only [Option.isSome_some, if_true, List.foldl_cons, List.foldl_nil, hlayer,
      Option.bind_some]

/-- After any calls by root and any users, with any of them failing, what anyone's
configuration loads as is read from the layers: what the calls that got to write left in
them, each in its own, over what the files held before. -/
theorem settings_follow_commands
    (hround : ∀ t text, toml.toStringPretty t = some text → toml.fromStr text = some t)
    (d : Disk) (cs : List Command) (host : Host) :
    Settings.load fl toml host ((d.after fl toml cs).files host.home) =
      (tryInto fl (((d.written fl toml cs).foldl (Layers.apply fl toml) (d.layers toml)).view fl
        host.home)).map (finish fl host.env) := by
  unfold Settings.load
  rw [mergedValue_layers, layers_after hround]

def Disk.text (d : Disk) : Option String → Option String
  | none => d.system
  | some h => d.users h

/-- A layer holds a value of the wrong type for a field, and no layer hides it. -/
def Disk.Broken (fl : F64 F) (toml : TomlText F) (d : Disk) (f : Field) (layer : Option String) :
    Prop :=
  (∃ v, layerAt (parsed toml (d.text layer)) f.name = some v ∧ f.kind.decode fl v = none) ∧
    (layer = none → ∀ h, layerAt (parsed toml (d.users h)) f.name = none)

/-- Whose configuration a layer is part of. -/
def Command.Reads (c : Command) (layer : Option String) : Prop := layer = none ∨ c.home = layer

theorem load_broken {f : Field} {layer : Option String} (hbad : d.Broken fl toml f layer)
    (hreads : c.Reads layer) : Settings.load fl toml c.toHost (d.files c.home) = none := by
  obtain ⟨⟨v, hv, hdecode⟩, hhidden⟩ := hbad
  have hlookup : (mergedValue fl toml c.toHost (d.files c.home)).lookup f.name = some v := by
    rw [lookup_mergedValue]
    cases layer with
    | none =>
      have huser : layerAt (userLayer toml c.toHost (d.files c.home)) f.name = none := by
        unfold userLayer Disk.files
        cases c.home with
        | none => rfl
        | some h => exact hhidden rfl h
      have hsystem : layerAt (parsed toml (d.files c.home).system) f.name = some v := hv
      rw [huser, hsystem]
      rfl
    | some h =>
      have hhome : c.home = some h := by simpa [Command.Reads] using hreads
      have huser : layerAt (userLayer toml c.toHost (d.files c.home)) f.name = some v := by
        unfold userLayer Disk.files
        rw [hhome]
        exact hv
      rw [huser]
      rfl
  by_contra hload
  obtain ⟨cfg, hcfg⟩ := Option.ne_none_iff_exists'.mp hload
  obtain ⟨raw, hraw, -⟩ := load_eq_some.mp hcfg
  have hfield := hraw f
  unfold decodeField at hfield
  rw [hlookup] at hfield
  simp [hdecode] at hfield

theorem users_put {h : String} {home : Option String} (hne : home ≠ some h) (d : Disk)
    (files : ConfigFiles) : (d.put home files).users h = d.users h := by
  cases home with
  | none => rfl
  | some h' => exact Function.update_of_ne (fun e => hne (by rw [e])) _ _

theorem text_call {f : Field} {layer : Option String} (hbad : d.Broken fl toml f layer)
    (c : Command) : (d.call fl toml c).1.text layer = d.text layer ∧
      (layer = none → (d.call fl toml c).1 = d) := by
  by_cases hreads : c.Reads layer
  · rw [call_unloaded (load_broken hbad hreads)]
    exact ⟨rfl, fun _ => rfl⟩
  · obtain ⟨hsome, hhome⟩ := not_or.mp hreads
    refine ⟨?_, fun h => absurd h hsome⟩
    cases layer with
    | none => exact absurd rfl hsome
    | some h => exact users_put hhome d _

theorem broken_call {f : Field} {layer : Option String} (hbad : d.Broken fl toml f layer)
    (c : Command) : (d.call fl toml c).1.Broken fl toml f layer := by
  obtain ⟨htext, hsame⟩ := text_call hbad c
  refine ⟨htext ▸ hbad.1, fun hlayer => ?_⟩
  rw [hsame hlayer]
  exact hbad.2 hlayer

/-- A layer with a value of the wrong type is there to stay: no calls by anyone, in
any order, change its file, and every call by those whose layer it is, `config set`
and `config reset` too, ends in the error of the load. -/
theorem broken_setting_stays {f : Field} {layer : Option String} (hbad : d.Broken fl toml f layer)
    (cs : List Command) :
    (d.after fl toml cs).text layer = d.text layer ∧
      ∀ c : Command, c.Reads layer →
        (d.after fl toml cs).call fl toml c = (d.after fl toml cs, .error (.config .load)) := by
  have hinv := Transaction.invariant
    (fun d' : Disk => d'.Broken fl toml f layer ∧ d'.text layer = d.text layer)
    (fun d' (c : Command) h => ⟨broken_call h.1 c, (text_call h.1 c).1.trans h.2⟩) ⟨hbad, rfl⟩ cs
  exact ⟨hinv.2, fun c hreads => call_unloaded (load_broken hinv.1 hreads)⟩

end

def plainCommand (op : ConfigOp) : Command := ⟨plainHost, op⟩

theorem settings_follow_commands_units :
    let cs := [⟨{ plainHost with write := .torn 3 }, .set "units" "decimal"⟩,
      plainCommand (.set "units" "decimal"), plainCommand (.reset false)]
    Settings.load exactF64 unitsText plainHost
        ((noFiles.after exactF64 unitsText cs).files plainHost.home) =
      (tryInto exactF64 (((noFiles.written exactF64 unitsText cs).foldl
        (Layers.apply exactF64 unitsText) (noFiles.layers unitsText)).view exactF64
          plainHost.home)).map (finish exactF64 plainHost.env) :=
  settings_follow_commands unitsText_round _ _ plainHost

theorem broken_setting_stays_units :
    let d : Disk := ⟨none, fun _ => some "units = 5\n"⟩
    let cs := [plainCommand (.reset true), plainCommand (.set "units" "decimal")]
    (d.after exactF64 unitsText cs).text (some "/home/a") = some "units = 5\n" ∧
      ∀ c : Command, c.Reads (some "/home/a") →
        (d.after exactF64 unitsText cs).call exactF64 unitsText c =
          (d.after exactF64 unitsText cs, .error (.config .load)) := by
  intro d cs
  have hbad : d.Broken exactF64 unitsText .units (some "/home/a") :=
    ⟨⟨.int 5, rfl, rfl⟩, fun h => by simp at h⟩
  exact broken_setting_stays hbad cs

end Netmeter
