import Netmeter.PanelMenu
import Netmeter.Lib.Fallible
set_option autoImplicit false

/-!
`extension.js` in the shell: the calls of the shell, changes of the settings, the
timer and the replies of the CLI, in any order.
-/

namespace Netmeter
open Fallible

/-- The keys of the extension's schema, in their ranges. -/
structure Prefs where
  pollInterval : ℤ := 30
  binaryPath : String := "netmeter"
  units : String := "binary"
  appsLimit : ℕ := 5
  showPanelLabel : Bool := true
  valid : 5 ≤ pollInterval ∧ pollInterval ≤ 600 ∧ 1 ≤ appsLimit ∧ appsLimit ≤ 20 := by decide

inductive PrefChange where
  | pollInterval (seconds : ℤ) (valid : 5 ≤ seconds ∧ seconds ≤ 600)
  | binaryPath (path : String)
  | units (units : String)
  | appsLimit (limit : ℕ) (valid : 1 ≤ limit ∧ limit ≤ 20)
  | showPanelLabel (show_ : Bool)

def Prefs.change (p : Prefs) : PrefChange → Prefs
  | .pollInterval seconds valid =>
    { p with pollInterval := seconds, valid := ⟨valid.1, valid.2, p.valid.2.2⟩ }
  | .binaryPath path => { p with binaryPath := path }
  | .units units => { p with units := units }
  | .appsLimit limit valid =>
    { p with appsLimit := limit, valid := ⟨p.valid.1, p.valid.2.1, valid⟩ }
  | .showPanelLabel show_ => { p with showPanelLabel := show_ }

inductive Signal where
  | changed
  | changedShowPanelLabel
  deriving DecidableEq, Repr

def Signal.matches : Signal → PrefChange → Bool
  | .changed, _ => true
  | .changedShowPanelLabel, .showPanelLabel _ => true
  | .changedShowPanelLabel, _ => false

structure Toggle where
  subtitle : String := "…"
  builder : MenuBuilder := {}

structure Indicator where
  text : String := ""
  visible : Bool := false
  builder : MenuBuilder := {}

/-- The fields of the extension object; `null` is `none`, an id is 0 when unset. -/
structure Applet where
  settings : Option Unit := none
  model : Option Model := none
  tile : Option Toggle := none
  indicator : Option Indicator := none
  settingsChangedId : ℕ := 0
  panelLabelChangedId : ℕ := 0
  timeoutId : ℕ := 0

structure InFlight where
  binary : String
  units : String
  deriving DecidableEq, Repr

/-- The shell around the extension: the values behind the settings object, the
live timers with their interval, the connected handlers in order, and how many
tiles and indicators exist. -/
structure Shell where
  enabled : Bool := false
  applet : Applet := {}
  prefs : Prefs := {}
  sources : List (ℕ × ℤ) := []
  handlers : List (ℕ × Signal) := []
  tiles : ℕ := 0
  indicators : ℕ := 0
  polls : List InFlight := []
  nextId : ℕ := 1

inductive Thrown where
  | nullSettings
  | statusAreaConflict
  deriving DecidableEq, Repr

def removeSource (id : ℕ) (w : Shell) : Shell :=
  { w with sources := w.sources.filter (fun s => s.1 ≠ id) }

def clearTimer (w : Shell) : Shell :=
  if w.applet.timeoutId ≠ 0 then
    { removeSource w.applet.timeoutId w with applet := { w.applet with timeoutId := 0 } }
  else w

def startTimer (w : Shell) : Except Thrown Shell :=
  let w := clearTimer w
  match w.applet.settings with
  | none => .error .nullSettings
  | some _ =>
    .ok { w with
      sources := w.sources ++ [(w.nextId, max 5 w.prefs.pollInterval)]
      applet := { w.applet with timeoutId := w.nextId }
      nextId := w.nextId + 1 }

def startPoll (w : Shell) : Except Thrown Shell :=
  match w.applet.settings with
  | none => .error .nullSettings
  | some _ =>
    let binary := if w.prefs.binaryPath = "" then "netmeter" else w.prefs.binaryPath
    .ok { w with polls := w.polls ++ [⟨binary, w.prefs.units⟩] }

def labelText (model : Option Model) (decimal : Bool) : String :=
  match model with
  | none => ""
  | some m =>
    if m.installed && m.daemonActive then
      match m.day with
      | none => ""
      | some day => formatBytes (some day.total) decimal
    else ""

def Indicator.setPanelLabel (ind : Indicator) (text : String) (visible : Bool) : Indicator :=
  { ind with text := text, visible := visible && text ≠ "" }

def updatePanelLabel (w : Shell) : Except Thrown Shell :=
  match w.applet.indicator with
  | none => .ok w
  | some ind =>
    match w.applet.settings with
    | none => .error .nullSettings
    | some _ =>
      let text := labelText w.applet.model (w.prefs.units = "decimal")
      .ok { w with applet := { w.applet with
        indicator := some (ind.setPanelLabel text w.prefs.showPanelLabel) } }

def Toggle.update (t : Toggle) (model : Model) (units : String) (limit : ℕ)
    (allowSettings : Bool) : Toggle where
  subtitle := subtitleFor model units
  builder := fillFromModel t.builder model units limit allowSettings

def Indicator.update (ind : Indicator) (model : Model) (units : String) (limit : ℕ)
    (allowSettings : Bool) : Indicator :=
  { ind with builder := fillFromModel ind.builder model units limit allowSettings }

def finishPoll (p : InFlight) (model : Model) (allowSettings : Bool) (w : Shell) :
    Except Thrown Shell :=
  updatePanelLabel { w with applet := { w.applet with
    model := some model
    tile := w.applet.tile.map (fun t =>
      t.update model p.units w.prefs.appsLimit allowSettings)
    indicator := w.applet.indicator.map (fun ind =>
      ind.update model p.units w.prefs.appsLimit allowSettings) } }

def enable (w : Shell) : Except Thrown Shell :=
  let w := { w with
    applet := { w.applet with settings := some (), model := none, tile := some {} }
    tiles := w.tiles + 1 }
  -- the status area takes one indicator for the extension's uuid
  if w.indicators ≠ 0 then .error .statusAreaConflict
  else
    let w := { w with
      enabled := true
      applet := { w.applet with
        indicator := some {}
        settingsChangedId := w.nextId
        panelLabelChangedId := w.nextId + 1 }
      indicators := w.indicators + 1
      handlers := w.handlers ++ [(w.nextId, .changed), (w.nextId + 1, .changedShowPanelLabel)]
      nextId := w.nextId + 2 }
    (startTimer w).bind startPoll

def disconnect (id : ℕ) (w : Shell) : Except Thrown Shell :=
  match w.applet.settings with
  | none => .error .nullSettings
  | some _ => .ok { w with handlers := w.handlers.filter (fun h => h.1 ≠ id) }

def disconnectChanged (w : Shell) : Except Thrown Shell :=
  if w.applet.settingsChangedId ≠ 0 then
    (disconnect w.applet.settingsChangedId w).map (fun w =>
      { w with applet := { w.applet with settingsChangedId := 0 } })
  else .ok w

def disconnectPanelLabel (w : Shell) : Except Thrown Shell :=
  if w.applet.panelLabelChangedId ≠ 0 then
    (disconnect w.applet.panelLabelChangedId w).map (fun w =>
      { w with applet := { w.applet with panelLabelChangedId := 0 } })
  else .ok w

def destroyWidgets (w : Shell) : Shell :=
  { w with
    enabled := false
    indicators := if w.applet.indicator.isSome then w.indicators - 1 else w.indicators
    tiles := if w.applet.tile.isSome then w.tiles - 1 else w.tiles
    applet := { w.applet with indicator := none, tile := none, settings := none, model := none } }

def disable (w : Shell) : Except Thrown Shell :=
  ((disconnectChanged (clearTimer w)).bind disconnectPanelLabel).map destroyWidgets

def runHandler (w : Shell) : Signal → Except Thrown Shell
  | .changed => startTimer w
  | .changedShowPanelLabel => updatePanelLabel w

/-- What the shell, the user, the main loop and the CLI do. A reply is one of a
poll in flight: what `buildModel` made of it. -/
inductive ShellEvent where
  | enable
  | disable
  | set (c : PrefChange)
  | timeout (id : ℕ)
  | reply (i : ℕ) (model : Model) (allowSettings : Bool)

def Shell.step (w : Shell) : ShellEvent → Except Thrown Shell
  | .enable => Netmeter.enable w
  | .disable => Netmeter.disable w
  | .set c =>
    ((w.handlers.map (·.2)).filter (fun s => s.matches c)).foldlM runHandler
      { w with prefs := w.prefs.change c }
  | .timeout _ => startPoll w
  | .reply i model allowSettings =>
    match w.polls[i]? with
    | none => .ok w
    | some p => finishPoll p model allowSettings { w with polls := w.polls.eraseIdx i }

/-- The shell enables and disables in turn, a timer fires while it is live, and a
reply is to a poll in flight. -/
def Shell.Admits (w : Shell) : ShellEvent → Prop
  | .enable => w.enabled = false
  | .disable => w.enabled = true
  | .set _ => True
  | .timeout id => ∃ seconds, (id,seconds) ∈ w.sources
  | .reply i _ _ => i < w.polls.length

/-- One timer, two handlers and two widgets, all known to the extension. -/
structure Shell.Wired (w : Shell) (interval : ℤ) : Prop where
  settings : w.applet.settings = some ()
  sources : w.sources = [(w.applet.timeoutId, interval)]
  timeoutId : w.applet.timeoutId ≠ 0
  handlers : w.handlers = [(w.applet.settingsChangedId, .changed),
    (w.applet.panelLabelChangedId, .changedShowPanelLabel)]
  handlerIds : 0 < w.applet.settingsChangedId ∧
    w.applet.settingsChangedId < w.applet.panelLabelChangedId
  widgets : w.tiles = 1 ∧ w.indicators = 1
  nextId : 0 < w.nextId

/-- The tile and the panel button show the model, in the same menu. -/
structure Shows (model : Option Model) (t : Toggle) (ind : Indicator) : Prop where
  owned : t.builder.Owned ∧ ind.builder.Owned
  same : ind.builder.shown = t.builder.shown
  fresh : model = none → t.subtitle = "…" ∧ t.builder.shown = []
  menu : ∀ m, model = some m → ∃ units limit allowSettings, limit ≤ 20 ∧
    t.subtitle = subtitleFor m units ∧ t.builder.shown = menuItems m units limit allowSettings
  label : ∃ decimal, ind.text = labelText model decimal

/-- The label is hidden where it is empty or switched off. -/
structure Shell.Views (w : Shell) (label : Bool) : Prop where
  shows : ∃ t ind, w.applet.tile = some t ∧ w.applet.indicator = some ind ∧
    Shows w.applet.model t ind ∧ ind.visible = (label && ind.text ≠ "")

structure Shell.Stopped (w : Shell) : Prop where
  settings : w.applet.settings = none
  views : w.applet.tile = none ∧ w.applet.indicator = none
  ids : w.applet.timeoutId = 0 ∧ w.applet.settingsChangedId = 0 ∧ w.applet.panelLabelChangedId = 0
  sources : w.sources = []
  handlers : w.handlers = []
  widgets : w.tiles = 0 ∧ w.indicators = 0
  nextId : 0 < w.nextId

def Shell.Tidy (w : Shell) : Prop :=
  (w.enabled = true → w.Wired (max 5 w.prefs.pollInterval) ∧ w.Views w.prefs.showPanelLabel) ∧
    (w.enabled = false → w.Stopped)

theorem tidy_init : Shell.Tidy {} where
  left h := by simp at h
  right _ := by constructor <;> simp

variable {w : Shell} {interval : ℤ} {label : Bool}

theorem startTimer_eq (h : w.Wired interval) : startTimer w = .ok { w with
    sources := [(w.nextId, max 5 w.prefs.pollInterval)]
    applet := { w.applet with timeoutId := w.nextId }
    nextId := w.nextId + 1 } := by
  simp [startTimer, clearTimer, removeSource, h.settings, h.sources, h.timeoutId]

theorem startTimer_wired (h : w.Wired interval) (hv : w.Views label) :
    ∃ w', startTimer w = .ok w' ∧ w'.Wired (max 5 w.prefs.pollInterval) ∧ w'.Views label ∧
      w'.enabled = w.enabled ∧ w'.prefs = w.prefs ∧ w'.applet.model = w.applet.model := by
  refine ⟨_, startTimer_eq h, ?_, ⟨hv.shows⟩, rfl, rfl, rfl⟩
  have hnext := h.nextId
  exact ⟨h.settings, rfl, hnext.ne', h.handlers, h.handlerIds, h.widgets, Nat.succ_pos _⟩

theorem startPoll_ok (h : w.applet.settings = some ()) :
    ∃ polls, startPoll w = .ok { w with polls := polls } := by
  unfold startPoll
  rw [h]
  exact ⟨_, rfl⟩

theorem updatePanelLabel_eq {ind : Indicator} (hind : w.applet.indicator = some ind)
    (h : w.applet.settings = some ()) : updatePanelLabel w = .ok { w with
      applet := { w.applet with indicator := some (ind.setPanelLabel
        (labelText w.applet.model (w.prefs.units = "decimal")) w.prefs.showPanelLabel) } } := by
  simp [updatePanelLabel, hind, h]

theorem updatePanelLabel_wired (h : w.Wired interval) (hv : w.Views label) :
    ∃ w', updatePanelLabel w = .ok w' ∧ w'.Wired interval ∧ w'.Views w.prefs.showPanelLabel ∧
      w'.enabled = w.enabled ∧ w'.prefs = w.prefs ∧ w'.applet.model = w.applet.model := by
  obtain ⟨t, ind, htile, hind, hshows, -⟩ := hv.shows
  refine ⟨_, updatePanelLabel_eq hind h.settings,
    ⟨h.settings, h.sources, h.timeoutId, h.handlers, h.handlerIds, h.widgets, h.nextId⟩,
    ⟨t, _, htile, rfl, ?_, rfl⟩, rfl, rfl, rfl⟩
  exact ⟨hshows.owned, hshows.same, hshows.fresh, hshows.menu, ⟨_, rfl⟩⟩

theorem shows_update {model : Option Model} {t : Toggle} {ind : Indicator}
    (h : Shows model t ind) (m : Model) (units : String) {limit : ℕ} (hlimit : limit ≤ 20)
    (allowSettings decimal label : Bool) :
    Shows (some m) (t.update m units limit allowSettings)
      ((ind.update m units limit allowSettings).setPanelLabel (labelText (some m) decimal)
        label) := by
  obtain ⟨howned, hshown⟩ := fillFromModel_shown h.owned.1 m units limit allowSettings
  obtain ⟨howned', hshown'⟩ := fillFromModel_shown h.owned.2 m units limit allowSettings
  constructor
  · exact ⟨howned, howned'⟩
  · exact hshown'.trans hshown.symm
  · intro hnone
    simp at hnone
  · intro m' hm'
    obtain rfl := Option.some.inj hm'
    exact ⟨units, limit, allowSettings, hlimit, rfl, hshown⟩
  · exact ⟨decimal, rfl⟩

theorem finishPoll_wired (h : w.Wired interval) (hv : w.Views label) (p : InFlight) (m : Model)
    (allowSettings : Bool) :
    ∃ w', finishPoll p m allowSettings w = .ok w' ∧ w'.Wired interval ∧
      w'.Views w.prefs.showPanelLabel ∧ w'.enabled = w.enabled ∧ w'.prefs = w.prefs ∧
      w'.applet.model = some m := by
  obtain ⟨t, ind, htile, hind, hshows, -⟩ := hv.shows
  have hlimit := w.prefs.valid.2.2.2
  unfold finishPoll
  rw [htile, hind, Option.map_some, Option.map_some]
  let shown : Shell := { w with
    applet := { w.applet with
      model := some m
      tile := some (t.update m p.units w.prefs.appsLimit allowSettings)
      indicator := some (ind.update m p.units w.prefs.appsLimit allowSettings) } }
  have hlabel : updatePanelLabel shown = .ok _ := updatePanelLabel_eq rfl h.settings
  refine ⟨_, hlabel, ⟨h.settings, h.sources, h.timeoutId, h.handlers, h.handlerIds, h.widgets,
    h.nextId⟩, ⟨_, _, rfl, rfl, ?_, rfl⟩, rfl, rfl, rfl⟩
  exact shows_update hshows m p.units hlimit allowSettings _ _

theorem finishPoll_stopped (h : w.Stopped) (p : InFlight) (m : Model) (allowSettings : Bool) :
    finishPoll p m allowSettings w =
      .ok { w with applet := { w.applet with model := some m } } := by
  obtain ⟨htile, hind⟩ := h.views
  simp [finishPoll, updatePanelLabel, htile, hind]

theorem enable_tidy (h : w.Stopped) : ∃ w', enable w = .ok w' ∧ w'.enabled = true ∧
    w'.Wired (max 5 w'.prefs.pollInterval) ∧ w'.Views w'.prefs.showPanelLabel ∧
    w'.applet.model = none := by
  obtain ⟨htiles, hindicators⟩ := h.widgets
  obtain ⟨htimeout, -, -⟩ := h.ids
  have hnext := h.nextId
  have hrun : enable w = .ok { w with
      enabled := true
      applet := { w.applet with
        settings := some ()
        model := none
        tile := some {}
        indicator := some {}
        settingsChangedId := w.nextId
        panelLabelChangedId := w.nextId + 1
        timeoutId := w.nextId + 2 }
      sources := [(w.nextId + 2, max 5 w.prefs.pollInterval)]
      handlers := [(w.nextId, .changed), (w.nextId + 1, .changedShowPanelLabel)]
      tiles := 1
      indicators := 1
      polls := w.polls ++ [⟨if w.prefs.binaryPath = "" then "netmeter" else w.prefs.binaryPath,
        w.prefs.units⟩]
      nextId := w.nextId + 3 } := by
    simp [enable, startTimer, clearTimer, startPoll, htimeout, h.sources, h.handlers, htiles,
      hindicators, Except.bind]
  refine ⟨_, hrun, rfl, ?_, ⟨{}, {}, rfl, rfl, ?_, by simp⟩, rfl⟩
  · exact ⟨rfl, rfl, by simp, rfl, ⟨hnext, Nat.lt_succ_self _⟩, ⟨rfl, rfl⟩, by simp⟩
  · exact ⟨⟨rfl, rfl⟩, rfl, fun _ => ⟨rfl, rfl⟩, fun m hm => by simp at hm, ⟨false, rfl⟩⟩

theorem disable_tidy (h : w.Wired interval) (hv : w.Views label) :
    ∃ w', disable w = .ok w' ∧ w'.enabled = false ∧ w'.Stopped ∧ w'.applet.model = none := by
  obtain ⟨t, ind, htile, hind, -⟩ := hv.shows
  obtain ⟨htiles, hindicators⟩ := h.widgets
  obtain ⟨hpos, hlt⟩ := h.handlerIds
  have hpos' : w.applet.panelLabelChangedId ≠ 0 := by omega
  have hne : w.applet.panelLabelChangedId ≠ w.applet.settingsChangedId := by omega
  have hrun : disable w = .ok { w with
      enabled := false
      applet := {}
      sources := []
      handlers := []
      tiles := 0
      indicators := 0 } := by
    simp [disable, clearTimer, removeSource, disconnectChanged, disconnectPanelLabel, disconnect,
      destroyWidgets, h.settings, h.sources, h.timeoutId, h.handlers, hpos.ne', hpos', hne, htile,
      hind, htiles, hindicators, Except.bind, Except.map]
  refine ⟨_, hrun, rfl, ?_, rfl⟩
  exact ⟨rfl, ⟨rfl, rfl⟩, ⟨rfl, rfl, rfl⟩, rfl, rfl, ⟨rfl, rfl⟩, h.nextId⟩

theorem set_tidy (h : w.Wired interval) (hv : w.Views w.prefs.showPanelLabel) (c : PrefChange) :
    ∃ w', w.step (.set c) = .ok w' ∧ w'.enabled = w.enabled ∧
      w'.Wired (max 5 w'.prefs.pollInterval) ∧ w'.Views w'.prefs.showPanelLabel ∧
      w'.applet.model = w.applet.model := by
  have hwired : Shell.Wired { w with prefs := w.prefs.change c } interval :=
    ⟨h.settings, h.sources, h.timeoutId, h.handlers, h.handlerIds, h.widgets, h.nextId⟩
  have hviews : Shell.Views { w with prefs := w.prefs.change c } w.prefs.showPanelLabel :=
    ⟨hv.shows⟩
  obtain ⟨w₁, hrun, hw₁, hv₁, henabled, hprefs, hmodel⟩ := startTimer_wired hwired hviews
  rw [← hprefs] at hw₁
  have hkeep : ∀ l : List Signal, [Signal.changed, .changedShowPanelLabel].filter
      (fun s => s.matches c) = .changed :: l →
      w.step (.set c) = l.foldlM runHandler w₁ := by
    intro l hl
    have hsignals : (w.handlers.map (·.2)).filter (fun s => s.matches c) = .changed :: l := by
      rw [h.handlers]
      exact hl
    show ((w.handlers.map (·.2)).filter (fun s => s.matches c)).foldlM runHandler _ = _
    rw [hsignals, List.foldlM_cons]
    show (startTimer _).bind _ = _
    rw [hrun]
    rfl
  cases c with
  | showPanelLabel show_ =>
    -- both handlers run, the timer's first
    obtain ⟨w₂, hrun₂, hw₂, hv₂, henabled₂, hprefs₂, hmodel₂⟩ := updatePanelLabel_wired hw₁ hv₁
    refine ⟨w₂, ?_, henabled₂.trans henabled, hprefs₂ ▸ hw₂, hprefs₂ ▸ hv₂,
      hmodel₂.trans hmodel⟩
    rw [hkeep [.changedShowPanelLabel] rfl, List.foldlM_cons]
    show (updatePanelLabel w₁).bind _ = _
    rw [hrun₂]
    rfl
  | pollInterval seconds valid =>
    exact ⟨w₁, hkeep [] rfl, henabled, hw₁, by rw [hprefs]; exact hv₁, hmodel⟩
  | binaryPath path =>
    exact ⟨w₁, hkeep [] rfl, henabled, hw₁, by rw [hprefs]; exact hv₁, hmodel⟩
  | units units =>
    exact ⟨w₁, hkeep [] rfl, henabled, hw₁, by rw [hprefs]; exact hv₁, hmodel⟩
  | appsLimit limit valid =>
    exact ⟨w₁, hkeep [] rfl, henabled, hw₁, by rw [hprefs]; exact hv₁, hmodel⟩

/-- The model of the last reply since the extension was last enabled or disabled. -/
def modelAfter (m : Option Model) : ShellEvent → Option Model
  | .enable => none
  | .disable => none
  | .reply _ model _ => some model
  | .set _ => m
  | .timeout _ => m

theorem tidy_of_running {w : Shell} (he : w.enabled = true)
    (h : w.Wired (max 5 w.prefs.pollInterval)) (hv : w.Views w.prefs.showPanelLabel) : w.Tidy :=
  ⟨fun _ => ⟨h, hv⟩, fun hoff => by simp [he] at hoff⟩

theorem tidy_of_stopped {w : Shell} (he : w.enabled = false) (h : w.Stopped) : w.Tidy :=
  ⟨fun hon => by simp [he] at hon, fun _ => h⟩

theorem step_reply {i : ℕ} (h : i < w.polls.length) (model : Model) (allowSettings : Bool) :
    w.step (.reply i model allowSettings) =
      finishPoll w.polls[i] model allowSettings { w with polls := w.polls.eraseIdx i } := by
  simp [Shell.step, h]

theorem step_tidy {e : ShellEvent} (h : w.Tidy) (he : w.Admits e) :
    ∃ w', w.step e = .ok w' ∧ w'.Tidy ∧ w'.applet.model = modelAfter w.applet.model e := by
  cases hon : w.enabled with
  | true =>
    obtain ⟨hw, hv⟩ := h.1 hon
    cases e with
    | enable => exact absurd (hon.symm.trans he) (by simp)
    | disable =>
      obtain ⟨w', hrun, hoff, hstopped, hmodel⟩ := disable_tidy hw hv
      exact ⟨w', hrun, tidy_of_stopped hoff hstopped, hmodel⟩
    | set c =>
      obtain ⟨w', hrun, henabled, hw', hv', hmodel⟩ := set_tidy hw hv c
      exact ⟨w', hrun, tidy_of_running (henabled.trans hon) hw' hv', hmodel⟩
    | timeout id =>
      obtain ⟨polls, hrun⟩ := startPoll_ok hw.settings
      refine ⟨_, hrun, tidy_of_running hon ?_ ⟨hv.shows⟩, rfl⟩
      exact ⟨hw.settings, hw.sources, hw.timeoutId, hw.handlers, hw.handlerIds, hw.widgets,
        hw.nextId⟩
    | reply i model allowSettings =>
      have hwired : Shell.Wired { w with polls := w.polls.eraseIdx i }
          (max 5 w.prefs.pollInterval) :=
        ⟨hw.settings, hw.sources, hw.timeoutId, hw.handlers, hw.handlerIds, hw.widgets, hw.nextId⟩
      have hviews : Shell.Views { w with polls := w.polls.eraseIdx i } w.prefs.showPanelLabel :=
        ⟨hv.shows⟩
      obtain ⟨w', hrun, hw', hv', henabled, hprefs, hmodel⟩ :=
        finishPoll_wired hwired hviews w.polls[i] model allowSettings
      refine ⟨w', ?_, tidy_of_running (henabled.trans hon) (hprefs ▸ hw') (hprefs ▸ hv'), hmodel⟩
      rw [step_reply he]
      exact hrun
  | false =>
    have hs := h.2 hon
    cases e with
    | enable =>
      obtain ⟨w', hrun, henabled, hw', hv', hmodel⟩ := enable_tidy hs
      exact ⟨w', hrun, tidy_of_running henabled hw' hv', hmodel⟩
    | disable => exact absurd (hon.symm.trans he) (by simp)
    | set c =>
      refine ⟨{ w with prefs := w.prefs.change c }, by simp [Shell.step, hs.handlers]; rfl,
        tidy_of_stopped hon ?_, rfl⟩
      exact ⟨hs.settings, hs.views, hs.ids, hs.sources, hs.handlers, hs.widgets, hs.nextId⟩
    | timeout id =>
      obtain ⟨seconds, hmem⟩ := he
      simp [hs.sources] at hmem
    | reply i model allowSettings =>
      have hstopped : Shell.Stopped { w with polls := w.polls.eraseIdx i } :=
        ⟨hs.settings, hs.views, hs.ids, hs.sources, hs.handlers, hs.widgets, hs.nextId⟩
      refine ⟨_, (step_reply he model allowSettings).trans
        (finishPoll_stopped hstopped w.polls[i] model allowSettings), tidy_of_stopped hon ?_, rfl⟩
      exact ⟨hs.settings, hs.views, hs.ids, hs.sources, hs.handlers, hs.widgets, hs.nextId⟩

theorem tidy_run {es : List ShellEvent} (h : Along Shell.step Shell.Admits {} es) :
    ∃ w, es.foldlM Shell.step {} = .ok w ∧ w.Tidy ∧
      w.applet.model = es.foldl modelAfter none := by
  refine along_invariant modelAfter (fun m (w : Shell) => w.Tidy ∧ w.applet.model = m)
    (fun m w e hw he => ?_) ⟨tidy_init, rfl⟩ h
  obtain ⟨w', hrun, htidy, hmodel⟩ := step_tidy hw.1 he
  exact ⟨w', hrun, htidy, by rw [hmodel, hw.2]⟩

/-- However the shell's calls, the timer and the replies interleave, nothing is
thrown, and timers, handlers and widgets are there exactly while it is enabled. -/
theorem applet_never_throws (es : List ShellEvent)
    (h : Along Shell.step Shell.Admits {} es) :
    ∃ w, es.foldlM Shell.step {} = .ok w ∧
      w.sources.map (·.2) = (if w.enabled then [max 5 w.prefs.pollInterval] else []) ∧
      w.handlers.map (·.2) =
        (if w.enabled then [.changed, .changedShowPanelLabel] else []) ∧
      w.tiles = (if w.enabled then 1 else 0) ∧ w.indicators = (if w.enabled then 1 else 0) ∧
      w.applet.tile.isSome = w.enabled ∧ w.applet.indicator.isSome = w.enabled := by
  obtain ⟨w, hrun, htidy, -⟩ := tidy_run h
  refine ⟨w, hrun, ?_⟩
  cases hon : w.enabled with
  | true =>
    obtain ⟨hw, hv⟩ := htidy.1 hon
    obtain ⟨t, ind, htile, hind, -⟩ := hv.shows
    simp [hw.sources, hw.handlers, hw.widgets, htile, hind]
  | false =>
    have hs := htidy.2 hon
    simp [hs.sources, hs.handlers, hs.widgets, hs.views]

def kibModel : Model where
  installed := true
  daemonActive := true
  split := false
  version := none
  day := some { total := 1024 }
  month := none
  topApps := []

def switchedRun : List ShellEvent :=
  [.enable, .timeout 3, .set (.units "decimal"), .disable, .reply 0 kibModel true, .enable,
    .reply 0 kibModel true]

theorem switchedRun_along : Along Shell.step Shell.Admits {} switchedRun :=
  along_cons rfl rfl <| along_cons rfl ⟨30, List.mem_singleton.mpr rfl⟩ <|
    along_cons rfl trivial <| along_cons rfl rfl <| along_cons rfl Nat.zero_lt_two <|
      along_cons rfl rfl <| along_cons rfl Nat.zero_lt_two trivial

theorem applet_never_throws_switched :
    ∃ w, switchedRun.foldlM Shell.step {} = .ok w ∧
      w.sources.map (·.2) = (if w.enabled then [max 5 w.prefs.pollInterval] else []) := by
  obtain ⟨w, hrun, hsources, -⟩ := applet_never_throws switchedRun switchedRun_along
  exact ⟨w, hrun, hsources⟩

/-- While it is enabled, the tile and the panel button show one menu, that of the
last reply, without leftovers of earlier ones; the label shows the same model. -/
theorem applet_views_agree (es : List ShellEvent) (h : Along Shell.step Shell.Admits {} es) :
    ∃ w, es.foldlM Shell.step {} = .ok w ∧ (w.enabled = true →
      ∃ t ind, w.applet.tile = some t ∧ w.applet.indicator = some ind ∧
        Shows (es.foldl modelAfter none) t ind ∧ t.builder.shown.length ≤ 32 ∧
        ind.visible = (w.prefs.showPanelLabel && ind.text ≠ "")) := by
  obtain ⟨w, hrun, htidy, hmodel⟩ := tidy_run h
  refine ⟨w, hrun, fun hon => ?_⟩
  obtain ⟨t, ind, htile, hind, hshows, hvisible⟩ := (htidy.1 hon).2.shows
  refine ⟨t, ind, htile, hind, hmodel ▸ hshows, ?_, hvisible⟩
  cases hm : w.applet.model with
  | none =>
    rw [(hshows.fresh hm).2]
    simp
  | some m =>
    obtain ⟨units, limit, allowSettings, hlimit, -, hmenu⟩ := hshows.menu m hm
    have hlength := menuItems_length m units limit allowSettings
    rw [hmenu]
    omega

/-- The reply to a poll of before it was switched off is shown after it is back on. -/
theorem applet_views_agree_switched :
    ∃ w t ind, switchedRun.foldlM Shell.step {} = .ok w ∧ w.applet.tile = some t ∧
      w.applet.indicator = some ind ∧ Shows (some kibModel) t ind := by
  obtain ⟨w, hrun, hviews⟩ := applet_views_agree switchedRun switchedRun_along
  have hon : (switchedRun.foldlM Shell.step {}).map (·.enabled) = .ok true := rfl
  rw [hrun] at hon
  obtain ⟨t, ind, htile, hind, hshows, -⟩ := hviews (Except.ok.inj hon)
  exact ⟨w, t, ind, hrun, htile, hind, hshows⟩

end Netmeter
