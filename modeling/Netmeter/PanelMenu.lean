import Netmeter.Extension
import Netmeter.Fmtx
set_option autoImplicit false

/-!
`menu.js`: the rows of the popup menus for a model, and the builder that puts
them there and takes them out again. Texts are untranslated.
-/

namespace Netmeter

structure Stat where
  icon : Option String := none
  label : String
  value : String
  valueClass : String := "netmeter-value"
  indent : Bool := false
  deriving DecidableEq, Repr

inductive MenuItem where
  | separator (text : Option String)
  | stat (s : Stat)
  | row (text : String)
  | action (text : String) (visible : Bool)
  deriving DecidableEq, Repr

def splitValue (rx tx : ℤ) (decimal : Bool) : String :=
  "↓ " ++ formatBytes (some rx) decimal ++ "   ↑ " ++ formatBytes (some tx) decimal

def subtitleFor (model : Model) (units : String) : String :=
  if !model.installed then "netmeter not installed"
  else if !model.daemonActive then "daemon not running"
  else match model.day with
    | none => "no data yet"
    | some day => "Today " ++ formatBytes (some day.total) (units = "decimal")

def dayItems (model : Model) (decimal : Bool) : List MenuItem :=
  match model.day with
  | none => [.row "No data yet"]
  | some day =>
    [.separator (some "Today"),
      .stat { icon := some "go-down-symbolic", label := "Download",
              value := formatBytes (some day.rx) decimal },
      .stat { icon := some "go-up-symbolic", label := "Upload",
              value := formatBytes (some day.tx) decimal },
      .stat { label := "Total", value := formatBytes (some day.total) decimal,
              valueClass := "netmeter-total" }] ++
    if model.split then
      [.stat { label := "LAN", value := splitValue day.lanRx day.lanTx decimal, indent := true },
        .stat { label := "WAN", value := splitValue day.wanRx day.wanTx decimal, indent := true }]
    else [.row "  TOTAL-only (no LAN/WAN split)"]

def monthItems (model : Model) (decimal : Bool) : List MenuItem :=
  match model.month with
  | none => []
  | some month =>
    [.separator (some "This month"),
      .stat { label := "Total", value := formatBytes (some month.total) decimal,
              valueClass := "netmeter-total" }] ++
    if model.split then
      [.stat { label := "WAN", value := splitValue month.wanRx month.wanTx decimal,
               indent := true }]
    else []

def appItems (model : Model) (decimal : Bool) (limit : ℕ) : List MenuItem :=
  if model.topApps.isEmpty then []
  else .separator (some "Top apps · today") :: (model.topApps.take limit).map (fun app =>
    .stat { label := app.app, value := formatBytes (some app.total) decimal, indent := true })

def menuItems (model : Model) (units : String) (limit : ℕ) (allowSettings : Bool) :
    List MenuItem :=
  if !model.installed then [.row "netmeter not installed", .action "Preferences" true]
  else if !model.daemonActive then
    [.row "Daemon not running", .row "  sudo netmeter daemon install", .action "Preferences" true]
  else dayItems model (units = "decimal") ++ monthItems model (units = "decimal") ++
    appItems model (units = "decimal") limit ++
    [.separator none, .action "Preferences" allowSettings]

/-- The items of the popup menu, and those this builder added; the widgets are
told apart by number. -/
structure MenuBuilder where
  menu : List (ℕ × MenuItem) := []
  items : List ℕ := []
  made : ℕ := 0

namespace MenuBuilder

def clear (b : MenuBuilder) : MenuBuilder :=
  { b with menu := b.menu.filter (fun e => e.1 ∉ b.items), items := [] }

def add (b : MenuBuilder) (item : MenuItem) : MenuBuilder where
  menu := b.menu ++ [(b.made,item)]
  items := b.items ++ [b.made]
  made := b.made + 1

def shown (b : MenuBuilder) : List MenuItem := b.menu.map (·.2)

/-- The menu holds exactly the items that the next `clear` will destroy. -/
def Owned (b : MenuBuilder) : Prop := b.menu.map (·.1) = b.items

theorem owned_add {b : MenuBuilder} (h : b.Owned) (item : MenuItem) : (b.add item).Owned := by
  unfold Owned at h
  simp [Owned, add, h]

theorem shown_add (b : MenuBuilder) (item : MenuItem) :
    (b.add item).shown = b.shown ++ [item] := by
  simp [shown, add]

theorem owned_addAll {b : MenuBuilder} (h : b.Owned) (items : List MenuItem) :
    (items.foldl add b).Owned ∧ (items.foldl add b).shown = b.shown ++ items := by
  induction items generalizing b with
  | nil => exact ⟨h, (List.append_nil _).symm⟩
  | cons item items ih =>
    obtain ⟨howned, hshown⟩ := ih (owned_add h item)
    refine ⟨howned, ?_⟩
    rw [List.foldl_cons, hshown, shown_add, List.append_assoc]
    rfl

theorem clear_menu {b : MenuBuilder} (h : b.Owned) : b.clear.menu = [] := by
  refine List.filter_eq_nil_iff.mpr (fun e he => ?_)
  have hmem : e.1 ∈ b.items := by
    rw [← h]
    exact List.mem_map_of_mem he
  simpa using hmem

theorem owned_clear {b : MenuBuilder} (h : b.Owned) : b.clear.Owned := by
  unfold Owned
  rw [clear_menu h]
  rfl

end MenuBuilder

def fillFromModel (b : MenuBuilder) (model : Model) (units : String) (limit : ℕ)
    (allowSettings : Bool) : MenuBuilder :=
  (menuItems model units limit allowSettings).foldl MenuBuilder.add b.clear

theorem fillFromModel_shown {b : MenuBuilder} (h : b.Owned) (model : Model) (units : String)
    (limit : ℕ) (allowSettings : Bool) :
    (fillFromModel b model units limit allowSettings).Owned ∧
      (fillFromModel b model units limit allowSettings).shown =
        menuItems model units limit allowSettings := by
  obtain ⟨howned, hshown⟩ := MenuBuilder.owned_addAll (MenuBuilder.owned_clear h)
    (menuItems model units limit allowSettings)
  refine ⟨howned, ?_⟩
  have hclear : b.clear.shown = [] := by
    rw [MenuBuilder.shown, MenuBuilder.clear_menu h]
    rfl
  rw [fillFromModel, hshown, hclear, List.nil_append]

theorem menuItems_length (model : Model) (units : String) (limit : ℕ) (allowSettings : Bool) :
    (menuItems model units limit allowSettings).length ≤ 12 + limit := by
  have hday : ∀ decimal, (dayItems model decimal).length ≤ 6 := by
    intro decimal
    unfold dayItems
    cases model.day <;> cases model.split <;> simp
  have hmonth : ∀ decimal, (monthItems model decimal).length ≤ 3 := by
    intro decimal
    unfold monthItems
    cases model.month <;> cases model.split <;> simp
  have happs : ∀ decimal, (appItems model decimal limit).length ≤ 1 + limit := by
    intro decimal
    unfold appItems
    split
    · simp
    · simp only [List.length_cons, List.length_map, List.length_take]
      omega
  unfold menuItems
  split
  · simp
    omega
  · split
    · simp
      omega
    · have h1 := hday (units = "decimal")
      have h2 := hmonth (units = "decimal")
      have h3 := happs (units = "decimal")
      simp only [List.length_append, List.length_cons, List.length_nil]
      omega

end Netmeter
