import Mathlib.Data.List.Forall2
import PageObjects.Config.Check
import PageObjects.Proofs.Json.Path
import PageObjects.Proofs.Outcome
import PageObjects.Proofs.Lists

namespace PageObjects

/-- The kinds of values that options have. -/
inductive Form : Type → Type 1
  | truth : Form Bool
  | count : Form Count
  | choice {α : Type} (choices : List α) (name : α → Text) : Form α
  | strategies : Form (List Strategy)

/-- A strategy by its name. -/
abbrev checkStrategy : Check Strategy := checkChoice Strategy.preferred Strategy.name

namespace Form

/-- What is read from a JSON value. Of strategies that are repeated the first place counts. -/
def Accepts {α : Type} : Form α → Json → α → Prop
  | truth, v, b => checkTruth v = .ok b
  | count, v, n => checkCount v = .ok n
  | choice choices name, v, x => checkChoice choices name v = .ok x
  | strategies, v, order => ∃ items named, v = .list items ∧
      List.Forall₂ (fun item s => checkStrategy item = .ok s) items named ∧
      named.eraseDups = order

def write {α : Type} : Form α → α → Json
  | truth, b => .bool b
  | count, n => Json.nat n.val
  | choice _ name, x => .text (name x)
  | strategies, order => Json.texts (order.map Strategy.name)

/-- The reading of a field by its name. -/
def read {α : Type} (form : Form α) (fields : List (Text × Json)) (name : Text) (standard : α) :
    Checked α :=
  match form with
  | truth => readField checkTruth fields name standard
  | count => readField checkCount fields name standard
  | choice choices label => readField (checkChoice choices label) fields name standard
  | strategies => readStrategies fields name standard

/-- What is read where a value may be missing. -/
def Takes {α : Type} (form : Form α) (standard x : α) : Option Json → Prop
  | some v => form.Accepts v x
  | none => standard = x

variable {α : Type} {form : Form α} {v : Json} {x : α}

theorem not_isMapping (h : form.Accepts v x) : ¬ v.IsMapping := by
  rintro ⟨fields, rfl⟩
  cases form with
  | truth => cases h
  | count => cases h
  | choice choices name => cases h
  | strategies =>
    obtain ⟨items, named, list, -⟩ := h
    cases list

theorem checkCount_nat (n : Count) : checkCount (Json.nat n.val) = .ok n := by
  have bound : 1 ≤ ((n.val : Nat) : Int).toNat := n.property
  exact dif_pos bound

theorem checkChoice_eq_ok {choices : List α} {name : α → Text}
    (h : checkChoice choices name v = .ok x) : v = .text (name x) := by
  unfold checkChoice at h
  split at h
  next t =>
    split at h
    next c found =>
      obtain rfl := Except.ok.inj h
      have own : name c = t := by simpa using List.find?_some found
      rw [own]
    next => cases h
  next => cases h

theorem forall₂_checkStrategy_names (order : List Strategy) :
    List.Forall₂ (fun item s => checkStrategy item = .ok s)
      ((order.map Strategy.name).map Json.text) order := by
  induction order with
  | nil => exact .nil
  | cons s rest ih =>
    refine .cons ?_ ih
    cases s <;> decide +kernel

/-- What has been read is read again from the way in which it is written. -/
theorem accepts_write (h : form.Accepts v x) : form.Accepts (form.write x) x := by
  cases form with
  | truth => rfl
  | count => exact checkCount_nat x
  | choice choices name =>
    have written : v = .text (name x) := checkChoice_eq_ok h
    rwa [written] at h
  | strategies =>
    obtain ⟨items, named, rfl, read, rfl⟩ := h
    exact ⟨_, _, rfl, forall₂_checkStrategy_names _, eraseDups_of_nodup (nodup_eraseDups named)⟩

end Form

/-- An option of a section. -/
structure Setting where
  Value : Type
  form : Form Value
  name : Text
  get : Config → Value

/-- The value of an option in a configuration is what stands in its place, or its standard value. -/
def Setting.Takes (s : Setting) (standard c : Config) (given : Option Json) : Prop :=
  s.form.Takes (s.get standard) (s.get c) given

/-- A section with its options. -/
structure SettingGroup where
  name : Text
  settings : List Setting

namespace SettingGroup

def pages : SettingGroup := ⟨"page_detection", [
  ⟨Bool, .truth, "url_change_creates_new_page", fun c => c.pages.urlChangeOpensPage⟩,
  ⟨ModalHandling, .choice ModalHandling.all ModalHandling.name, "modal_detection",
    fun c => c.pages.modals⟩,
  ⟨Bool, .truth, "tab_switch_creates_new_page", fun c => c.pages.tabsOpenPages⟩,
  ⟨UrlThreshold, .choice UrlThreshold.all UrlThreshold.name, "url_change_threshold",
    fun c => c.pages.threshold⟩]⟩

def components : SettingGroup := ⟨"component_detection", [
  ⟨Count, .count, "min_appearances_for_component", fun c => c.components.minAppearances⟩,
  ⟨Bool, .truth, "detect_headers", fun c => c.components.headers⟩,
  ⟨Bool, .truth, "detect_footers", fun c => c.components.footers⟩,
  ⟨Bool, .truth, "detect_modals", fun c => c.components.modals⟩,
  ⟨Bool, .truth, "detect_navigation", fun c => c.components.navigation⟩]⟩

def methods : SettingGroup := ⟨"method_grouping", [
  ⟨Count, .count, "max_actions_per_method", fun c => c.methods.maxItems⟩,
  ⟨Bool, .truth, "group_related_fills", fun c => c.methods.groupFills⟩,
  ⟨Bool, .truth, "separate_navigation", fun c => c.methods.separateNavigation⟩,
  ⟨Bool, .truth, "separate_assertions", fun c => c.methods.separateAssertions⟩]⟩

def selectors : SettingGroup := ⟨"selector_analysis", [
  ⟨Bool, .truth, "suggest_improvements", fun c => c.selectors.suggests⟩,
  ⟨List Strategy, .strategies, "preferred_strategies", fun c => c.selectors.preferred⟩,
  ⟨Bool, .truth, "flag_fragile_selectors", fun c => c.selectors.flagsFragile⟩]⟩

/-- All sections. -/
def all : List SettingGroup := [pages, components, methods, selectors]

/-- A section is read where a mapping is given for it, if anything, and its options have the values
that are given for them, else their standard values. -/
structure Reads (g : SettingGroup) (standard c : Config) (given : List Text → Option Json) :
    Prop where
  mapping : ∀ v, given [g.name] = some v → v.IsMapping
  takes : ∀ s ∈ g.settings, s.Takes standard c (given [g.name, s.name])

end SettingGroup

namespace Checked

theorem and_eq_ok_iff {α β : Type} {f : Checked (α → β)} {x : Checked α} {y : β} :
    Checked.and f x = .ok y ↔ ∃ g a, f = .ok g ∧ x = .ok a ∧ g a = y := by
  cases f with
  | error issues => cases x <;> simp [Checked.and]
  | ok g => cases x <;> simp [Checked.and]

theorem within_eq_ok_iff {α : Type} {name : Text} {x : Checked α} {y : α} :
    Checked.within name x = .ok y ↔ x = .ok y := by
  cases x <;> simp [Checked.within]

theorem all_eq_ok_iff {α : Type} {checks : List (Checked α)} {values : List α} :
    Checked.all checks = .ok values ↔ List.Forall₂ (fun c x => c = .ok x) checks values := by
  induction checks generalizing values with
  | nil => simp [Checked.all, eq_comm]
  | cons c checks ih =>
    simp only [Checked.all, and_eq_ok_iff, ih, List.forall₂_cons_left_iff, Except.ok.injEq]
    constructor
    · rintro ⟨_, rest, ⟨_, x, rfl, first, rfl⟩, others, rfl⟩
      exact ⟨x, rest, first, others, rfl⟩
    · rintro ⟨x, rest, first, others, rfl⟩
      exact ⟨_, rest, ⟨_, x, rfl, first, rfl⟩, others, rfl⟩

end Checked

section Fields

variable {α : Type} {fields : List (Text × Json)} {name : Text}

theorem readField_eq_ok_iff {check : Check α} {standard x : α} :
    readField check fields name standard = .ok x ↔
      match valueAt? name fields with
      | some v => check v = .ok x
      | none => standard = x := by
  rw [readField]
  cases valueAt? name fields with
  | none => simp
  | some v =>
    dsimp only
    cases check v <;> simp

theorem forall₂_zipIdx_checkStrategy {items : List Json} {named : List Strategy} (k : Nat) :
    List.Forall₂ (fun c s => c = .ok s) ((items.zipIdx k).map fun (item, i) =>
        match checkStrategy item with
        | .ok s => (.ok s : Checked Strategy)
        | .error cause => .error [⟨[Text.ofNat i], cause⟩]) named ↔
      List.Forall₂ (fun item s => checkStrategy item = .ok s) items named := by
  induction items generalizing named k with
  | nil => simp
  | cons item items ih =>
    simp only [List.zipIdx_cons, List.map_cons, List.forall₂_cons_left_iff, ih]
    cases checkStrategy item <;> simp

theorem readStrategies_eq_ok_iff {standard order : List Strategy} :
    readStrategies fields name standard = .ok order ↔
      Form.strategies.Takes standard order (valueAt? name fields) := by
  unfold readStrategies
  cases valueAt? name fields with
  | none => simp [Form.Takes]
  | some v =>
    cases v with
    | list items =>
      simp only [Checked.within_eq_ok_iff, Form.Takes, Form.Accepts, Json.list.injEq]
      constructor
      · intro h
        obtain ⟨named, read, rfl⟩ := exists_ok_of_map h
        exact ⟨items, named, rfl,
          (forall₂_zipIdx_checkStrategy 0).mp (Checked.all_eq_ok_iff.mp read), rfl⟩
      · rintro ⟨_, named, rfl, read, rfl⟩
        exact congrArg (Except.map List.eraseDups)
          (Checked.all_eq_ok_iff.mpr ((forall₂_zipIdx_checkStrategy 0).mpr read))
    | _ => simp [Form.Takes, Form.Accepts]

theorem Form.read_eq_ok_iff {form : Form α} {standard x : α} :
    form.read fields name standard = .ok x ↔ form.Takes standard x (valueAt? name fields) := by
  cases form with
  | truth => exact readField_eq_ok_iff
  | count => exact readField_eq_ok_iff
  | choice choices label => exact readField_eq_ok_iff
  | strategies => exact readStrategies_eq_ok_iff

theorem Form.read_congr {form : Form α} {standard : α} {other : List (Text × Json)}
    (h : valueAt? name fields = valueAt? name other) :
    form.read fields name standard = form.read other name standard := by
  cases form with
  | strategies => rw [Form.read, Form.read, readStrategies, readStrategies, h]
  | _ => rw [Form.read, Form.read, readField, readField, h]

end Fields

/-- What makes something of a value for each of several settings. -/
def Making (σ : Type) : List Setting → Type
  | [] => σ
  | s :: rest => s.Value → Making σ rest

/-- A value for each of several settings. -/
def SettingValues : List Setting → Type
  | [] => Unit
  | s :: rest => s.Value × SettingValues rest

namespace SettingValues

/-- The values that settings have in a configuration. -/
def ofConfig (c : Config) : (settings : List Setting) → SettingValues settings
  | [] => ()
  | s :: rest => (s.get c, ofConfig c rest)

def make {σ : Type} : {settings : List Setting} → Making σ settings → SettingValues settings → σ
  | [], made, _ => made
  | _ :: _, made, (v, values) => make (made v) values

/-- Each value is what stands in the field of its setting, or the standard value. -/
def TakenFrom (standard : Config) (fields : List (Text × Json)) :
    (settings : List Setting) → SettingValues settings → Prop
  | [], _ => True
  | s :: rest, (v, values) =>
    s.form.Takes (s.get standard) v (valueAt? s.name fields) ∧
      TakenFrom standard fields rest values

theorem ofConfig_takenFrom_iff {standard c : Config} {fields : List (Text × Json)}
    {settings : List Setting} : TakenFrom standard fields settings (ofConfig c settings) ↔
      ∀ s ∈ settings, s.Takes standard c (valueAt? s.name fields) := by
  induction settings with
  | nil => exact iff_of_true trivial (List.forall_mem_nil _)
  | cons s rest ih => rw [List.forall_mem_cons, ← ih, ofConfig, TakenFrom, Setting.Takes]

end SettingValues

/-- The reading of settings, one after another, into what is made of their values. -/
def readSettings {σ : Type} (standard : Config) (fields : List (Text × Json)) :
    (settings : List Setting) → Checked (Making σ settings) → Checked σ
  | [], made => made
  | s :: rest, made =>
    readSettings standard fields rest
      (Checked.and made (s.form.read fields s.name (s.get standard)))

section Sections

variable {σ : Type} {standard c : Config} {fields other : List (Text × Json)}

theorem readSettings_eq_ok_iff {settings : List Setting} {made : Checked (Making σ settings)}
    {x : σ} : readSettings standard fields settings made = .ok x ↔ ∃ m values, made = .ok m ∧
      SettingValues.TakenFrom standard fields settings values ∧
      SettingValues.make m values = x := by
  induction settings with
  | nil =>
    constructor
    · intro h
      exact ⟨x, (), h, trivial, rfl⟩
    · rintro ⟨m, -, h, -, rfl⟩
      exact h
  | cons s rest ih =>
    rw [readSettings, ih]
    constructor
    · rintro ⟨m, values, h, taken, rfl⟩
      obtain ⟨g, v, first, read, rfl⟩ := Checked.and_eq_ok_iff.mp h
      exact ⟨g, (v, values), first, ⟨Form.read_eq_ok_iff.mp read, taken⟩, rfl⟩
    · rintro ⟨g, ⟨v, values⟩, first, ⟨read, taken⟩, rfl⟩
      exact ⟨g v, values,
        Checked.and_eq_ok_iff.mpr ⟨g, v, first, Form.read_eq_ok_iff.mpr read, rfl⟩, taken, rfl⟩

theorem readSettings_congr {settings : List Setting} {made : Checked (Making σ settings)}
    (h : ∀ s ∈ settings, valueAt? s.name fields = valueAt? s.name other) :
    readSettings standard fields settings made = readSettings standard other settings made := by
  induction settings with
  | nil => rfl
  | cons s rest ih =>
    obtain ⟨first, others⟩ := List.forall_mem_cons.mp h
    rw [readSettings, readSettings, Form.read_congr first, ih others]

/-- A section is read setting by setting, and what is read holds the values of the settings. -/
structure SectionReading (standard : Config) (g : SettingGroup)
    (read : List (Text × Json) → Checked σ) (part : Config → σ) (made : Making σ g.settings)
    (split : σ → SettingValues g.settings) : Prop where
  read_eq : ∀ fields, read fields = readSettings standard fields g.settings (.ok made)
  split_make : ∀ values, split (SettingValues.make made values) = values
  make_ofConfig : ∀ c, SettingValues.make made (.ofConfig c g.settings) = part c

namespace SectionReading

variable {g : SettingGroup} {read : List (Text × Json) → Checked σ} {part : Config → σ}
  {made : Making σ g.settings} {split : σ → SettingValues g.settings}

theorem eq_ok_iff (r : SectionReading standard g read part made split) :
    read fields = .ok (part c) ↔
      ∀ s ∈ g.settings, s.Takes standard c (valueAt? s.name fields) := by
  rw [r.read_eq, readSettings_eq_ok_iff, ← SettingValues.ofConfig_takenFrom_iff]
  constructor
  · rintro ⟨m, values, same, taken, whole⟩
    have own := congrArg split (whole.trans (r.make_ofConfig c).symm)
    rw [← Except.ok.inj same, r.split_make, r.split_make] at own
    rwa [← own]
  · intro taken
    exact ⟨made, _, rfl, taken, r.make_ofConfig c⟩

theorem congr (r : SectionReading standard g read part made split)
    (h : ∀ s ∈ g.settings, valueAt? s.name fields = valueAt? s.name other) :
    read fields = read other := by
  rw [r.read_eq, r.read_eq, readSettings_congr h]

theorem read_nil (r : SectionReading standard g read part made split) :
    read [] = .ok (part standard) :=
  r.eq_ok_iff.mpr fun _ _ => rfl

/-- A section is read as its options are; where it is missing, they have their standard values. -/
theorem readSection_eq_ok_iff (r : SectionReading standard g read part made split)
    {title : Text} :
    readSection read fields g.name title (part standard) = .ok (part c) ↔
      g.Reads standard c (Json.object fields).at? := by
  have place : (Json.object fields).at? [g.name] = valueAt? g.name fields :=
    Json.at?_singleton _ _
  have inside : ∀ name, (Json.object fields).at? [g.name, name] =
      (valueAt? g.name fields).bind fun inner => inner.at? [name] := fun _ => rfl
  rw [readSection]
  cases found : valueAt? g.name fields with
  | none =>
    rw [found] at place
    simp only [found, Option.bind_none] at inside
    rw [← r.read_nil, r.eq_ok_iff]
    constructor
    · intro h
      refine ⟨fun v hv => ?_, fun s hs => ?_⟩
      · rw [place] at hv
        cases hv
      · rw [inside]
        exact h s hs
    · intro h s hs
      have := h.takes s hs
      rwa [inside] at this
  | some v =>
    rw [found] at place
    simp only [found, Option.bind_some] at inside
    cases v with
    | object inner =>
      rw [Checked.within_eq_ok_iff, r.eq_ok_iff]
      constructor
      · intro h
        refine ⟨fun v hv => ?_, fun s hs => ?_⟩
        · rw [place] at hv
          exact ⟨inner, (Option.some.inj hv).symm⟩
        · rw [inside, Json.at?_singleton]
          exact h s hs
      · intro h s hs
        have := h.takes s hs
        rwa [inside, Json.at?_singleton] at this
    | _ =>
      constructor
      · intro h
        cases h
      · intro h
        obtain ⟨inner, same⟩ := h.mapping _ place
        cases same

end SectionReading

end Sections

namespace SettingGroup

theorem sectionReading_pages : SectionReading {} pages readPageOptions Config.pages PageOptions.mk
    fun o => (o.urlChangeOpensPage, o.modals, o.tabsOpenPages, o.threshold, ()) :=
  ⟨fun _ => rfl, fun _ => rfl, fun _ => rfl⟩

theorem sectionReading_components : SectionReading {} components readComponentOptions
    Config.components ComponentOptions.mk
    fun o => (o.minAppearances, o.headers, o.footers, o.modals, o.navigation, ()) :=
  ⟨fun _ => rfl, fun _ => rfl, fun _ => rfl⟩

theorem sectionReading_methods : SectionReading {} methods readMethodOptions Config.methods
    MethodOptions.mk
    fun o => (o.maxItems, o.groupFills, o.separateNavigation, o.separateAssertions, ()) :=
  ⟨fun _ => rfl, fun _ => rfl, fun _ => rfl⟩

theorem sectionReading_selectors : SectionReading {} selectors readSelectorOptions
    Config.selectors SelectorOptions.mk
    fun o => (o.suggests, o.preferred, o.flagsFragile, ()) :=
  ⟨fun _ => rfl, fun _ => rfl, fun _ => rfl⟩

end SettingGroup

namespace Config

/-- A mapping is read section by section, also an empty one. -/
theorem ofJson_object (fields : List (Text × Json)) : ofJson (.object fields) =
    ((((Checked.and (.ok Config.mk)
      (readSection readPageOptions fields SettingGroup.pages.name "PageDetectionConfig" {})).and
      (readSection readComponentOptions fields SettingGroup.components.name
        "ComponentDetectionConfig" {})).and
      (readSection readMethodOptions fields SettingGroup.methods.name
        "MethodGroupingConfig" {})).and
      (readSection readSelectorOptions fields SettingGroup.selectors.name
        "SelectorAnalysisConfig" {})) := by
  cases fields with
  | nil => rfl
  | cons field rest => rfl

theorem ofJson_object_eq_ok_iff {fields : List (Text × Json)} {c : Config} :
    ofJson (.object fields) = .ok c ↔
      ∀ g ∈ SettingGroup.all, g.Reads {} c (Json.object fields).at? := by
  have pages : readSection readPageOptions fields SettingGroup.pages.name
      "PageDetectionConfig" {} = .ok c.pages ↔
        SettingGroup.pages.Reads {} c (Json.object fields).at? :=
    SettingGroup.sectionReading_pages.readSection_eq_ok_iff
  have components : readSection readComponentOptions fields SettingGroup.components.name
      "ComponentDetectionConfig" {} = .ok c.components ↔
        SettingGroup.components.Reads {} c (Json.object fields).at? :=
    SettingGroup.sectionReading_components.readSection_eq_ok_iff
  have methods : readSection readMethodOptions fields SettingGroup.methods.name
      "MethodGroupingConfig" {} = .ok c.methods ↔
        SettingGroup.methods.Reads {} c (Json.object fields).at? :=
    SettingGroup.sectionReading_methods.readSection_eq_ok_iff
  have selectors : readSection readSelectorOptions fields SettingGroup.selectors.name
      "SelectorAnalysisConfig" {} = .ok c.selectors ↔
        SettingGroup.selectors.Reads {} c (Json.object fields).at? :=
    SettingGroup.sectionReading_selectors.readSection_eq_ok_iff
  rw [ofJson_object, SettingGroup.all]
  simp only [Checked.and_eq_ok_iff, Except.ok.injEq, List.forall_mem_cons, ← pages, ← components,
    ← methods, ← selectors]
  constructor
  · rintro ⟨_, _, ⟨_, _, ⟨_, _, ⟨_, _, rfl, h1, rfl⟩, h2, rfl⟩, h3, rfl⟩, h4, rfl⟩
    exact ⟨h1, h2, h3, h4, List.forall_mem_nil _⟩
  · rintro ⟨h1, h2, h3, h4, -⟩
    exact ⟨_, _, ⟨_, _, ⟨_, _, ⟨_, _, rfl, h1, rfl⟩, h2, rfl⟩, h3, rfl⟩, h4, rfl⟩

end Config

end PageObjects
