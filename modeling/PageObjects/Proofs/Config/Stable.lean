import PageObjects.Proofs.Config.Setting
import PageObjects.Proofs.Entries

namespace PageObjects

/-- What has been accepted for an option, and its standard value, is accepted in its written form. -/
theorem Form.Takes.accepts_write {α : Type} {form : Form α} {standard x : α} {given : Option Json}
    (h : form.Takes standard x given) (own : form.Accepts (form.write standard) standard) :
    form.Accepts (form.write x) x := by
  cases given with
  | none =>
    obtain rfl : standard = x := h
    exact own
  | some v => exact Form.accepts_write h

theorem Form.Takes.nodup {standard order : List Strategy} {given : Option Json}
    (h : Form.strategies.Takes standard order given) (own : standard.Nodup) : order.Nodup := by
  cases given with
  | none =>
    obtain rfl : standard = order := h
    exact own
  | some v =>
    obtain ⟨items, named, -, -, rfl⟩ := h
    exact nodup_eraseDups named

/-- A count is accepted where a whole number of at least one is read. -/
theorem checkCount_eq_ok_iff {v : Json} {n : Count} :
    checkCount v = .ok n ↔ checkWhole v = .ok (n.val : Int) := by
  have least : 1 ≤ n.val := n.property
  rw [checkCount]
  cases checkWhole v with
  | error cause => exact iff_of_false nofun nofun
  | ok m =>
    have bound : (if h : 1 ≤ m.toNat then .ok ⟨m.toNat, h⟩ else .error .belowOne :
        Except IssueCause Count) = .ok n ↔ m = n.val := by
      split
      next h =>
        rw [Except.ok.injEq, Subtype.ext_iff]
        dsimp only
        omega
      next h => exact iff_of_false nofun (by omega)
    rw [Except.ok.injEq]
    exact bound

theorem Strategy.name_injective : Function.Injective Strategy.name := by
  intro s other
  cases s <;> cases other <;> decide

/-- Strategies are accepted as a list of their names. -/
theorem map_name_of_forall₂_checkStrategy {items : List Json} {named : List Strategy}
    (h : List.Forall₂ (fun item s => checkStrategy item = .ok s) items named) :
    items = (named.map Strategy.name).map Json.text := by
  induction h with
  | nil => rfl
  | cons first _ ih => rw [List.map_cons, List.map_cons, ← ih, ← Form.checkChoice_eq_ok first]

namespace SettingGroup

/-- Every standard value passes the check of its own option. -/
theorem accepts_standard {g : SettingGroup} (hg : g ∈ all) {s : Setting} (hs : s ∈ g.settings) :
    s.form.Accepts (s.form.write (s.get {})) (s.get {}) := by
  have order : Form.strategies.Accepts (Form.strategies.write Strategy.preferred)
      Strategy.preferred :=
    ⟨_, _, rfl, Form.forall₂_checkStrategy_names _, by decide⟩
  revert s
  simp only [all, List.mem_cons, List.not_mem_nil, or_false] at hg
  rcases hg with rfl | rfl | rfl | rfl
  · unfold pages
    simp only [List.forall_mem_cons]
    exact ⟨rfl, rfl, rfl, rfl, List.forall_mem_nil _⟩
  · unfold components
    simp only [List.forall_mem_cons]
    exact ⟨rfl, rfl, rfl, rfl, rfl, List.forall_mem_nil _⟩
  · unfold methods
    simp only [List.forall_mem_cons]
    exact ⟨rfl, rfl, rfl, rfl, List.forall_mem_nil _⟩
  · unfold selectors
    simp only [List.forall_mem_cons]
    exact ⟨rfl, order, rfl, List.forall_mem_nil _⟩

/-- Every option is written in its place. -/
theorem toJson_at? {g : SettingGroup} (hg : g ∈ all) (c : Config) :
    (∃ fields, c.toJson.at? [g.name] = some (.object fields)) ∧
      ∀ s ∈ g.settings, c.toJson.at? [g.name, s.name] = some (s.form.write (s.get c)) := by
  simp only [all, List.mem_cons, List.not_mem_nil, or_false] at hg
  rcases hg with rfl | rfl | rfl | rfl
  · refine ⟨⟨_, rfl⟩, ?_⟩
    unfold pages
    simp only [List.forall_mem_cons]
    exact ⟨rfl, rfl, rfl, rfl, List.forall_mem_nil _⟩
  · refine ⟨⟨_, rfl⟩, ?_⟩
    unfold components
    simp only [List.forall_mem_cons]
    exact ⟨rfl, rfl, rfl, rfl, rfl, List.forall_mem_nil _⟩
  · refine ⟨⟨_, rfl⟩, ?_⟩
    unfold methods
    simp only [List.forall_mem_cons]
    exact ⟨rfl, rfl, rfl, rfl, List.forall_mem_nil _⟩
  · refine ⟨⟨_, rfl⟩, ?_⟩
    unfold selectors
    simp only [List.forall_mem_cons]
    exact ⟨rfl, rfl, rfl, List.forall_mem_nil _⟩

end SettingGroup

namespace Config

theorem toJson_isMapping (c : Config) : c.toJson.IsMapping := ⟨_, rfl⟩

/-- What is accepted is a mapping, or as good as an empty one. -/
theorem exists_mapping_of_ofJson {data : Json} {c : Config} (h : ofJson data = .ok c) :
    ∃ fields, ofJson (.object fields) = .ok c ∧
      ∀ key path, data.at? (key :: path) = (Json.object fields).at? (key :: path) := by
  cases data with
  | object fields => exact ⟨fields, h, fun _ _ => rfl⟩
  | _ =>
    unfold ofJson at h
    split at h
    next => exact ⟨[], h, fun _ _ => rfl⟩
    next => cases h

section Accepted

variable {data : Json} {c : Config} {g : SettingGroup} {name : Text}

/-- What stands in the place of an option, if anything does, has been accepted for it. -/
theorem takes_of_accepted (h : ofJson data = .ok c) (hg : g ∈ SettingGroup.all) {s : Setting}
    (hs : s ∈ g.settings) : s.Takes {} c (data.at? [g.name, s.name]) := by
  obtain ⟨fields, h, same⟩ := exists_mapping_of_ofJson h
  rw [same]
  exact (ofJson_object_eq_ok_iff.mp h g hg).takes s hs

theorem ofJson_toJson_of_accepted (h : ofJson data = .ok c) : ofJson c.toJson = .ok c := by
  obtain ⟨written, same⟩ := c.toJson_isMapping
  rw [same, ofJson_object_eq_ok_iff, ← same]
  intro g hg
  obtain ⟨⟨inner, mapping⟩, places⟩ := SettingGroup.toJson_at? hg c
  constructor
  · intro v hv
    rw [mapping] at hv
    exact ⟨inner, (Option.some.inj hv).symm⟩
  · intro s hs
    rw [places s hs]
    exact (takes_of_accepted h hg hs).accepts_write (SettingGroup.accepts_standard hg hs)

theorem count_of_accepted {get : Config → Count} (h : ofJson data = .ok c)
    (hg : g ∈ SettingGroup.all) (hs : ⟨Count, .count, name, get⟩ ∈ g.settings) :
    1 ≤ (get c).val ∧ c.toJson.at? [g.name, name] = some (Json.nat (get c).val) ∧
      ∀ v, data.at? [g.name, name] = some v → checkWhole v = .ok ((get c).val : Int) := by
  refine ⟨(get c).property, (SettingGroup.toJson_at? hg c).2 _ hs, ?_⟩
  intro v there
  have taken : Form.count.Takes (get {}) (get c) (data.at? [g.name, name]) :=
    takes_of_accepted h hg hs
  rw [there] at taken
  exact checkCount_eq_ok_iff.mp taken

theorem strategies_of_accepted {get : Config → List Strategy} (h : ofJson data = .ok c)
    (hg : g ∈ SettingGroup.all) (hs : ⟨List Strategy, .strategies, name, get⟩ ∈ g.settings)
    (own : (get {}).Nodup) :
    (get c).Nodup ∧
      c.toJson.at? [g.name, name] = some (Json.texts ((get c).map Strategy.name)) ∧
      ∀ v, data.at? [g.name, name] = some v →
        ∃ named : List Strategy, v = Json.texts (named.map Strategy.name) ∧
          named.eraseDups = get c := by
  have taken : Form.strategies.Takes (get {}) (get c) (data.at? [g.name, name]) :=
    takes_of_accepted h hg hs
  refine ⟨taken.nodup own, (SettingGroup.toJson_at? hg c).2 _ hs, ?_⟩
  intro v there
  rw [there] at taken
  obtain ⟨items, named, rfl, read, same⟩ := taken
  refine ⟨named, ?_, same⟩
  rw [Json.texts, ← map_name_of_forall₂_checkStrategy read]

end Accepted

/-- The options that are numbers, by their places. -/
def counts (c : Config) : List (List Text × Nat) := [
  (["component_detection", "min_appearances_for_component"], c.components.minAppearances.val),
  (["method_grouping", "max_actions_per_method"], c.methods.maxItems.val)]

/-- The place of the strategies. -/
def strategiesPlace : List Text := ["selector_analysis", "preferred_strategies"]

/-- Accepted options and the value they were read from. As they are written, numbers are at least
one, and strategies are known and all different; the numbers are those that are given, and the
strategies those that are given with the repeated ones once, where any are given. -/
structure AcceptedFrom (data : Json) (c : Config) : Prop where
  counts : ∀ count ∈ c.counts, 1 ≤ count.2 ∧ c.toJson.at? count.1 = some (Json.nat count.2) ∧
    ∀ v, data.at? count.1 = some v → checkWhole v = .ok (count.2 : Int)
  written : c.toJson.at? strategiesPlace =
    some (Json.texts (c.selectors.preferred.map Strategy.name))
  distinct : (c.selectors.preferred.map Strategy.name).Nodup
  known : ∀ name ∈ c.selectors.preferred.map Strategy.name,
    name ∈ (["testid", "role", "text", "placeholder", "css", "xpath"] : List Text)
  given : ∀ v, data.at? strategiesPlace = some v → ∃ named : List Strategy,
    v = Json.texts (named.map Strategy.name) ∧ named.eraseDups = c.selectors.preferred

theorem acceptedFrom_of_accepted {data : Json} {c : Config} (h : ofJson data = .ok c) :
    AcceptedFrom data c := by
  have components : SettingGroup.components ∈ SettingGroup.all := by simp [SettingGroup.all]
  have methods : SettingGroup.methods ∈ SettingGroup.all := by simp [SettingGroup.all]
  have selectors : SettingGroup.selectors ∈ SettingGroup.all := by simp [SettingGroup.all]
  have least := count_of_accepted h components (.head _)
  have most := count_of_accepted h methods (.head _)
  obtain ⟨distinct, written, given⟩ :=
    strategies_of_accepted h selectors (.tail _ (.head _)) (by decide)
  refine ⟨List.forall_mem_cons.mpr ⟨least, List.forall_mem_singleton.mpr most⟩,
    written, distinct.map Strategy.name_injective, ?_, given⟩
  intro name hn
  obtain ⟨s, -, rfl⟩ := List.mem_map.mp hn
  cases s <;> decide

end Config

/-- What stands in the place of a section, twice: the same, or mappings that have the same for each
option of the section. -/
inductive SettingGroup.Alike (g : SettingGroup) : Option Json → Option Json → Prop
  | same (v : Option Json) : g.Alike v v
  | mappings {fields other : List (Text × Json)}
      (agree : ∀ s ∈ g.settings, valueAt? s.name fields = valueAt? s.name other) :
      g.Alike (some (.object fields)) (some (.object other))

/-- Two mappings that differ in fields that are no options only, or no sections. -/
def AlikeOptions (fields other : List (Text × Json)) : Prop :=
  ∀ g ∈ SettingGroup.all, g.Alike (valueAt? g.name fields) (valueAt? g.name other)

section Alike

variable {α : Type} {fields other : List (Text × Json)}

theorem AlikeOptions.symm (h : AlikeOptions fields other) : AlikeOptions other fields := by
  intro g hg
  generalize valueAt? g.name fields = one, valueAt? g.name other = another, h g hg = alike
  cases alike with
  | same => exact .same _
  | mappings agree => exact .mappings fun s hs => (agree s hs).symm

/-- What is set, added or, the other way round, removed is no section. -/
theorem alikeOptions_setEntry {key : Text} {v : Json}
    (undeclared : ∀ g ∈ SettingGroup.all, key ≠ g.name) :
    AlikeOptions fields (setEntry key v fields) := by
  intro g hg
  rw [valueAt?_setEntry, if_neg (undeclared g hg)]
  exact .same _

/-- What is set in a section is no option of it. -/
theorem alikeOptions_setEntry_within {name key : Text} {inner : List (Text × Json)} {v : Json}
    (there : valueAt? name fields = some (.object inner))
    (undeclared : ∀ g ∈ SettingGroup.all, name = g.name → ∀ s ∈ g.settings, key ≠ s.name) :
    AlikeOptions fields (setEntry name (.object (setEntry key v inner)) fields) := by
  intro g hg
  rw [valueAt?_setEntry]
  split
  next own =>
    rw [← own, there]
    refine .mappings fun s hs => ?_
    rw [valueAt?_setEntry, if_neg (undeclared g hg own s hs)]
  next => exact .same _

theorem SectionReading.readSection_congr {own : Config} {g : SettingGroup}
    {read : List (Text × Json) → Checked α} {part : Config → α} {made : Making α g.settings}
    {split : α → SettingValues g.settings} (r : SectionReading own g read part made split)
    {title : Text} {standard : α}
    (h : g.Alike (valueAt? g.name fields) (valueAt? g.name other)) :
    readSection read fields g.name title standard =
      readSection read other g.name title standard := by
  rw [readSection, readSection]
  generalize valueAt? g.name fields = one at h
  generalize valueAt? g.name other = another at h
  cases h with
  | same => rfl
  | mappings agree =>
    dsimp only
    rw [r.congr agree]

theorem ofJson_congr (h : AlikeOptions fields other) :
    Config.ofJson (.object fields) = Config.ofJson (.object other) := by
  unfold AlikeOptions SettingGroup.all at h
  simp only [List.forall_mem_cons] at h
  obtain ⟨pages, components, methods, selectors, -⟩ := h
  rw [Config.ofJson_object, Config.ofJson_object,
    SettingGroup.sectionReading_pages.readSection_congr pages,
    SettingGroup.sectionReading_components.readSection_congr components,
    SettingGroup.sectionReading_methods.readSection_congr methods,
    SettingGroup.sectionReading_selectors.readSection_congr selectors]

end Alike

/-- Accepted options are accepted again as they are written and stay what they are: their numbers
are at least one, and their strategies are known and all different. Fields that are no options
change neither the options nor, where a value is refused, the issues. -/
theorem accepted_options_stable :
    (∀ (data : Json) (c : Config), Config.ofJson data = .ok c →
      Config.ofJson c.toJson = .ok c ∧ c.selectors.preferred.Nodup ∧ c.AcceptedFrom data) ∧
    ∀ fields other : List (Text × Json), AlikeOptions fields other →
      Config.ofJson (.object fields) = Config.ofJson (.object other) := by
  constructor
  · intro data c accepted
    have bounded := Config.acceptedFrom_of_accepted accepted
    exact ⟨Config.ofJson_toJson_of_accepted accepted, bounded.distinct.of_map, bounded⟩
  · intro fields other alike
    exact ofJson_congr alike

/-- Options of methods in other words: a numeral in spaces, and a word for a truth value. -/
def looseMethodFields : List (Text × Json) :=
  [("max_actions_per_method", .text " 5.0 "), ("group_related_fills", .text "OFF")]

/-- With a truth value for a number and a strategy that is repeated. -/
def looseFields : List (Text × Json) := [
  ("component_detection", .object [("min_appearances_for_component", .bool true)]),
  ("method_grouping", .object looseMethodFields),
  ("selector_analysis", .object [
    ("preferred_strategies", .list [.text "role", .text "testid", .text "role"])])]

/-- With a field more that is no section. -/
def looseFieldsAndFormat : List (Text × Json) := setEntry "reporting" (.text "xml") looseFields

/-- With a field more that is no option of its section. -/
def looseFieldsAndColour : List (Text × Json) :=
  setEntry "method_grouping" (.object (setEntry "colour" (.text "blue") looseMethodFields))
    looseFields

theorem accepted_options_stable_loose : ∃ c, Config.ofJson (.object looseFields) = .ok c ∧
    c.components.minAppearances.val = 1 ∧ c.methods.maxItems.val = 5 ∧
    c.methods.groupFills = false ∧ c.selectors.preferred = [.role, .testId] ∧
    Config.ofJson c.toJson = .ok c ∧
    AlikeOptions looseFields looseFieldsAndFormat ∧
    Config.ofJson (.object looseFieldsAndFormat) = .ok c ∧
    AlikeOptions looseFields looseFieldsAndColour ∧
    Config.ofJson (.object looseFieldsAndColour) = .ok c := by
  have read : (Config.ofJson (.object looseFields)).toOption.any (fun c =>
      decide (c.components.minAppearances.val = 1 ∧ c.methods.maxItems.val = 5 ∧
        c.methods.groupFills = false ∧ c.selectors.preferred = [.role, .testId])) = true := by
    decide +kernel
  obtain ⟨c, accepted, values⟩ := exists_ok_of_any read
  obtain ⟨least, most, fills, preferred⟩ := of_decide_eq_true values
  have format : AlikeOptions looseFields looseFieldsAndFormat :=
    alikeOptions_setEntry (by decide +kernel)
  have colour : AlikeOptions looseFields looseFieldsAndColour :=
    alikeOptions_setEntry_within rfl (by decide +kernel)
  obtain ⟨stable, ignores⟩ := accepted_options_stable
  exact ⟨c, accepted, least, most, fills, preferred, (stable _ _ accepted).1, format,
    (ignores _ _ format.symm).trans accepted, colour, (ignores _ _ colour.symm).trans accepted⟩

end PageObjects
