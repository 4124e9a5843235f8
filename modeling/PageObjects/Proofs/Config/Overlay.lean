import PageObjects.Config.Source
import PageObjects.Proofs.Config.Setting
import PageObjects.Proofs.Entries

namespace PageObjects

namespace Json

/-- In a mapping and the mappings in it, every key is given once. -/
inductive Distinct : Json → Prop
  | mapping {fields : List (Text × Json)} (keys : (fields.map Prod.fst).Nodup)
      (values : ∀ entry ∈ fields, Distinct entry.2) : Distinct (object fields)
  | other {j : Json} (h : ¬ j.IsMapping) : Distinct j

theorem overlay_of_not_isMapping {upper : Json} (h : ¬ upper.IsMapping) (base : Json) :
    overlay base upper = upper := by
  cases upper with
  | object fields => exact absurd ⟨fields, rfl⟩ h
  | _ =>
    rw [overlay]
    exact nofun

theorem overlay_object (base upper : List (Text × Json)) :
    overlay (object base) (object upper) = object (overlayFields base upper) := by
  rw [overlay]

theorem overlay_over_other {base : Json} (h : ¬ base.IsMapping) (upper : Json) :
    overlay base upper = upper := by
  by_cases mapping : upper.IsMapping
  · obtain ⟨fields, rfl⟩ := mapping
    cases base with
    | object old => exact absurd ⟨old, rfl⟩ h
    | _ =>
      rw [overlay]
      exact nofun
  · exact overlay_of_not_isMapping mapping base

theorem isMapping_overlay {base upper : Json} :
    (overlay base upper).IsMapping ↔ upper.IsMapping := by
  by_cases mapping : upper.IsMapping
  · refine iff_of_true ?_ mapping
    obtain ⟨fields, rfl⟩ := mapping
    by_cases below : base.IsMapping
    · obtain ⟨old, rfl⟩ := below
      exact ⟨_, overlay_object old fields⟩
    · exact ⟨fields, overlay_over_other below _⟩
  · rw [overlay_of_not_isMapping mapping]

/-- What a field is after others have been laid over. -/
theorem valueAt?_overlayFields {upper : List (Text × Json)} (keys : (upper.map Prod.fst).Nodup)
    (base : List (Text × Json)) (key : Text) :
    valueAt? key (overlayFields base upper) =
      match valueAt? key upper with
      | some v => some (overlay ((valueAt? key base).getD null) v)
      | none => valueAt? key base := by
  induction upper generalizing base with
  | nil => rw [overlayFields, valueAt?]
  | cons entry rest ih =>
    obtain ⟨k, v⟩ := entry
    obtain ⟨new, keys⟩ := List.nodup_cons.mp keys
    rw [overlayFields, ih keys, valueAt?_setEntry, valueAt?]
    by_cases own : k = key
    · subst own
      rw [valueAt?_eq_none_iff.mpr new, if_pos rfl, if_pos rfl]
    · rw [if_neg own, if_neg own]

section Places

variable {base upper v : Json} {path : List Text}

/-- What stands in the upper value is laid over what stands in the lower one. -/
theorem at?_overlay_of_some (base : Json) (distinct : upper.Distinct)
    (there : upper.at? path = some v) :
    ∃ below, (overlay base upper).at? path = some (overlay below v) := by
  induction path generalizing base upper with
  | nil =>
    obtain rfl := Option.some.inj there
    exact ⟨base, rfl⟩
  | cons key path ih =>
    by_cases mapping : upper.IsMapping
    · obtain ⟨fields, rfl⟩ := mapping
      by_cases lower : base.IsMapping
      · obtain ⟨lower, rfl⟩ := lower
        obtain ⟨keys, values⟩ | other := distinct
        · rw [at?_object_cons] at there
          obtain ⟨w, found, there⟩ := Option.bind_eq_some_iff.mp there
          rw [overlay_object, at?_object_cons, valueAt?_overlayFields keys, found]
          exact ih _ (values _ (mem_of_valueAt? found)) there
        · exact absurd ⟨fields, rfl⟩ other
      · refine ⟨null, ?_⟩
        have noMapping : ¬ null.IsMapping := nofun
        rw [overlay_over_other lower, there, overlay_over_other noMapping]
    · rw [at?_cons_of_not_isMapping mapping] at there
      cases there

/-- Where nothing stands in the upper value, nor anything above that ends there, what stands in the
lower one stays. -/
theorem at?_overlay_of_none (distinct : upper.Distinct) (mapping : upper.IsMapping)
    (missing : upper.at? path = none)
    (leads : ∀ lead v, lead <+: path → lead ≠ path → upper.at? lead = some v → v.IsMapping) :
    (overlay base upper).at? path = base.at? path := by
  induction path generalizing base upper with
  | nil => cases missing
  | cons key path ih =>
    by_cases lower : base.IsMapping
    · obtain ⟨lower, rfl⟩ := lower
      obtain ⟨fields, rfl⟩ := mapping
      obtain ⟨keys, values⟩ | other := distinct
      · rw [overlay_object, at?_object_cons, at?_object_cons, valueAt?_overlayFields keys]
        rw [at?_object_cons] at missing
        cases found : valueAt? key fields with
        | none => rfl
        | some w =>
          rw [found] at missing
          have inner : ∀ lead v, lead <+: path → lead ≠ path → w.at? lead = some v →
              v.IsMapping := by
            intro lead v front apart there
            refine leads (key :: lead) v ((List.prefix_cons_inj key).mpr front) ?_ ?_
            · exact fun same => apart (List.cons.inj same).2
            · rw [at?_object_cons, found]
              exact there
          have nonempty : path ≠ [] := by
            rintro rfl
            cases missing
          have above : w.IsMapping := inner [] w List.nil_prefix nonempty.symm rfl
          rw [Option.bind_some, ih (values _ (mem_of_valueAt? found)) above missing inner]
          cases valueAt? key lower with
          | some below => rfl
          | none =>
            obtain ⟨first, rest, rfl⟩ := List.exists_cons_of_ne_nil nonempty
            rfl
      · exact absurd ⟨fields, rfl⟩ other
    · rw [overlay_over_other lower, missing, at?_cons_of_not_isMapping lower]

end Places

/-- Fields of which none changes when laid over are laid over without effect. -/
theorem overlayFields_of_fixed {base upper : List (Text × Json)}
    (fixed : ∀ entry ∈ upper, ∃ below, valueAt? entry.1 base = some below ∧
      overlay below entry.2 = below) : overlayFields base upper = base := by
  induction upper with
  | nil => rw [overlayFields]
  | cons entry rest ih =>
    obtain ⟨k, v⟩ := entry
    obtain ⟨⟨below, there, same⟩, others⟩ := List.forall_mem_cons.mp fixed
    dsimp only at there same
    rw [overlayFields, there, Option.getD_some, same, setEntry_of_valueAt? there]
    exact ih others

theorem overlay_self {upper : Json} (distinct : upper.Distinct) : overlay upper upper = upper := by
  induction distinct with
  | @mapping fields keys values ih =>
    rw [overlay_object, overlayFields_of_fixed]
    intro entry he
    exact ⟨entry.2, valueAt?_of_mem keys he, ih entry he⟩
  | other h => exact overlay_of_not_isMapping h _

/-- Laying the same over a second time changes nothing. -/
theorem overlay_overlay {upper : Json} (distinct : upper.Distinct) (base : Json) :
    overlay (overlay base upper) upper = overlay base upper := by
  induction distinct generalizing base with
  | @mapping fields keys values ih =>
    by_cases lower : base.IsMapping
    · obtain ⟨lower, rfl⟩ := lower
      rw [overlay_object, overlay_object, overlayFields_of_fixed]
      intro entry he
      refine ⟨overlay ((valueAt? entry.1 lower).getD null) entry.2, ?_, ih entry he _⟩
      rw [valueAt?_overlayFields keys, valueAt?_of_mem keys he]
    · rw [overlay_over_other lower, overlay_self (.mapping keys values)]
  | other h => rw [overlay_of_not_isMapping h, overlay_of_not_isMapping h]

end Json

/-- What stands at a path in the overrides, or else in the file. -/
def givenAt? (overrides fields : List (Text × Json)) (path : List Text) : Option Json :=
  ((Json.object overrides).at? path).or ((Json.object fields).at? path)

section Given

variable {overrides fields : List (Text × Json)} {path : List Text}

/-- With mappings above a place, what is given there is what stands there afterwards, or both are
mappings. -/
theorem at?_overlay_eq_givenAt? (distinct : (Json.object overrides).Distinct)
    (leads : ∀ lead v, lead <+: path → lead ≠ path → (Json.object overrides).at? lead = some v →
      v.IsMapping) :
    (Json.overlay (.object fields) (.object overrides)).at? path =
        givenAt? overrides fields path ∨
      ∃ v w, (Json.overlay (.object fields) (.object overrides)).at? path = some v ∧
        givenAt? overrides fields path = some w ∧ v.IsMapping ∧ w.IsMapping := by
  rw [givenAt?]
  cases there : (Json.object overrides).at? path with
  | none =>
    rw [Json.at?_overlay_of_none distinct ⟨_, rfl⟩ there leads, Option.none_or]
    exact .inl rfl
  | some w =>
    obtain ⟨below, found⟩ := Json.at?_overlay_of_some (.object fields) distinct there
    rw [found, Option.some_or]
    by_cases mapping : w.IsMapping
    · exact .inr ⟨_, w, rfl, rfl, Json.isMapping_overlay.mpr mapping, mapping⟩
    · rw [Json.overlay_of_not_isMapping mapping]
      exact .inl rfl

end Given

/-- What leads to an option stops at the root or at its section. -/
theorem eq_of_prefix_pair {α : Type} {lead : List α} {a b : α} (front : lead <+: [a, b])
    (apart : lead ≠ [a, b]) : lead = [] ∨ lead = [a] := by
  have whole : lead <+: [] ++ [a] ++ [b] := front
  rcases List.prefix_concat_iff.mp whole with same | front
  · exact absurd same apart
  · rcases List.prefix_concat_iff.mp front with same | front
    · exact .inr same
    · exact .inl (List.prefix_nil.mp front)

theorem Setting.not_takes_mapping {s : Setting} {standard c : Config} {v : Json}
    (mapping : v.IsMapping) : ¬ s.Takes standard c (some v) := fun h => Form.not_isMapping h mapping

/-- A section is read from the overrides laid over a file as from what is given by both. -/
theorem reads_overlay_iff {g : SettingGroup} {standard c : Config}
    {overrides fields : List (Text × Json)} (distinct : (Json.object overrides).Distinct) :
    g.Reads standard c (Json.overlay (.object fields) (.object overrides)).at? ↔
      g.Reads standard c (givenAt? overrides fields) := by
  have top : ∀ lead v, lead <+: [g.name] → lead ≠ [g.name] →
      (Json.object overrides).at? lead = some v → v.IsMapping := by
    intro lead v front apart there
    rcases List.prefix_cons_iff.mp front with rfl | ⟨rest, rfl, nowhere⟩
    · exact ⟨overrides, (Option.some.inj there).symm⟩
    · rw [List.prefix_nil.mp nowhere] at apart
      exact absurd rfl apart
  have mapping : (∀ v, (Json.overlay (.object fields) (.object overrides)).at? [g.name] = some v →
      v.IsMapping) ↔ ∀ v, givenAt? overrides fields [g.name] = some v → v.IsMapping := by
    rcases at?_overlay_eq_givenAt? distinct top with same | ⟨v, w, hv, hw, above, given⟩
    · rw [same]
    · rw [hv, hw]
      exact iff_of_true (fun _ same => Option.some.inj same ▸ above)
        fun _ same => Option.some.inj same ▸ given
  have takes : (∀ v, givenAt? overrides fields [g.name] = some v → v.IsMapping) → ∀ s : Setting,
      (s.Takes standard c ((Json.overlay (.object fields) (.object overrides)).at?
          [g.name, s.name]) ↔
        s.Takes standard c (givenAt? overrides fields [g.name, s.name])) := by
    intro sections s
    have leads : ∀ lead v, lead <+: [g.name, s.name] → lead ≠ [g.name, s.name] →
        (Json.object overrides).at? lead = some v → v.IsMapping := by
      intro lead v front apart there
      rcases eq_of_prefix_pair front apart with rfl | rfl
      · exact ⟨overrides, (Option.some.inj there).symm⟩
      · exact sections v (by rw [givenAt?, there, Option.some_or])
    rcases at?_overlay_eq_givenAt? distinct leads with same | ⟨v, w, hv, hw, above, given⟩
    · rw [same]
    · rw [hv, hw]
      exact iff_of_false (Setting.not_takes_mapping above) (Setting.not_takes_mapping given)
  constructor
  · intro h
    have sections := mapping.mp h.mapping
    exact ⟨sections, fun s hs => (takes sections s).mp (h.takes s hs)⟩
  · intro h
    exact ⟨mapping.mpr h.mapping, fun s hs => (takes h.mapping s).mpr (h.takes s hs)⟩

namespace Config

/-- The fields of the file that is named, if one is. -/
def fileFields (yaml : YamlReader) :
    Option (Text × Option Text) → Except LoadError (List (Text × Json))
  | none => .ok []
  | some (name, content) => readFile yaml name content

theorem mapError_eq_ok_iff {ε δ α : Type} {x : Except ε α} {f : ε → δ} {a : α} :
    x.mapError f = .ok a ↔ x = .ok a := by
  cases x <;> simp [Except.mapError]

theorem load_object (yaml : YamlReader) (file : Option (Text × Option Text))
    (overrides : List (Text × Json)) :
    load yaml file (.object overrides) = (fileFields yaml file).bind fun fields =>
      (ofJson (Json.overlay (.object fields) (.object overrides))).mapError fun issues =>
        .config (.rejected issues) := by
  have given : (if (Json.object overrides).isEmptyish then .object [] else .object overrides) =
      Json.object overrides := by
    cases overrides <;> rfl
  unfold load
  rw [given]
  cases file <;> rfl

theorem load_null (yaml : YamlReader) (file : Option (Text × Option Text)) :
    load yaml file .null = load yaml file (.object []) := rfl

theorem load_eq_ok_iff {yaml : YamlReader} {file : Option (Text × Option Text)}
    {overrides : List (Text × Json)} {c : Config} (distinct : (Json.object overrides).Distinct) :
    load yaml file (.object overrides) = .ok c ↔ ∃ fields, fileFields yaml file = .ok fields ∧
      ∀ g ∈ SettingGroup.all, g.Reads {} c (givenAt? overrides fields) := by
  have laid : ∀ fields, ofJson (Json.overlay (.object fields) (.object overrides)) = .ok c ↔
      ∀ g ∈ SettingGroup.all, g.Reads {} c (givenAt? overrides fields) := by
    intro fields
    rw [Json.overlay_object, ofJson_object_eq_ok_iff, ← Json.overlay_object]
    simp only [reads_overlay_iff distinct]
  rw [load_object]
  cases fileFields yaml file with
  | error e => exact iff_of_false nofun nofun
  | ok fields =>
    rw [Except.bind, mapError_eq_ok_iff, laid]
    constructor
    · intro h
      exact ⟨fields, rfl, h⟩
    · rintro ⟨_, same, h⟩
      rw [Except.ok.inj same]
      exact h

end Config

/-- Overrides win place by place, and laying them over twice is laying them over once. So every
option that is loaded comes from the overrides if it is given there, else from the file, else it has
its standard value. -/
theorem overrides_win {base overrides : List (Text × Json)}
    (distinct : (Json.object overrides).Distinct) :
    (∀ path v, (Json.object overrides).at? path = some v → ¬ v.IsMapping →
      (Json.overlay (.object base) (.object overrides)).at? path = some v) ∧
    (∀ path, (Json.object overrides).at? path = none →
      (∀ lead v, lead <+: path → lead ≠ path → (Json.object overrides).at? lead = some v →
        v.IsMapping) →
      (Json.overlay (.object base) (.object overrides)).at? path = (Json.object base).at? path) ∧
    Json.overlay (Json.overlay (.object base) (.object overrides)) (.object overrides) =
      Json.overlay (.object base) (.object overrides) ∧
    (∀ yaml file c, Config.load yaml file (.object overrides) = .ok c ↔
      ∃ fields, Config.fileFields yaml file = .ok fields ∧
        ∀ g ∈ SettingGroup.all, g.Reads {} c (givenAt? overrides fields)) ∧
    ∀ yaml file, Config.load yaml file .null = Config.load yaml file (.object []) := by
  refine ⟨?_, ?_, Json.overlay_overlay distinct _,
    fun yaml file c => Config.load_eq_ok_iff distinct, Config.load_null⟩
  · intro path v there leaf
    obtain ⟨below, found⟩ := Json.at?_overlay_of_some (.object base) distinct there
    rw [found, Json.overlay_of_not_isMapping leaf]
  · intro path missing leads
    exact Json.at?_overlay_of_none distinct ⟨_, rfl⟩ missing leads

/-- Methods of at most four items, with which navigation may go together. -/
def fourPerMethod : List (Text × Json) := [("method_grouping", .object
  [("max_actions_per_method", .int 4), ("separate_navigation", .bool false)])]

def sixPerMethod : List (Text × Json) :=
  [("method_grouping", .object [("max_actions_per_method", .int 6)])]

/-- A file that says what `fourPerMethod` says. -/
def fourPerMethodFile : Option (Text × Option Text) := some ("pom.yaml",
  some "method_grouping:\n  max_actions_per_method: 4\n  separate_navigation: false\n")

theorem overrides_win_sixPerMethod :
    (Json.object sixPerMethod).Distinct ∧
    (Json.overlay (.object fourPerMethod) (.object sixPerMethod)).at?
      ["method_grouping", "max_actions_per_method"] = some (.int 6) ∧
    (Json.overlay (.object fourPerMethod) (.object sixPerMethod)).at?
      ["method_grouping", "separate_navigation"] = some (.bool false) ∧
    ∃ c fields, Config.load Yaml.read fourPerMethodFile (.object sixPerMethod) = .ok c ∧
      c.methods.maxItems.val = 6 ∧ c.methods.separateNavigation = false ∧
      c.methods.separateAssertions = true ∧
      Config.fileFields Yaml.read fourPerMethodFile = .ok fields ∧
      ∀ g ∈ SettingGroup.all, g.Reads {} c (givenAt? sixPerMethod fields) := by
  have distinct : (Json.object sixPerMethod).Distinct :=
    .mapping (by decide +kernel) (List.forall_mem_singleton.mpr
      (.mapping (by decide +kernel) (List.forall_mem_singleton.mpr (.other nofun))))
  obtain ⟨wins, stays, -, loads, -⟩ := @overrides_win fourPerMethod _ distinct
  have six := wins ["method_grouping", "max_actions_per_method"] (.int 6) rfl nofun
  have leads : ∀ (lead : List Text) v, lead <+: ["method_grouping", "separate_navigation"] →
      lead ≠ ["method_grouping", "separate_navigation"] →
      (Json.object sixPerMethod).at? lead = some v → v.IsMapping := by
    intro lead v front apart there
    rcases eq_of_prefix_pair front apart with rfl | rfl
    · exact ⟨_, (Option.some.inj there).symm⟩
    · exact ⟨_, (Option.some.inj there).symm⟩
  have read : (Config.load Yaml.read fourPerMethodFile
      (.object sixPerMethod)).toOption.any (fun c =>
        decide (c.methods.maxItems.val = 6 ∧ c.methods.separateNavigation = false ∧
          c.methods.separateAssertions = true)) = true := by
    decide +kernel
  obtain ⟨c, loaded, values⟩ := exists_ok_of_any read
  obtain ⟨most, together, apart⟩ := of_decide_eq_true values
  obtain ⟨fields, file, reads⟩ := (loads _ _ _).mp loaded
  exact ⟨distinct, six, (stays _ rfl leads).trans rfl, c, fields, loaded, most, together, apart,
    file, reads⟩

end PageObjects
