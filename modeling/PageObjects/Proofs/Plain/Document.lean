import PageObjects.Proofs.Outcome
import PageObjects.Proofs.Plain.Report
import PageObjects.Report.Output

namespace PageObjects

/-- A document without what replaces selectors and without the advice on fragile ones. -/
def Document.withoutAdvice (d : Document) : Document :=
  { d with
    registry := d.registry.map RegistryEntry.plain
    quality := d.quality.filter Recommendation.ignoresFragility }

def Document.plain (d : Document) : Document :=
  { d with
    pages := d.pages.map Page.plain
    components := d.components.map Component.plain
    registry := d.registry.map RegistryEntry.plain }

section Encoding

@[simp] theorem selectorFields_plain (registry : Registry) (s : Option AssessedSelector) :
    selectorFields (registry.map RegistryEntry.plain) (s.map AssessedSelector.plain) =
      selectorFields registry s := by
  cases s with
  | none => rfl
  | some s => simp [selectorFields]

@[simp] theorem Action.toJson_plain (registry : Registry) (usages : List (Nat × Nat)) (a : Action) :
    a.plain.toJson (registry.map RegistryEntry.plain) usages = a.toJson registry usages := by
  rw [toJson, toJson, selector_plain, selectorFields_plain]
  rfl

@[simp] theorem Assertion.toJson_plain (registry : Registry) (a : Assertion) :
    a.plain.toJson (registry.map RegistryEntry.plain) = a.toJson registry := by
  rw [toJson, toJson, selector_plain, selectorFields_plain]
  rfl

@[simp] theorem Occurrence.toJson_plain (o : Occurrence) : o.plain.toJson = o.toJson := by
  rw [toJson, toJson, page_plain, numbers_plain]

@[simp] theorem pageUsages_plain (usages : List (Nat × Nat)) (p : Page) :
    pageUsages usages p.plain = pageUsages usages p := by
  rw [pageUsages, pageUsages, Page.actions_plain, List.filterMap_map]
  rfl

theorem SelectorTemplate.toJson_plain (t : SelectorTemplate) :
    toJson { t with action := t.action.plain } = t.toJson := by
  have strategy : (t.action.plain.selector.map fun s => s.strategy.name) =
      t.action.selector.map fun s => s.strategy.name := by
    rw [Action.selector_plain, Option.map_map]
    rfl
  rw [toJson, toJson]
  dsimp only
  rw [Action.raw_plain, strategy]
  rfl

variable (d : Document)

theorem Document.metadata_plain : d.plain.metadata = d.metadata := by
  have actions : (d.plain.pages.flatMap Page.actions).length =
      (d.pages.flatMap Page.actions).length := length_actions_plain d.pages
  have assertions : (allAssertions d.plain.pages).length = (allAssertions d.pages).length := by
    simp [plain]
  have pages : d.plain.pages.length = d.pages.length := List.length_map _
  have components : d.plain.components.length = d.components.length := List.length_map _
  rw [metadata, metadata, actions, assertions, pages, components]
  rfl

theorem Page.toJson_plain (p : Page) : p.plain.toJson d.plain = p.toJson d := by
  have used : usages d.plain.components = usages d.components := usages_plain d.components
  have actions : p.plain.actions.map (Action.toJson d.plain.registry (usages d.components)) =
      p.actions.map (Action.toJson d.registry (usages d.components)) := by
    rw [actions_plain, List.map_map]
    exact List.map_congr_left fun a _ => a.toJson_plain d.registry (usages d.components)
  have assertions : p.plain.assertions.map (Assertion.toJson d.plain.registry) =
      p.assertions.map (Assertion.toJson d.registry) := by
    rw [assertions_plain, List.map_map]
    exact List.map_congr_left fun a _ => a.toJson_plain d.registry
  rw [toJson, toJson, used, actions, assertions, pageUsages_plain]
  rfl

theorem Component.toJson_plain (c : Component) : c.plain.toJson d.plain = c.toJson d := by
  have pages : c.plain.instances.map (fun o => Id.page o.page) =
      c.instances.map fun o => .page o.page := by
    rw [toComponentDraft_plain, ComponentDraft.instances_plain, List.map_map]
    rfl
  have instances : c.plain.instances.map Occurrence.toJson =
      c.instances.map Occurrence.toJson := by
    rw [toComponentDraft_plain, ComponentDraft.instances_plain, List.map_map]
    exact List.map_congr_left fun o _ => o.toJson_plain
  have count : c.plain.instances.length = c.instances.length := List.length_map _
  have templates : c.plain.templates.map SelectorTemplate.toJson =
      c.templates.map SelectorTemplate.toJson := by
    rw [templates_plain, List.map_map]
    exact List.map_congr_left fun t _ => t.toJson_plain
  rw [toJson, toJson, pages, instances, count, templates]
  rfl

/-- Printing a document reads the candidates of its registry only. -/
theorem Document.toJson_plain (h : d.registry.map RegistryEntry.plain = d.registry) :
    d.plain.toJson = d.toJson := by
  have pages : d.plain.pages.map (Page.toJson d.plain) = d.pages.map (Page.toJson d) := by
    rw [plain, List.map_map]
    exact List.map_congr_left fun p _ => p.toJson_plain d
  have components : d.plain.components.map (Component.toJson d.plain) =
      d.components.map (Component.toJson d) := by
    rw [plain, List.map_map]
    exact List.map_congr_left fun c _ => c.toJson_plain d
  have registry : d.plain.registry = d.registry := h
  rw [toJson, toJson, d.metadata_plain, pages, components, registry]
  rfl

end Encoding

/-- What reads the same of plain pages reads the same of pages that are the same when plain. -/
theorem eq_of_map_plain {β : Type} (read : List Page → β) {pages others : List Page}
    (same : pages.map Page.plain = others.map Page.plain)
    (reads : ∀ pages, read (pages.map Page.plain) = read pages) : read pages = read others := by
  rw [← reads, same, reads]

section Same

variable {pages others : List Page} (same : pages.map Page.plain = others.map Page.plain)

include same

theorem components_eq_of_map_plain (options : ComponentOptions) :
    (findComponents options pages).components.map Component.plain =
      (findComponents options others).components.map Component.plain := by
  have found := congrArg (fun p => (findComponents options p).components) same
  simpa only [findComponents_plain] using found

theorem registry_eq_of_map_plain :
    (Registry.ofItems (allItems pages)).map RegistryEntry.plain =
      (Registry.ofItems (allItems others)).map RegistryEntry.plain := by
  have noted := congrArg (fun p => Registry.ofItems (allItems p)) same
  simpa only [allItems_plain, Registry.ofItems_plain] using noted

theorem suggestMethods_eq_of_map_plain (options : MethodOptions) (components : ComponentOptions) :
    suggestMethods options pages (findComponents components pages).components =
      suggestMethods options others (findComponents components others).components := by
  rw [← suggestMethods_plain, same, components_eq_of_map_plain same, suggestMethods_plain]

theorem architecturalAdvice_eq_of_map_plain (options : ComponentOptions) :
    architecturalAdvice pages (findComponents options pages).recommendations =
      architecturalAdvice others (findComponents options others).recommendations := by
  refine eq_of_map_plain (fun p =>
    architecturalAdvice p (findComponents options p).recommendations) same fun p => ?_
  rw [findComponents_plain, architecturalAdvice_plain]

theorem refactoringAdvice_eq_of_map_plain (methods : List Method) :
    refactoringAdvice methods (Registry.ofItems (allItems pages)) =
      refactoringAdvice methods (Registry.ofItems (allItems others)) := by
  rw [← refactoringAdvice_plain, registry_eq_of_map_plain same, refactoringAdvice_plain]

theorem limitWarnings_eq_of_map_plain (options : ComponentOptions) :
    limitWarnings pages (findComponents options pages).components =
      limitWarnings others (findComponents options others).components := by
  rw [← limitWarnings_plain, same, components_eq_of_map_plain same, limitWarnings_plain]

theorem qualityAdvice_eq_of_map_plain (flags flags' : Bool) (options : ComponentOptions)
    (methods : List Method) :
    (qualityAdvice flags pages (findComponents options pages).components methods
        (Registry.ofItems (allItems pages))).filter Recommendation.ignoresFragility =
      (qualityAdvice flags' others (findComponents options others).components methods
        (Registry.ofItems (allItems others))).filter Recommendation.ignoresFragility := by
  rw [← qualityAdvice_plain flags flags, same, components_eq_of_map_plain same,
    registry_eq_of_map_plain same, qualityAdvice_plain flags flags']

end Same

/-- Up to what replaces selectors, the document of some pages does not depend on the options for
selectors. -/
theorem Document.ofSpans_plain (config : Config) (s t : SelectorOptions)
    (sourceName : Option Text) (totalLines : Nat) (statements : List Statement)
    (spans : List PageSpan) :
    (ofSpans { config with selectors := s } sourceName totalLines statements spans).map
        (fun d => d.withoutAdvice.plain) =
      (ofSpans { config with selectors := t } sourceName totalLines statements spans).map
        (fun d => d.withoutAdvice.plain) := by
  unfold ofSpans
  have same := placeAssertions_ofSpans_plain s t spans
  dsimp only
  generalize placeAssertions (Page.ofSpans s spans) = pages at same
  generalize placeAssertions (Page.ofSpans t spans) = others at same
  rw [suggestMethods_eq_of_map_plain same config.methods config.components]
  refine map_bind_congr fun suggested => ?_
  have registry := congrArg (List.map RegistryEntry.plain) (registry_eq_of_map_plain same)
  refine congrArg Except.ok ?_
  simp only [withoutAdvice, plain, Document.mk.injEq, true_and]
  refine ⟨same, components_eq_of_map_plain same config.components, registry,
    eq_of_map_plain (fun p => sequencesOf statements p suggested.methods) same
      fun p => sequencesOf_plain statements p suggested.methods,
    architecturalAdvice_eq_of_map_plain same config.components,
    refactoringAdvice_eq_of_map_plain same _,
    qualityAdvice_eq_of_map_plain same s.flagsFragile t.flagsFragile config.components _, ?_⟩
  rw [eq_of_map_plain statementWarnings same statementWarnings_plain,
    eq_of_map_plain assertionWarnings same assertionWarnings_plain,
    limitWarnings_eq_of_map_plain same config.components]

theorem Document.ofStatements_plain (config : Config) (s t : SelectorOptions)
    (sourceName : Option Text) (totalLines : Nat) (statements : List Statement) :
    (ofStatements { config with selectors := s } sourceName totalLines statements).map
        (fun d => d.withoutAdvice.plain) =
      (ofStatements { config with selectors := t } sourceName totalLines statements).map
        (fun d => d.withoutAdvice.plain) := by
  unfold ofStatements
  dsimp only
  cases PageSpan.ofStatements config.pages statements with
  | error e => rfl
  | ok spans =>
    cases statements.findSome? Statement.selectorExcess? with
    | some e => rfl
    | none =>
      dsimp only
      rw [map_mapError, map_mapError, ofSpans_plain config s t]

/-- Two analyses of a script that differ in the options for selectors only come to the same: to the
same error, or to documents that print alike but for what replaces selectors and the advice on
fragile ones. -/
theorem analyze_selectorOptions_irrelevant (config : Config) (s t : SelectorOptions)
    (sourceName : Option Text) (script : Text) :
    (analyze { config with selectors := s } sourceName script).map
        (fun d => d.withoutAdvice.toJson) =
      (analyze { config with selectors := t } sourceName script).map
        (fun d => d.withoutAdvice.toJson) := by
  have printed : (fun d : Document => d.withoutAdvice.toJson) =
      Document.toJson ∘ fun d => d.withoutAdvice.plain := by
    funext d
    have erased : d.withoutAdvice.registry.map RegistryEntry.plain = d.withoutAdvice.registry := by
      rw [Document.withoutAdvice, List.map_map]
      rfl
    exact (d.withoutAdvice.toJson_plain erased).symm
  have composed (x : Except AnalysisError Document) :
      x.map (Document.toJson ∘ fun d => d.withoutAdvice.plain) =
        (x.map fun d => d.withoutAdvice.plain).map Document.toJson :=
    LawfulFunctor.comp_map _ _ x
  rw [analyze, analyze]
  by_cases blank : (Text.trim script).isEmpty
  · rw [if_pos blank, if_pos blank]
  rw [if_neg blank, if_neg blank]
  cases extract script with
  | error e => rfl
  | ok statements =>
    dsimp only
    rw [printed, composed, composed, Document.ofStatements_plain config s t]

end PageObjects
