import PageObjects.Proofs.Method.Numbering
import PageObjects.Proofs.Page.Binding
import PageObjects.Proofs.Report.Ids
import PageObjects.Proofs.Report.Registry
import PageObjects.Proofs.Script.Coverage

namespace PageObjects

/-- The parts of a document, each as it is made from those before it. -/
structure Document.MadeOf (config : Config) (d : Document) (spans : List PageSpan)
    (own shared : List (Id × List Method)) : Prop where
  found : PageSpan.ofStatements config.pages d.statements = .ok spans
  pages : d.pages = placeAssertions (Page.ofSpans config.selectors spans)
  components : d.components = (findComponents config.components d.pages).components
  methods : d.methods = own ++ shared
  suggested : SuggestedMethods config.methods d.pages d.components own shared
  registry : d.registry = Registry.ofItems (allItems d.pages)
  sequences : d.sequences = sequencesOf d.statements d.pages d.methods
  architectural : d.architectural =
    architecturalAdvice d.pages (findComponents config.components d.pages).recommendations
  refactoring : d.refactoring = refactoringAdvice d.allMethods d.registry
  quality : d.quality =
    qualityAdvice config.selectors.flagsFragile d.pages d.components d.allMethods d.registry

variable {config : Config} {name : Option Text} {script : Text} {d : Document}

/-- Statements have a document exactly if they have pages, nothing is too much about their
selectors, and these pages have a document. -/
theorem Document.ofStatements_eq_ok_iff {lines : Nat} {statements : List Statement} :
    Document.ofStatements config name lines statements = .ok d ↔
      ∃ spans, PageSpan.ofStatements config.pages statements = .ok spans ∧
        (∀ s ∈ statements, s.selectorExcess? = none) ∧
        Document.ofSpans config name lines statements spans = .ok d := by
  have fits : (∀ s ∈ statements, s.selectorExcess? = none) ↔
      statements.findSome? Statement.selectorExcess? = none := List.findSome?_eq_none_iff.symm
  rw [fits, Document.ofStatements]
  cases PageSpan.ofStatements config.pages statements with
  | error e => exact ⟨nofun, nofun⟩
  | ok spans =>
    cases statements.findSome? Statement.selectorExcess? with
    | some e => exact ⟨nofun, nofun⟩
    | none =>
      constructor
      · intro h
        exact ⟨spans, rfl, rfl, ok_of_mapError h⟩
      · rintro ⟨same, found, -, h⟩
        cases Except.ok.inj found
        exact congrArg (Except.mapError AnalysisError.url) h

/-- A document that is given is one of the statements of the script. -/
theorem exists_madeOf (h : analyze config name script = .ok d) :
    extract script = .ok d.statements ∧ ∃ spans own shared, d.MadeOf config spans own shared := by
  unfold analyze at h
  split at h
  next => cases h
  next =>
    split at h
    next => cases h
    next statements hs =>
      obtain ⟨spans, hp, -, made⟩ := Document.ofStatements_eq_ok_iff.mp h
      obtain ⟨found, hm, made⟩ := exists_ok_of_bind made
      obtain ⟨own, shared, methods, suggested⟩ := exists_suggestedMethods hm
      cases Except.ok.inj made
      exact ⟨hs, spans, own, shared, hp, rfl, rfl, methods, suggested, rfl, rfl, rfl, rfl, rfl⟩

namespace Document.MadeOf

variable {spans : List PageSpan} {own shared : List (Id × List Method)}

theorem binds (h : d.MadeOf config spans own shared) : PagesBind 1 {} spans d.pages := by
  rw [h.pages]
  exact pagesBind_placeAssertions config.selectors spans

theorem componentNumbers (h : d.MadeOf config spans own shared) :
    d.components.map Component.number = List.range' 1 d.components.length := by
  have numbers := map_number_nameComponents (chooseComponents config.components d.pages).drafts
  have count := congrArg List.length numbers
  rw [List.length_map, List.length_range'] at count
  rw [h.components, findComponents, numbers, count]

theorem selectorNumbers (h : d.MadeOf config spans own shared) :
    d.registry.map RegistryEntry.number = List.range' 1 d.registry.length := by
  rw [h.registry]
  exact (Registry.complete_ofItems (allItems d.pages)).numbers

theorem methodNumbers (h : d.MadeOf config spans own shared) :
    d.allMethods.map Method.number = List.range' 1 d.allMethods.length := by
  rw [Document.allMethods, h.methods]
  exact h.suggested.numbers

/-- The entries of methods are those of the pages and of the components, each once. -/
theorem map_fst_methods (h : d.MadeOf config spans own shared) :
    d.methods.map Prod.fst = d.pages.map Page.id ++ d.components.map Component.id := by
  rw [h.methods, List.map_append, h.suggested.owners.1, h.suggested.owners.2]

theorem nodup_owners (h : d.MadeOf config spans own shared) :
    (d.methods.map Prod.fst).Nodup := by
  rw [h.map_fst_methods]
  refine List.nodup_append.mpr ⟨?_, ?_, ?_⟩
  · exact nodup_of_numbers h.binds.numbers fun a b hab => Id.page.inj hab
  · exact nodup_of_numbers h.componentNumbers fun a b hab => Id.component.inj hab
  · intro i hi j hj
    obtain ⟨p, -, rfl⟩ := List.mem_map.mp hi
    obtain ⟨c, -, rfl⟩ := List.mem_map.mp hj
    exact fun same => nomatch same

/-- All methods are listed with their owners, once and in order. -/
theorem listedMethods (h : d.MadeOf config spans own shared) : d.listedMethods = d.allMethods := by
  have all := flatMap_valueAt? h.nodup_owners
  rwa [h.map_fst_methods, List.flatMap_append, List.flatMap_map, List.flatMap_map] at all

/-- The methods of a page are the entry that its items make. -/
theorem pageEntry (h : d.MadeOf config spans own shared) {k : Nat} {p : Page}
    (hp : d.pages[k]? = some p) : Owner.Entry config.methods (PageObjects.usages d.components)
      (p.owner d.pages[k + 1]?, p.items) (p.id, d.methodsOf p.id) := by
  have ho : (pageOwners d.pages)[k]? = some (p.owner d.pages[k + 1]?, p.items) := by
    rw [getElem?_pageOwners, hp, Option.map_some]
  obtain ⟨entry, he, made⟩ := exists_getElem?_of_forall₂ h.suggested.pages ho
  have same : (p.id, entry.2) = entry := Prod.ext made.1.symm rfl
  have listed : (p.id, entry.2) ∈ d.methods := by
    rw [same, h.methods]
    exact List.mem_append_left _ (List.mem_of_getElem? he)
  rw [methodsOf, valueAt?_of_mem h.nodup_owners listed, Option.getD_some, same]
  exact made

theorem exists_pageEntry (h : d.MadeOf config spans own shared) {p : Page} (hp : p ∈ d.pages) :
    ∃ next, Owner.Entry config.methods (PageObjects.usages d.components) (p.owner next, p.items)
      (p.id, d.methodsOf p.id) := by
  obtain ⟨k, hk⟩ := List.mem_iff_getElem?.mp hp
  exact ⟨_, h.pageEntry hk⟩

/-- The methods of a component are the entry that its first instance makes. -/
theorem componentEntry (h : d.MadeOf config spans own shared) {c : Component}
    (hc : c ∈ d.components) :
    Owner.Entry config.methods [] (componentOwner c) (c.id, d.methodsOf c.id) := by
  have ho : componentOwner c ∈ d.components.map componentOwner := List.mem_map_of_mem hc
  obtain ⟨entry, he, made⟩ := exists_right_of_mem h.suggested.components ho
  have same : (c.id, entry.2) = entry := Prod.ext made.1.symm rfl
  have listed : (c.id, entry.2) ∈ d.methods := by
    rw [same, h.methods]
    exact List.mem_append_right _ he
  rw [methodsOf, valueAt?_of_mem h.nodup_owners listed, Option.getD_some, same]
  exact made

end Document.MadeOf

/-- What the pages of a document have from its statements. -/
structure Document.Paged (d : Document) : Prop where
  covers : (d.pages.flatMap fun p => p.statements) = d.statements
  filled : ∀ p ∈ d.pages, p.statements ≠ []
  ordered : StatementsOrdered d.statements

theorem Document.MadeOf.paged {spans : List PageSpan} {own shared : List (Id × List Method)}
    (h : d.MadeOf config spans own shared) (extracted : extract script = .ok d.statements) :
    d.Paged := by
  obtain ⟨ordered, deed⟩ := extract_ordered extracted
  have partition := PageSpan.pagePartition_ofStatements deed h.found
  rw [← h.binds.spans, List.map_map] at partition
  refine ⟨?_, ?_, ordered⟩
  · have covers := partition.covers
    rwa [List.flatMap_map] at covers
  · intro p hp idle
    have acts := partition.active p.toClosedPage (List.mem_map.mpr ⟨p, hp, rfl⟩)
    simp [OpenPage.hasActions, idle] at acts

namespace Document.Paged

variable {p : Page}

theorem sublist_statements (h : d.Paged) (hp : p ∈ d.pages) :
    p.statements.Sublist d.statements := by
  rw [← h.covers, List.flatMap_def]
  have one : p.statements ∈ d.pages.map fun p => p.statements := List.mem_map_of_mem hp
  exact (List.infix_of_mem_flatten one).sublist

/-- Each page ends before the next one starts. -/
theorem pairwise_lastLine_lt (h : d.Paged) :
    d.pages.Pairwise fun a b => a.lastLine < b.firstLine := by
  have ordered := h.ordered.ordered
  rw [← h.covers] at ordered
  refine (List.pairwise_flatMap.mp ordered).2.imp_of_mem ?_
  intro a b ha hb before
  obtain ⟨t, rest, ht⟩ := List.exists_cons_of_ne_nil (h.filled b hb)
  have ends : (a.statements.map fun s => s.endLine) ≠ [] := by simpa using h.filled a ha
  obtain ⟨n, hn⟩ := Option.ne_none_iff_exists'.mp (mt List.max?_eq_none_iff.mp ends)
  obtain ⟨s, hs, he⟩ := List.mem_map.mp (List.max?_mem hn)
  have last : a.lastLine = s.endLine := by
    rw [Page.lastLine, lastLine?, hn, Option.getD_some, he]
  have first : b.firstLine = t.line := by
    simp [Page.firstLine, ht]
  rw [last, first]
  exact before s hs t (by simp [ht])

theorem linesIncrease (h : d.Paged) (hp : p ∈ d.pages)
    (all : p.items.map Item.statement = p.statements.filter fun s => !s.isStructural) :
    LinesIncrease p.items := by
  have kept : (p.items.map Item.statement).Sublist d.statements := by
    rw [all]
    exact List.filter_sublist.trans (h.sublist_statements hp)
  refine (List.pairwise_map.mp (h.ordered.ordered.sublist kept)).imp_of_mem ?_
  intro i j hi _ before
  have := h.ordered.spans i.statement (kept.subset (List.mem_map_of_mem hi))
  show i.statement.line < j.statement.line
  omega

end Document.Paged

end PageObjects
