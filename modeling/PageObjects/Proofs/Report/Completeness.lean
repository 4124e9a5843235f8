import PageObjects.Proofs.Report.Parts

namespace PageObjects

/-- Ids of one kind that are numbered from one on. -/
def Consecutive (kind : Nat → Id) (found : List Json) : Prop :=
  found = (List.range' 1 found.length).map fun n => idText (kind n)

/-- All kinds of ids, with the places where they say what a thing is. -/
def idPlaces : List ((Nat → Id) × List (List Text)) := [
  (Id.page, pageIds), (Id.action, actionIds), (Id.assertion, assertionIds),
  (Id.component, componentIds), (Id.selector, selectorIds), (Id.sequence, sequenceIds),
  (Id.method, methodIds)]

/-- The lines of a page among which it lists statements like the given one. -/
def Page.linesLike (p : Page) (s : Statement) : List Nat :=
  if s.isStructural then p.structuralLines
  else if s.isCheck then p.assertions.map Assertion.line
  else p.actions.map Action.line

/-- What makes a document complete. -/
structure Document.Complete (d : Document) : Prop where
  actions : (d.pages.flatMap Page.actions).map Action.statement =
    d.statements.filter fun s => s.isDeed
  assertions : (d.pages.flatMap Page.assertions).map Assertion.statement =
    d.statements.filter fun s => s.isCheck
  structural : d.pages.flatMap Page.structuralLines =
    (d.statements.filter fun s => s.isStructural).map fun s => s.line
  once : ∀ s ∈ d.statements, (d.pages.flatMap fun p => p.linesLike s).count s.line = 1
  items : ∀ p ∈ d.pages, LinesIncrease p.items
  pages : d.pages.Pairwise fun a b => a.lastLine < b.firstLine
  numbered : ∀ entry ∈ idPlaces, Consecutive entry.1 (d.idsAt entry.2)

theorem consecutive_of_numbers {α : Type} {l : List α} {number : α → Nat} (kind : Nat → Id)
    (h : l.map number = List.range' 1 l.length) :
    Consecutive kind ((l.map fun x => kind (number x)).map idText) := by
  have mapped := congrArg (List.map fun n => idText (kind n)) h
  rw [List.map_map] at mapped
  rw [Consecutive, List.length_map, List.length_map, List.map_map]
  exact mapped

variable {config : Config} {d : Document} {spans : List PageSpan}
  {own shared : List (Id × List Method)}

theorem consecutive_idsAt (h : d.MadeOf config spans own shared) :
    ∀ entry ∈ idPlaces, Consecutive entry.1 (d.idsAt entry.2) := by
  simp only [idPlaces, List.forall_mem_cons]
  refine ⟨?_, ?_, ?_, ?_, ?_, ?_, ?_, by simp⟩
  · rw [d.idsAt_pageIds]
    exact consecutive_of_numbers Id.page h.binds.numbers
  · rw [d.idsAt_actionIds]
    exact consecutive_of_numbers Id.action h.binds.actionNumbers
  · rw [d.idsAt_assertionIds]
    exact consecutive_of_numbers Id.assertion h.binds.assertionNumbers
  · rw [d.idsAt_componentIds]
    exact consecutive_of_numbers Id.component h.componentNumbers
  · rw [d.idsAt_selectorIds]
    exact consecutive_of_numbers Id.selector h.selectorNumbers
  · rw [d.idsAt_sequenceIds]
    refine consecutive_of_numbers Id.sequence ?_
    rw [map_succ_zipIdx, List.length_zipIdx]
  · rw [d.idsAt_methodIds, h.listedMethods]
    exact consecutive_of_numbers Id.method h.methodNumbers

namespace Document.Paged

theorem filter_statements (h : d.Paged) (p : Statement → Bool) :
    (d.pages.flatMap fun q => q.statements.filter p) = d.statements.filter p := by
  rw [← h.covers, List.filter_flatMap]

theorem flatMap_structuralLines (h : d.Paged) : d.pages.flatMap Page.structuralLines =
    (d.statements.filter fun s => s.isStructural).map fun s => s.line := by
  rw [← h.filter_statements, List.map_flatMap]
  rfl

theorem nodup_lines (h : d.Paged) : (d.statements.map fun s => s.line).Nodup := by
  refine List.pairwise_map.mpr (h.ordered.ordered.imp_of_mem ?_)
  intro s t hs _ before same
  have := h.ordered.spans s hs
  omega

end Document.Paged

/-- Statements are listed once, as they stand on lines of their own. -/
theorem Document.Paged.once (h : d.Paged)
    (actions : (d.pages.flatMap Page.actions).map Action.statement =
      d.statements.filter fun s => s.isDeed)
    (assertions : (d.pages.flatMap Page.assertions).map Assertion.statement =
      d.statements.filter fun s => s.isCheck) {s : Statement} (hs : s ∈ d.statements) :
    (d.pages.flatMap fun p => p.linesLike s).count s.line = 1 := by
  have count : ∀ p : Statement → Bool, p s = true →
      ((d.statements.filter p).map fun s => s.line).count s.line = 1 := by
    intro p hp
    refine List.count_eq_one_of_mem (h.nodup_lines.sublist (List.filter_sublist.map _)) ?_
    exact List.mem_map.mpr ⟨s, List.mem_filter.mpr ⟨hs, hp⟩, rfl⟩
  unfold Page.linesLike
  by_cases structural : s.isStructural = true
  · simp only [structural, if_true]
    rw [h.flatMap_structuralLines]
    exact count (fun s => s.isStructural) structural
  · by_cases check : s.isCheck = true
    · simp only [structural, check, if_true]
      have lines : (d.pages.flatMap fun p => p.assertions.map Assertion.line) =
          (d.statements.filter fun s => s.isCheck).map fun s => s.line := by
        rw [← assertions, List.map_map, List.map_flatMap]
        rfl
      exact lines ▸ count (fun s => s.isCheck) check
    · have kind : s.kind ≠ .assertion := by simpa [Content.isCheck] using check
      have deed : s.isDeed = true := by simp [Content.isDeed, structural, kind]
      simp only [structural, check]
      have lines : (d.pages.flatMap fun p => p.actions.map Action.line) =
          (d.statements.filter fun s => s.isDeed).map fun s => s.line := by
        rw [← actions, List.map_map, List.map_flatMap]
        rfl
      exact lines ▸ count (fun s => s.isDeed) deed

theorem Document.MadeOf.complete (h : d.MadeOf config spans own shared) (paged : d.Paged) :
    d.Complete := by
  have actions : (d.pages.flatMap Page.actions).map Action.statement =
      d.statements.filter fun s => s.isDeed := by
    rw [← paged.filter_statements, List.map_flatMap]
    exact List.flatMap_congr h.binds.actions
  have assertions : (d.pages.flatMap Page.assertions).map Assertion.statement =
      d.statements.filter fun s => s.isCheck := by
    rw [← paged.filter_statements, List.map_flatMap]
    exact List.flatMap_congr h.binds.assertions
  refine ⟨actions, assertions, paged.flatMap_structuralLines, ?_, ?_, paged.pairwise_lastLine_lt,
    consecutive_idsAt h⟩
  · intro s hs
    exact paged.once actions assertions hs
  · intro p hp
    exact paged.linesIncrease hp (h.binds.all p hp)

/-- Every document of a script is complete with respect to the statements that are extracted from
the script. -/
theorem analyze_complete {config : Config} {name : Option Text} {script : Text} {d : Document}
    (h : analyze config name script = .ok d) :
    extract script = .ok d.statements ∧ d.Complete := by
  obtain ⟨extracted, spans, own, shared, made⟩ := exists_madeOf h
  exact ⟨extracted, made.complete (made.paged extracted)⟩

/-- A menu on two pages, with a line that does nothing and a check. -/
def menuScript : Text :=
  "// The menu is on both pages.\npage.click('nav a');\npage.waitForURL('/cart');\n" ++
    "page.click('nav a');\nexpect(page.locator('h1')).toBeVisible();"

theorem analyze_complete_menuScript :
    ∃ d, analyze {} none menuScript = .ok d ∧
      (d.pages.map fun p => p.actions.map Action.number) = [[1, 2], [3]] ∧
      d.listedMethods.map Method.number = [1, 2, 3] ∧
      extract menuScript = .ok d.statements ∧ d.Complete := by
  have found : (analyze {} none menuScript).toOption.any (fun d =>
      (d.pages.map fun p => p.actions.map Action.number) == [[1, 2], [3]] &&
        d.listedMethods.map Method.number == [1, 2, 3]) = true := by
    decide +kernel
  obtain ⟨d, h, found⟩ := exists_ok_of_any found
  obtain ⟨actions, methods⟩ := Bool.and_eq_true_iff.mp found
  obtain ⟨extracted, complete⟩ := analyze_complete h
  exact ⟨d, h, beq_iff_eq.mp actions, beq_iff_eq.mp methods, extracted, complete⟩

end PageObjects
