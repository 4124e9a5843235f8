import PageObjects.Proofs.Locator.Excess
import PageObjects.Proofs.Page.Visit
import PageObjects.Proofs.Report.Integrity

namespace PageObjects

/-- A statement whose URLs can be split: the one that it acts on and the one that it expects. -/
structure Statement.Legible (s : Statement) : Prop where
  readable : s.Readable
  expects : ∀ a : Assertion, a.statement = s → a.type = .url →
    ∀ t, a.expected = some (.text t) → CanSplit t

/-- Legible statements have pages, and these have URLs that can be split. -/
theorem exists_spans_of_legible (options : PageOptions) {statements : List Statement}
    (legible : ∀ s ∈ statements, s.Legible) :
    ∃ spans, PageSpan.ofStatements options statements = .ok spans ∧
      ∀ span ∈ spans, ∀ url, span.url = some url → CanSplit url := by
  obtain ⟨p, hr, urls⟩ := Paging.exists_run options (Paging.urlsAre_start CanSplit)
    fun s hs => (legible s hs).readable
  obtain ⟨spans, hn⟩ := exists_nameSpans urls.url_of_mem_finish [] []
  refine ⟨spans, by rw [PageSpan.ofStatements, hr]; exact hn, ?_⟩
  intro span hs
  have same := map_toClosedPage_nameSpans hn
  exact urls.url_of_mem_finish span.toClosedPage (same ▸ List.mem_map_of_mem hs)

/-- Every item of the pages is a statement. -/
theorem PagesBind.statement_mem {spans : List PageSpan} {pages : List Page}
    {statements : List Statement} (h : PagesBind 1 {} spans pages)
    (covers : (spans.flatMap fun span => span.statements) = statements) {p : Page} (hp : p ∈ pages)
    {i : Item} (hi : i ∈ p.items) : i.statement ∈ statements := by
  have own : i.statement ∈ p.statements := by
    have listed : i.statement ∈ p.items.map Item.statement := List.mem_map_of_mem hi
    rw [h.all p hp] at listed
    exact (List.mem_filter.mp listed).1
  rw [← covers, ← h.spans, List.flatMap_map]
  exact List.mem_flatMap.mpr ⟨p, hp, own⟩

theorem Item.readable_of_legible {i : Item} (h : i.statement.Legible) : i.Readable := by
  cases i with
  | action a => exact fun _ url hu => (h.readable url hu).1
  | assertion a => exact h.expects a rfl

theorem exists_methodsOfAll (options : MethodOptions) (usages : List (Nat × Nat))
    {owners : List (Owner × List Item)}
    (h : ∀ o ∈ owners, (∀ u, o.1.url = some u → CanSplit u) ∧ ∀ i ∈ o.2, i.Readable) :
    ∃ found, methodsOfAll options usages owners = .ok found := by
  induction owners with
  | nil => exact ⟨([], []), rfl⟩
  | cons o rest ih =>
    obtain ⟨url, readable⟩ := h o List.mem_cons_self
    obtain ⟨methods, warnings, hm⟩ : ∃ methods warnings,
        methodsOf options usages o.1 o.2 = .ok (methods, warnings) :=
      exists_methodsOf url readable
    obtain ⟨found, hf⟩ := ih fun o' ho => h o' (List.mem_cons_of_mem _ ho)
    exact ⟨_, by simp only [methodsOfAll, hm, hf, bind, Except.bind]; rfl⟩

/-- What components take reads no URL. -/
theorem readable_of_mem_componentOwner {options : ComponentOptions} {pages : List Page}
    {c : Component} (hc : c ∈ (findComponents options pages).components) :
    ∀ i ∈ (componentOwner c).2, i.Readable := by
  obtain ⟨o, -, model, p, -, on⟩ := exists_isOn_model hc
  intro i hi
  obtain ⟨a, ha, rfl⟩ := List.mem_map.mp hi
  rw [model] at ha
  have works := on.isPatternItem a ha
  intro nav
  simp [Action.isPatternItem, nav] at works

/-- Pages that can be read have methods, and so have the components that are found on them. -/
theorem exists_suggestMethods (options : MethodOptions) (components : ComponentOptions)
    {pages : List Page} (urls : ∀ p ∈ pages, ∀ u, p.url = some u → CanSplit u)
    (readable : ∀ p ∈ pages, ∀ i ∈ p.items, i.Readable) :
    ∃ found, suggestMethods options pages (findComponents components pages).components =
      .ok found := by
  have owners : ∀ o ∈ pageOwners pages,
      (∀ u, o.1.url = some u → CanSplit u) ∧ ∀ i ∈ o.2, i.Readable := by
    intro o ho
    obtain ⟨p, hp, next, rfl, -⟩ := mem_pageOwners ho
    exact ⟨urls p hp, readable p hp⟩
  have shared : ∀ o ∈ (findComponents components pages).components.map componentOwner,
      (∀ u, o.1.url = some u → CanSplit u) ∧ ∀ i ∈ o.2, i.Readable := by
    intro o ho
    obtain ⟨c, hc, rfl⟩ := List.mem_map.mp ho
    exact ⟨by simp [componentOwner], readable_of_mem_componentOwner hc⟩
  obtain ⟨own, hown⟩ :=
    exists_methodsOfAll options (usages (findComponents components pages).components) owners
  obtain ⟨others, hothers⟩ := exists_methodsOfAll options [] shared
  exact ⟨_, by simp only [suggestMethods, hown, hothers, bind, Except.bind]; rfl⟩

/-- A statement of which something is too much to be read: a number or an array among its arguments,
or something in its selector. -/
def Statement.Exceeds (s : Statement) (e : Excess) : Prop :=
  s.excess = some e ∨ s.selectorExcess? = some e

/-- The pages of legible statements, one of which is a deed, have a document. -/
theorem exists_ofSpans (config : Config) (name : Option Text) (lines : Nat)
    {statements : List Statement} (deed : ∃ s ∈ statements, s.isStructural = false)
    (legible : ∀ s ∈ statements, s.Legible) :
    ∃ spans, PageSpan.ofStatements config.pages statements = .ok spans ∧
      ∃ d, Document.ofSpans config name lines statements spans = .ok d := by
  obtain ⟨spans, found, urls⟩ := exists_spans_of_legible config.pages legible
  have covers := (PageSpan.pagePartition_ofStatements deed found).covers
  rw [List.flatMap_map] at covers
  have binds := pagesBind_placeAssertions config.selectors spans
  have pages : ∀ p ∈ placeAssertions (Page.ofSpans config.selectors spans),
      ∀ u, p.url = some u → CanSplit u :=
    fun p hp => urls p.toPageSpan (binds.spans ▸ List.mem_map_of_mem hp)
  obtain ⟨suggested, hs⟩ := exists_suggestMethods config.methods config.components pages
    fun p hp i hi => Item.readable_of_legible (legible _ (binds.statement_mem covers hp hi))
  exact ⟨spans, found, _, by simp only [Document.ofSpans, hs, bind, Except.bind]; rfl⟩

/-- Legible statements, one of which is a deed, have a document if nothing is too much about their
selectors. -/
theorem exists_document (config : Config) (name : Option Text) (lines : Nat)
    {statements : List Statement} (deed : ∃ s ∈ statements, s.isStructural = false)
    (legible : ∀ s ∈ statements, s.Legible) (fits : ∀ s ∈ statements, s.selectorExcess? = none) :
    ∃ d, Document.ofStatements config name lines statements = .ok d := by
  obtain ⟨spans, found, d, made⟩ := exists_ofSpans config name lines deed legible
  exact ⟨d, Document.ofStatements_eq_ok_iff.mpr ⟨spans, found, fits, made⟩⟩

/-- What keeps statements from a document is a selector that is too much, or a URL. -/
theorem cases_of_ofStatements_eq_error {config : Config} {name : Option Text} {lines : Nat}
    {statements : List Statement} {e : AnalysisError}
    (h : Document.ofStatements config name lines statements = .error e) :
    (∃ excess, e = .excess excess ∧ ∃ s ∈ statements, s.selectorExcess? = some excess) ∨
      ∃ fault, e = .url fault := by
  rw [Document.ofStatements] at h
  split at h
  next fault _ => exact .inr ⟨fault, (Except.error.inj h).symm⟩
  next spans _ =>
    split at h
    next excess first =>
      exact .inl ⟨excess, (Except.error.inj h).symm, List.exists_of_findSome?_eq_some first⟩
    next =>
      cases made : Document.ofSpans config name lines statements spans with
      | ok d =>
        rw [made] at h
        cases h
      | error fault =>
        rw [made] at h
        exact .inr ⟨fault, (Except.error.inj h).symm⟩

/-- A URL keeps statements from a document only if one of them is illegible. -/
theorem exists_illegible {config : Config} {name : Option Text} {lines : Nat}
    {statements : List Statement} {fault : UrlError}
    (deed : ∃ s ∈ statements, s.isStructural = false)
    (h : Document.ofStatements config name lines statements = .error (.url fault)) :
    ∃ s ∈ statements, ¬ s.Legible := by
  by_contra readable
  have legible : ∀ s ∈ statements, s.Legible := by
    intro s hs
    by_contra bad
    exact readable ⟨s, hs, bad⟩
  obtain ⟨spans, found, d, made⟩ := exists_ofSpans config name lines deed legible
  rw [Document.ofStatements, found] at h
  dsimp only at h
  rw [made] at h
  split at h
  next => cases h
  next => cases h

/-- What an analysis of a script can come to: it is refused as blank or as it does nothing,
something in it is too much to be read, it has a document with all its statements, or a URL in it
cannot be split. -/
inductive AnalysisOutcome (script : Text) : Except AnalysisError Document → Prop where
  | empty (blank : (Text.trim script).isEmpty = true) :
    AnalysisOutcome script (.error (.script .empty))
  | nothing (filled : (Text.trim script).isEmpty = false)
    (idle : ∀ s ∈ Statement.ofText script, s.isStructural = true) :
    AnalysisOutcome script (.error (.script .nothingRecognized))
  | oversized {e : Excess} (filled : (Text.trim script).isEmpty = false) (beyond : e.IsBeyond)
    (blamed : ∃ s ∈ Statement.ofText script, s.Exceeds e) :
    AnalysisOutcome script (.error (.excess e))
  | document {d : Document} (filled : (Text.trim script).isEmpty = false)
    (deed : ∃ s ∈ Statement.ofText script, s.isStructural = false)
    (fits : ∀ s ∈ Statement.ofText script, ∀ e, ¬ s.Exceeds e)
    (statements : d.statements = Statement.ofText script) (complete : d.Complete)
    (intact : d.Intact) : AnalysisOutcome script (.ok d)
  | illegible {e : UrlError} (filled : (Text.trim script).isEmpty = false)
    (deed : ∃ s ∈ Statement.ofText script, s.isStructural = false)
    (blamed : ∃ s ∈ Statement.ofText script, ¬ s.Legible) :
    AnalysisOutcome script (.error (.url e))

/-- A script in which no number is too much and something is done is analyzed by its statements
alone. -/
theorem analyze_of_deed (config : Config) (name : Option Text) {script : Text}
    (filled : (Text.trim script).isEmpty = false)
    (fits : ∀ s ∈ Statement.ofText script, s.excess = none)
    (deed : ∃ s ∈ Statement.ofText script, s.isStructural = false) :
    extract script = .ok (Statement.ofText script) ∧
      analyze config name script = Document.ofStatements config name (Text.lines script).length
        (Statement.ofText script) := by
  have extracted : extract script = .ok (Statement.ofText script) :=
    extract_eq_ok_iff.mpr ⟨fits, deed, rfl⟩
  refine ⟨extracted, ?_⟩
  rw [analyze, filled, extracted]
  rfl

theorem outcome_of_deed {config : Config} {name : Option Text} {script : Text}
    (filled : (Text.trim script).isEmpty = false)
    (fits : ∀ s ∈ Statement.ofText script, s.excess = none)
    (deed : ∃ s ∈ Statement.ofText script, s.isStructural = false) :
    AnalysisOutcome script (analyze config name script) := by
  obtain ⟨extracted, result⟩ := analyze_of_deed config name filled fits deed
  cases built : Document.ofStatements config name (Text.lines script).length
      (Statement.ofText script) with
  | ok d =>
    rw [built] at result
    obtain ⟨same, spans, own, shared, made⟩ := exists_madeOf result
    have paged := made.paged same
    have statements : d.statements = Statement.ofText script :=
      Except.ok.inj (same.symm.trans extracted)
    obtain ⟨-, -, selectors, -⟩ := Document.ofStatements_eq_ok_iff.mp built
    have within : ∀ s ∈ Statement.ofText script, ∀ e, ¬ s.Exceeds e := by
      rintro s hs e (own | selector)
      · rw [fits s hs] at own
        cases own
      · rw [selectors s hs] at selector
        cases selector
    rw [result]
    exact .document filled deed within statements (made.complete paged) (made.intact paged)
  | error e =>
    rw [result, built]
    rcases cases_of_ofStatements_eq_error built with ⟨excess, rfl, s, hs, own⟩ | ⟨fault, rfl⟩
    · exact .oversized filled (Statement.isBeyond_of_selectorExcess? own) ⟨s, hs, .inr own⟩
    · exact .illegible filled deed (exists_illegible deed built)

/-- A statement that every analysis gets by: nothing in it is too much, it has no URL and it checks
none. -/
structure Statement.Harmless (s : Statement) : Prop where
  fits : s.excess = none
  selector : s.selectorExcess? = none
  url : s.url = none
  checks : AssertionType.ofMatcher ((nonEmpty s.verb).getD "unknown") ≠ .url

instance (s : Statement) : Decidable s.Harmless :=
  decidable_of_iff (s.excess = none ∧ s.selectorExcess? = none ∧ s.url = none ∧
      AssertionType.ofMatcher ((nonEmpty s.verb).getD "unknown") ≠ .url)
    ⟨fun ⟨fits, selector, url, checks⟩ => ⟨fits, selector, url, checks⟩,
      fun h => ⟨h.fits, h.selector, h.url, h.checks⟩⟩

theorem Statement.Harmless.legible {s : Statement} (h : s.Harmless) : s.Legible where
  readable url hu := by
    rw [h.url] at hu
    cases hu
  expects := by
    rintro a rfl type
    exact absurd type h.checks

/-- Nothing keeps a script with harmless statements only from its document. -/
theorem exists_document_of_harmless (config : Config) (name : Option Text) {script : Text}
    (filled : (Text.trim script).isEmpty = false)
    (deed : ∃ s ∈ Statement.ofText script, s.isStructural = false)
    (harmless : ∀ s ∈ Statement.ofText script, s.Harmless) :
    ∃ d, analyze config name script = .ok d := by
  obtain ⟨d, hd⟩ := exists_document config name (Text.lines script).length deed
    (fun s hs => (harmless s hs).legible) fun s hs => (harmless s hs).selector
  exact ⟨d, (analyze_of_deed config name filled (fun s hs => (harmless s hs).fits) deed).2.trans hd⟩

/-- A statement with a number that is too much stops the analysis. -/
theorem exists_error_of_excess (config : Config) (name : Option Text) {script : Text}
    (filled : (Text.trim script).isEmpty = false) {s : Statement}
    (hs : s ∈ Statement.ofText script) (tooMuch : s.excess ≠ none) :
    ∃ e, analyze config name script = .error (.excess e) ∧
      ∃ s ∈ Statement.ofText script, s.excess = some e := by
  obtain ⟨e, refused, blamed⟩ := exists_extract_of_excess hs tooMuch
  refine ⟨e, ?_, blamed⟩
  rw [analyze, filled, refused]
  rfl

theorem analysisOutcome_analyze (config : Config) (name : Option Text) (script : Text) :
    AnalysisOutcome script (analyze config name script) := by
  cases filled : (Text.trim script).isEmpty with
  | true =>
    rw [analyze, filled]
    exact .empty filled
  | false =>
    by_cases fits : ∀ s ∈ Statement.ofText script, s.excess = none
    · by_cases deed : ∃ s ∈ Statement.ofText script, s.isStructural = false
      · exact outcome_of_deed filled fits deed
      · have idle : ∀ s ∈ Statement.ofText script, s.isStructural = true := by
          intro s hs
          by_contra acts
          exact deed ⟨s, hs, Bool.eq_false_iff.mpr acts⟩
        rw [analyze, filled, extract_of_idle fits idle]
        exact .nothing filled idle
    · push Not at fits
      obtain ⟨s, hs, tooMuch⟩ := fits
      obtain ⟨e, stops, t, ht, own⟩ := exists_error_of_excess config name filled hs tooMuch
      rw [stops]
      exact .oversized filled (Statement.isBeyond_of_excess ht own) ⟨t, ht, .inl own⟩

/-- A visit of a URL whose path cannot be split off stops the analysis. -/
theorem exists_error_of_visit (config : Config) (name : Option Text) {script : Text}
    (filled : (Text.trim script).isEmpty = false)
    (fits : ∀ s ∈ Statement.ofText script, s.excess = none) {s : Statement}
    (hs : s ∈ Statement.ofText script) {url : Text} (visit : s.Visits url)
    (broken : ∀ path, urlPath url ≠ .ok path) :
    ∃ e, analyze config name script = .error (.url e) := by
  have deed : s.isStructural = false := by simp [Content.isStructural, visit.kind]
  obtain ⟨-, result⟩ := analyze_of_deed config name filled fits ⟨s, hs, deed⟩
  cases found : PageSpan.ofStatements config.pages (Statement.ofText script) with
  | ok spans =>
    obtain ⟨path, split⟩ := visit.exists_urlPath hs found
    exact absurd split (broken path)
  | error e =>
    rw [result, Document.ofStatements, found]
    exact ⟨e, rfl⟩

/-- A visit of a host in a bracket that does not close. -/
def openBracketVisit : Text := "await page.goto('http://[x');\n"

end PageObjects
