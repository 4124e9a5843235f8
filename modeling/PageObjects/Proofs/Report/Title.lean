import PageObjects.Proofs.Component.Title
import PageObjects.Proofs.Page.Title
import PageObjects.Proofs.Report.Parts

namespace PageObjects

/-- The names of pages and components are not empty, have letters and decimal digits only, and are
different. A name starts with a letter, and so is an identifier, exactly if the first word of what
is named is no number. -/
theorem analyze_names {config : Config} {name : Option Text} {script : Text} {d : Document}
    (h : analyze config name script = .ok d) :
    ((∃ titles : List Text, ∀ (k : Nat) (p : Page), d.pages[k]? = some p →
        ∃ title, titles[k]? = some title ∧ p.IsNamed (titles.take k) title) ∧
      (d.pages.map fun p => p.name).Nodup) ∧
    (∀ c ∈ d.components, IsVariant c.title c.name ∧ IsTitleOf c.nameWords.head? c.name) ∧
      (d.components.map Component.name).Nodup := by
  obtain ⟨-, spans, own, shared, made⟩ := exists_madeOf h
  obtain ⟨⟨titles, named⟩, distinct⟩ := PageSpan.named_ofStatements made.found
  have components := nameComponents_named (chooseComponents config.components d.pages).drafts
  have chosen : d.components = nameComponents (chooseComponents config.components d.pages).drafts :=
    made.components
  rw [chosen]
  refine ⟨⟨⟨titles, fun k p hp => named k p.toPageSpan ?_⟩, ?_⟩, components⟩
  · rw [← made.binds.spans, List.getElem?_map, hp]
    rfl
  · rwa [← made.binds.spans, List.map_map] at distinct

/-- A menu that is left for another page and back in it. -/
def numberedMenu : Text :=
  "await page.locator('nav').getByText('2 items').click();\nawait page.waitForURL('/2fa');\n" ++
    "await page.locator('nav').getByText('2 items').click();\nawait page.waitForURL('/home');\n" ++
    "await page.locator('nav').getByText('2 items').click();"

theorem analyze_names_numberedMenu :
    ∃ d, analyze {} none numberedMenu = .ok d ∧
      (d.pages.map fun p => p.name) = [("MainPage" : Text), "2FaPage", "HomePage"] ∧
      d.components.map Component.name = [("2ItemsMenu" : Text)] ∧
      (∃ titles : List Text, ∀ (k : Nat) (p : Page), d.pages[k]? = some p →
        ∃ title, titles[k]? = some title ∧ p.IsNamed (titles.take k) title) ∧
      ∀ c ∈ d.components, IsTitleOf c.nameWords.head? c.name := by
  have found : (analyze {} none numberedMenu).toOption.any (fun d =>
      (d.pages.map fun p => p.name) == [("MainPage" : Text), "2FaPage", "HomePage"] &&
        d.components.map Component.name == [("2ItemsMenu" : Text)]) = true := by
    decide +kernel
  obtain ⟨d, h, found⟩ := exists_ok_of_any found
  obtain ⟨pages, components⟩ := Bool.and_eq_true_iff.mp found
  obtain ⟨⟨titles, -⟩, named, -⟩ := analyze_names h
  exact ⟨d, h, beq_iff_eq.mp pages, beq_iff_eq.mp components, titles, fun c hc => (named c hc).2⟩

/-- The name of a page whose URL starts with a number is no identifier. -/
theorem exists_page_without_identifier :
    ∃ d, analyze {} none "await page.goto('/2fa');" = .ok d ∧
      ∃ p ∈ d.pages, p.name = "2FaPage" ∧ ¬IsIdentifier p.name := by
  have found : (analyze {} none "await page.goto('/2fa');").toOption.any (fun d =>
      d.pages.any fun p => p.name == ("2FaPage" : Text)) = true := by
    decide +kernel
  obtain ⟨d, h, found⟩ := exists_ok_of_any found
  obtain ⟨p, hp, named⟩ := List.any_eq_true.mp found
  refine ⟨d, h, p, hp, beq_iff_eq.mp named, ?_⟩
  rw [beq_iff_eq.mp named]
  decide +kernel

end PageObjects
