import PageObjects.Proofs.Method.Name
import PageObjects.Proofs.Report.Parts

namespace PageObjects

namespace Document.MadeOf

variable {config : Config} {d : Document} {spans : List PageSpan}
  {own shared : List (Id × List Method)}

theorem verbFits (h : d.MadeOf config spans own shared) (paged : d.Paged)
    (extracted : ∀ s ∈ d.statements, s.IsExtracted) {p : Page} (hp : p ∈ d.pages) {a : Action}
    (ha : a ∈ p.actions) : a.statement.VerbFits := by
  have own : a.statement ∈ p.statements := by
    have bound : a.statement ∈ p.actions.map Action.statement := List.mem_map_of_mem ha
    rw [h.binds.actions p hp] at bound
    exact (List.mem_filter.mp bound).1
  exact (extracted _ ((paged.sublist_statements hp).subset own)).verbFits

/-- Every entry of methods is that of an owner with actions of the pages. -/
theorem exists_owner (h : d.MadeOf config spans own shared) {entry : Id × List Method}
    (he : entry ∈ d.methods) : ∃ usages owner, Owner.Entry config.methods usages owner entry ∧
      ∀ a, Item.action a ∈ owner.2 → ∃ p ∈ d.pages, a ∈ p.actions := by
  rw [h.methods] at he
  rcases List.mem_append.mp he with he | he
  · obtain ⟨owner, ho, made⟩ := exists_left_of_mem h.suggested.pages he
    refine ⟨_, owner, made, fun a ha => ?_⟩
    obtain ⟨k, hk⟩ := List.mem_iff_getElem?.mp ho
    rw [getElem?_pageOwners] at hk
    obtain ⟨p, hp, rfl⟩ := Option.map_eq_some_iff.mp hk
    exact ⟨p, List.mem_of_getElem? hp, List.mem_filterMap.mpr ⟨_, ha, rfl⟩⟩
  · obtain ⟨owner, ho, made⟩ := exists_left_of_mem h.suggested.components he
    refine ⟨_, owner, made, fun a ha => ?_⟩
    obtain ⟨c, hc, rfl⟩ := List.mem_map.mp ho
    rw [h.components] at hc
    obtain ⟨o, -, model, p, hp, on⟩ := exists_isOn_model hc
    obtain ⟨b, hb, same⟩ := List.mem_map.mp ha
    cases same
    rw [model] at hb
    exact ⟨p, hp, on.sublist_actions.subset hb⟩

end Document.MadeOf

/-- The name of every method is an identifier that is no reserved word, and no other method of its
owner has it. -/
theorem analyze_methodNames {config : Config} {name : Option Text} {script : Text} {d : Document}
    (h : analyze config name script = .ok d) :
    (∀ m ∈ d.allMethods, IsMethodName m.name) ∧
      d.allMethods.Pairwise fun a b => a.owner = b.owner → a.name ≠ b.name := by
  obtain ⟨extracted, spans, own, shared, made⟩ := exists_madeOf h
  have paged := made.paged extracted
  have names : ∀ entry ∈ d.methods, MethodNames [] (entry.2.map Method.name) := by
    intro entry he
    obtain ⟨usages, owner, makes, seen⟩ := made.exists_owner he
    refine makes.names fun a ha => ?_
    obtain ⟨p, hp, ha⟩ := seen a ha
    exact made.verbFits paged (isExtracted_of_extract extracted) hp ha
  have owners : ∀ entry ∈ d.methods, ∀ m ∈ entry.2, m.owner = entry.1 := by
    intro entry he m hm
    obtain ⟨usages, owner, makes, -⟩ := made.exists_owner he
    obtain ⟨e, -, naming, n, rfl⟩ := makes.exists_draft hm
    exact makes.1.symm
  constructor
  · intro m hm
    obtain ⟨entry, he, hm⟩ := List.mem_flatMap.mp hm
    exact (names entry he).usable _ (List.mem_map_of_mem hm)
  · refine List.pairwise_flatMap.mpr ⟨fun entry he => ?_, ?_⟩
    · refine (List.pairwise_map.mp (names entry he).distinct).imp ?_
      intro a b differ _
      exact differ
    · refine (List.pairwise_map.mp made.nodup_owners).imp_of_mem ?_
      intro a b ha hb differ m hm n hn same
      rw [owners a ha m hm, owners b hb n hn] at same
      exact absurd same differ

/-- Clicks on a number and on a reserved word, on a page each. -/
def numberedVisit : Text :=
  "await page.getByText('2 items').click();\nawait page.waitForURL('/basket');\n" ++
    "await page.getByRole('button', \x7b name: 'Delete' \x7d).click();"

theorem analyze_methodNames_numberedVisit :
    ∃ d, analyze {} none numberedVisit = .ok d ∧
      d.allMethods.map Method.name = [("click2Items" : Text), "clickDelete"] ∧
      (∀ m ∈ d.allMethods, IsMethodName m.name) ∧
      d.allMethods.Pairwise fun a b => a.owner = b.owner → a.name ≠ b.name := by
  have found : (analyze {} none numberedVisit).toOption.any (fun d =>
      d.allMethods.map Method.name == [("click2Items" : Text), "clickDelete"]) = true := by
    decide +kernel
  obtain ⟨d, h, found⟩ := exists_ok_of_any found
  exact ⟨d, h, beq_iff_eq.mp found, analyze_methodNames h⟩

end PageObjects
