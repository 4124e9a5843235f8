import PageObjects.Proofs.Plain.Method
import PageObjects.Report.Advice
import PageObjects.Report.Sequence

namespace PageObjects

def RegistryEntry.plain (e : RegistryEntry) : RegistryEntry :=
  { e with selector := e.selector.plain }

namespace Registry

theorem note_plain (n : Nat) (s : AssessedSelector) (user : Id × Nat) (r : Registry) :
    note n s.plain user (r.map RegistryEntry.plain) =
      (note n s user r).map RegistryEntry.plain := by
  induction r generalizing n with
  | nil => rfl
  | cons e rest ih =>
    rw [List.map_cons, note, note, ih]
    by_cases known : e.selector.raw = s.raw
    · have again : e.plain.selector.raw = s.plain.raw := known
      rw [if_pos again, if_pos known]
      rfl
    · have other : ¬ e.plain.selector.raw = s.plain.raw := known
      rw [if_neg other, if_neg known]
      rfl

theorem noteItem_plain (r : Registry) (i : Item) :
    noteItem (r.map RegistryEntry.plain) i.plain = (noteItem r i).map RegistryEntry.plain := by
  rw [noteItem, noteItem, Item.selector_plain]
  cases i.selector with
  | none => rfl
  | some s =>
    rw [Option.map_some, Item.id_plain, Item.line_plain]
    exact note_plain 0 s _ r

theorem ofItems_plain (items : List Item) :
    ofItems (items.map Item.plain) = (ofItems items).map RegistryEntry.plain :=
  foldl_map_of_comm (List.map RegistryEntry.plain) Item.plain noteItem_plain items []

@[simp] theorem numberOf?_plain (r : Registry) (raw : Text) :
    numberOf? (r.map RegistryEntry.plain) raw = numberOf? r raw := by
  rw [numberOf?, numberOf?, List.find?_map, Option.map_map]
  rfl

end Registry

theorem blocksOf_plain (tests : List Statement) (items : List Item) :
    blocksOf tests (items.map Item.plain) = blocksOf tests items := by
  have lines : (items.map Item.plain).map Item.line = items.map Item.line := by
    simp [Function.comp_def]
  cases tests with
  | nil => rfl
  | cons first rest => rw [blocksOf, blocksOf, lines]

theorem stepOf_plain (methods : List Method) (page : Nat) (i : Item) :
    stepOf methods page i.plain = stepOf methods page i := by
  rw [stepOf, stepOf, Item.id_plain, Item.line_plain]

theorem Block.sequence_plain (methods : List Method) (pages : List Page) (b : Block) :
    b.sequence methods (pages.map Page.plain) = b.sequence methods pages := by
  have steps : ∀ p : Page, (p.plain.items.filter fun i => b.holds i.line).map
      (stepOf methods p.number) =
      (p.items.filter fun i => b.holds i.line).map (stepOf methods p.number) := by
    intro p
    rw [Page.items_plain, List.filter_map, List.map_map]
    simp only [Function.comp_def, Item.line_plain, stepOf_plain]
  rw [sequence, sequence, List.flatMap_map]
  exact congrArg (fun steps => Sequence.mk b.name (firstCalls [] (pages.flatMap steps)))
    (funext steps)

theorem sequencesOf_plain (statements : List Statement) (pages : List Page)
    (methods : List (Id × List Method)) :
    sequencesOf statements (pages.map Page.plain) methods =
      sequencesOf statements pages methods := by
  have sequences : Block.sequence (pageMethods methods) (pages.map Page.plain) =
      Block.sequence (pageMethods methods) pages :=
    funext (Block.sequence_plain (pageMethods methods) pages)
  rw [sequencesOf, sequencesOf, allItems_plain, blocksOf_plain, sequences]

theorem architecturalAdvice_plain (pages : List Page) (components : List Recommendation) :
    architecturalAdvice (pages.map Page.plain) components =
      architecturalAdvice pages components := by
  have shared : sharedPattern? (pages.map Page.plain) = sharedPattern? pages := by
    funext pattern
    simp [sharedPattern?, List.filter_map, Function.comp_def]
  simp [architecturalAdvice, shared, List.filterMap_map, Function.comp_def]

theorem refactoringAdvice_plain (methods : List Method) (registry : Registry) :
    refactoringAdvice methods (registry.map RegistryEntry.plain) =
      refactoringAdvice methods registry := by
  rw [refactoringAdvice, refactoringAdvice, List.filter_map, List.map_map]
  rfl

@[simp] theorem Item.advice_plain (i : Item) : i.plain.advice = i.advice := by
  cases i <;> rfl

/-- Whether a recommendation is about something else than a fragile selector. -/
def Recommendation.ignoresFragility : Recommendation → Bool
  | .fragileSelector .. => false
  | _ => true

/-- Whether fragile selectors are flagged decides about nothing else. -/
theorem qualityAdvice_plain (flags flags' : Bool) (pages : List Page) (components : List Component)
    (methods : List Method) (registry : Registry) :
    (qualityAdvice flags (pages.map Page.plain) (components.map Component.plain) methods
        (registry.map RegistryEntry.plain)).filter Recommendation.ignoresFragility =
      (qualityAdvice flags' pages components methods registry).filter
        Recommendation.ignoresFragility := by
  have flagged : ∀ entries : List RegistryEntry, (entries.map fun e =>
      Recommendation.fragileSelector e.selector.raw e.selector.fragility e.number e.lines).filter
        Recommendation.ignoresFragility = [] := by
    intro entries
    simp [List.filter_map, Function.comp_def, Recommendation.ignoresFragility]
  have uncertain : ((components.map Component.plain).filter fun c =>
      c.confidence < lowConfidence).map (fun c =>
        Recommendation.uncertainComponent c.name c.confidence c.number) =
      (components.filter fun c => c.confidence < lowConfidence).map fun c =>
        Recommendation.uncertainComponent c.name c.confidence c.number := by
    rw [List.filter_map, List.map_map]
    rfl
  have doubtful : ((pages.map Page.plain).filter fun p => p.confidence < lowConfidence).map
      (fun p => Recommendation.uncertainPage p.name p.origin p.confidence p.number p.firstLine) =
      (pages.filter fun p => p.confidence < lowConfidence).map fun p =>
        Recommendation.uncertainPage p.name p.origin p.confidence p.number p.firstLine := by
    rw [List.filter_map, List.map_map]
    rfl
  have advice : (allItems (pages.map Page.plain)).flatMap Item.advice =
      (allItems pages).flatMap Item.advice := by
    rw [allItems_plain, List.flatMap_map]
    exact List.flatMap_congr fun i _ => i.advice_plain
  simp only [qualityAdvice, List.filter_append, flagged, uncertain, doubtful, advice]

theorem statementWarnings_plain (pages : List Page) :
    statementWarnings (pages.map Page.plain) = statementWarnings pages := by
  rw [statementWarnings, List.flatMap_map]
  rfl

theorem assertionWarnings_plain (pages : List Page) :
    assertionWarnings (pages.map Page.plain) = assertionWarnings pages := by
  rw [assertionWarnings, assertionWarnings, allAssertions_plain, List.filter_map, List.map_map]
  rfl

theorem length_actions_plain (pages : List Page) :
    ((pages.map Page.plain).flatMap Page.actions).length = (pages.flatMap Page.actions).length := by
  simp [List.flatMap_map]

theorem limitWarnings_plain (pages : List Page) (components : List Component) :
    limitWarnings (pages.map Page.plain) (components.map Component.plain) =
      limitWarnings pages components := by
  rw [limitWarnings, limitWarnings, length_actions_plain, List.length_map, List.length_map]

end PageObjects
