import PageObjects.Method.Suggestion
import PageObjects.Report.Registry

namespace PageObjects

/-- The pages with the given pattern, if there are several. -/
def sharedPattern? (pages : List Page) (pattern : Text) : Option Recommendation :=
  let shared := pages.filter fun p => p.urlPattern == some pattern
  if shared.length < 2 then none
  else some (.sharedUrlPattern pattern (shared.map (·.name)) (shared.map (·.number))
    (shared.map Page.firstLine))

/-- What pages should share. -/
def architecturalAdvice (pages : List Page) (components : List Recommendation) :
    List Recommendation :=
  let patterns := (pages.filterMap fun p => nonEmpty p.urlPattern).eraseDups
  (if 2 ≤ pages.length then [.basePage (pages.map (·.number))] else []) ++
    patterns.filterMap (sharedPattern? pages) ++ components

def Method.range (m : Method) : List Nat := [m.firstLine, m.lastLine]

/-- What to split and what to define once. -/
def refactoringAdvice (methods : List Method) (registry : Registry) : List Recommendation :=
  ((methods.filter fun m => complexityLimit < m.complexity).map fun m =>
    .highComplexity m.name m.complexity (m.signals.map ComplexitySignal.name) m.number m.range) ++
  (registry.filter RegistryEntry.isRepeated).map fun e =>
    .duplicateSelector e.selector.raw e.number (e.users.map (·.1)) e.lines

/-- What is doubtful about an item. -/
def Item.advice : Item → List Recommendation
  | .action a => if a.wait.isHarmful then [.fixedWait a.number a.line] else []
  | .assertion a =>
    if a.type = .custom then [.customAssertion a.matcher a.number a.line] else []

/-- What to look at again. -/
def qualityAdvice (flagsFragile : Bool) (pages : List Page) (components : List Component)
    (methods : List Method) (registry : Registry) : List Recommendation :=
  let fragile := if flagsFragile then registry.filter RegistryEntry.isFragile else []
  (fragile.map fun e =>
    .fragileSelector e.selector.raw e.selector.fragility e.number e.lines) ++
  (allItems pages).flatMap Item.advice ++
  ((pages.filter fun p => p.confidence < lowConfidence).map fun p =>
    .uncertainPage p.name p.origin p.confidence p.number p.firstLine) ++
  ((components.filter fun c => c.confidence < lowConfidence).map fun c =>
    .uncertainComponent c.name c.confidence c.number) ++
  (methods.filter Method.isGeneric).map fun m =>
    .genericName m.name m.naming.alternatives m.number m.range

/-- A warning if there is more of something than an analysis is sized for. -/
def limitWarning (limit : Limit) (count : Nat) : List Warning :=
  if limit.bound < count then [.limitExceeded limit count] else []

def limitWarnings (pages : List Page) (components : List Component) : List Warning :=
  limitWarning .actions (pages.flatMap Page.actions).length ++
    limitWarning .pages pages.length ++ limitWarning .components components.length

end PageObjects
