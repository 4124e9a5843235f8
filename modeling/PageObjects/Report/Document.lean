import PageObjects.Locator.Excess
import PageObjects.Report.Advice
import PageObjects.Report.Sequence
import PageObjects.Script.Extract

namespace PageObjects

/-- Why a script has no document. -/
inductive AnalysisError where
  | script (error : ScriptError)
  | excess (error : Excess)
  | url (error : UrlError)
  deriving DecidableEq, Repr

def AnalysisError.message : AnalysisError → Text
  | script e => e.message
  | excess e => e.message
  | url e => e.message

def AnalysisError.ofExtraction : ExtractionError → AnalysisError
  | .script e => script e
  | .excess e => excess e

/-- Everything that is found out about a script. -/
structure Document where
  sourceName : Option Text
  totalLines : Nat
  statements : List Statement
  pages : List Page
  components : List Component
  methods : List (Id × List Method)
  registry : Registry
  sequences : List Sequence
  architectural : List Recommendation
  refactoring : List Recommendation
  quality : List Recommendation
  warnings : List Warning

namespace Document

def allMethods (d : Document) : List Method := d.methods.flatMap (·.2)

/-- The methods of an owner. -/
def methodsOf (d : Document) (owner : Id) : List Method := (valueAt? owner d.methods).getD []

end Document

/-- What is too much about the selector of a statement that does something. -/
def Statement.selectorExcess? (s : Statement) : Option Excess :=
  if s.isStructural then none else (nonEmpty s.selector).bind Selector.excess?

/-- The document of some statements and their pages, in the text of which there are `totalLines`
lines. -/
def Document.ofSpans (config : Config) (sourceName : Option Text) (totalLines : Nat)
    (statements : List Statement) (spans : List PageSpan) : Except UrlError Document := do
  let pages := placeAssertions (Page.ofSpans config.selectors spans)
  let found := findComponents config.components pages
  let suggested ← suggestMethods config.methods pages found.components
  let methods := suggested.methods.flatMap (·.2)
  let registry := Registry.ofItems (allItems pages)
  return {
    sourceName := sourceName
    totalLines := totalLines
    statements := statements
    pages := pages
    components := found.components
    methods := suggested.methods
    registry := registry
    sequences := sequencesOf statements pages suggested.methods
    architectural := architecturalAdvice pages found.recommendations
    refactoring := refactoringAdvice methods registry
    quality :=
      qualityAdvice config.selectors.flagsFragile pages found.components methods registry
    warnings :=
      pageWarnings spans ++ statementWarnings pages ++ assertionWarnings pages ++
        suggested.warnings ++ limitWarnings pages found.components }

/-- The document of some statements, if all their selectors can be read. -/
def Document.ofStatements (config : Config) (sourceName : Option Text) (totalLines : Nat)
    (statements : List Statement) : Except AnalysisError Document :=
  match PageSpan.ofStatements config.pages statements with
  | .error e => .error (.url e)
  | .ok spans =>
    match statements.findSome? Statement.selectorExcess? with
    | some e => .error (.excess e)
    | none => (ofSpans config sourceName totalLines statements spans).mapError .url

/-- Analyzes a script. -/
def analyze (config : Config) (sourceName : Option Text) (script : Text) :
    Except AnalysisError Document :=
  if (Text.trim script).isEmpty then .error (.script .empty)
  else match extract script with
    | .error e => .error (.ofExtraction e)
    | .ok statements =>
      Document.ofStatements config sourceName (Text.lines script).length statements

end PageObjects
