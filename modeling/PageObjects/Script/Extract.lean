import PageObjects.Script.Classify

namespace PageObjects

/-- Why a script cannot be analyzed. -/
inductive ScriptError where
  | empty
  | nothingRecognized
  deriving DecidableEq, Repr

def ScriptError.message : ScriptError → Text
  | empty => "Script is empty"
  | nothingRecognized => "No navigation, interaction, wait or assertion statements found"

/-- Why no statements are extracted from a script. -/
inductive ExtractionError where
  | script (error : ScriptError)
  | excess (error : Excess)
  deriving DecidableEq, Repr

/-- The blocks around the next statement: a closing bracket at the front leaves the innermost one,
and what remains enters or leaves blocks by its curly brackets. -/
def updateBlocks (blocks : List BlockKind) (content : Content) (source : Text) : List BlockKind :=
  if content.role = some .comment then blocks
  else
    let t := Text.trim source
    let (blocks, t) := match t with
      | '}' :: r => (blocks.dropLast, r)
      | r => (blocks, r)
    let delta := braceDelta t
    if 0 < delta then
      if opensBlock t then blocks ++ [StructuralRole.blockKind content.role] else blocks
    else blocks.take (blocks.length - delta.natAbs)

/-- What is known between two statements. -/
structure Extraction where
  scope : Scope := {}
  blocks : List BlockKind := []

/-- The statement of a logical line, and what is known after it. -/
def Extraction.step (state : Extraction) (line : LogicalLine) : Statement × Extraction :=
  let (content, scope) := classifyLine state.scope line.text
  ({ content with
      line := line.first
      endLine := line.last
      source := line.text
      blocks := state.blocks
      sharesLine := !content.isStructural && hasMultipleStatements line.text },
    { scope := scope, blocks := updateBlocks state.blocks content line.text })

/-- The statements of logical lines, each seen in the light of those before it. -/
def statementsFrom (state : Extraction) : List LogicalLine → List Statement
  | [] => []
  | line :: rest =>
    let (statement, state) := state.step line
    statement :: statementsFrom state rest

/-- The statements of a text, also of one that does nothing on a page. -/
def Statement.ofText (t : Text) : List Statement := statementsFrom {} (LogicalLine.ofText t)

/-- The statements of a script that does something on a page, if none of them is too much. -/
def extract (t : Text) : Except ExtractionError (List Statement) :=
  let statements := Statement.ofText t
  match statements.findSome? fun s => s.excess with
  | some e => .error (.excess e)
  | none =>
    if statements.all fun s => s.isStructural then .error (.script .nothingRecognized)
    else .ok statements

end PageObjects
