import PageObjects.Method.Naming

namespace PageObjects

/-- What makes a method complex, apart from its size. -/
inductive ComplexitySignal where
  | branching | repetition | fileUpload | multipleAssertions | crossPage | delegation
  deriving DecidableEq, Repr

namespace ComplexitySignal

def name : ComplexitySignal → Text
  | branching => "branching"
  | repetition => "repetition"
  | fileUpload => "file_upload"
  | multipleAssertions => "multiple_assertions"
  | crossPage => "cross_page"
  | delegation => "component_delegation"

def weight : ComplexitySignal → Nat
  | branching => 15
  | repetition => 20
  | fileUpload => 10
  | multipleAssertions => 15
  | crossPage => 20
  | delegation => 10

end ComplexitySignal

/-- Complexity above which a method should be split. -/
def complexityLimit : Nat := 50

/-- A suggested method. It belongs to a page or a component; generic names rest on nothing. -/
structure Method where
  number : Nat := 0
  owner : Id
  kind : MethodKind
  naming : Naming
  actions : List Nat
  assertions : List Nat
  parameters : List Parameter
  complexity : Nat
  signals : List ComplexitySignal
  firstLine : Nat
  lastLine : Nat
  returnsPage : Option Nat := none
  component : Option Nat := none
  deriving Repr

namespace Method

def id (m : Method) : Id := .method m.number

def name (m : Method) : Text := m.naming.name

/-- Whether nothing but a number names the method. Checks are named after what they check. -/
def isGeneric (m : Method) : Bool := m.kind != .verification && m.naming.rule == .generic

end Method

/-- Lower-case letters and digits of a name; parameters that agree in them are one. -/
def parameterKey (name : Text) : Text :=
  (Text.lower name).filter fun c => ('a' ≤ c && c ≤ 'z') || c.isDigit

/-- Adds a parameter to those with other keys; one that is there already keeps its values and gets
the new actions. -/
def mergeParameter (merged : List (Text × Parameter)) (p : Parameter) :
    List (Text × Parameter) :=
  let key := parameterKey p.name
  match valueAt? key merged with
  | none => merged ++ [(key, p)]
  | some old =>
    setEntry key
      { old with actions := old.actions ++ p.actions.filter fun n => !old.actions.contains n }
      merged

/-- The parameters of actions, those of one key as one. -/
def mergeParameters (actions : List Action) : List Parameter :=
  ((actions.flatMap (·.parameters)).foldl mergeParameter []).map (·.2)

namespace Draft

/-- What makes a draft complex, given whether it leads to another page. -/
def signals (d : Draft) (crossesPages : Bool) : List ComplexitySignal :=
  let blocks := d.actions.flatMap fun a => a.statement.blocks
  let all : List (Bool × ComplexitySignal) := [
    (blocks.contains .branch, .branching), (blocks.contains .loop, .repetition),
    (d.actions.any fun a => a.statement.subtype == some .fileUpload, .fileUpload),
    (2 ≤ d.assertions.length, .multipleAssertions), (crossesPages, .crossPage),
    (d.kind == .delegation, .delegation)]
  all.filterMap fun (holds, signal) => if holds then some signal else none

/-- Five for an action, ten for an input, and the weight of each signal. -/
def complexity (d : Draft) (parameters : List Parameter) (signals : List ComplexitySignal) : Nat :=
  5 * d.actions.length + 10 * (parameters.filter (·.isInput)).length +
    (signals.map ComplexitySignal.weight).foldr (· + ·) 0

/-- The page that a draft of a page leads to: the next one, if an action opens a tab or waits for
the URL at which the page ends. -/
def returnsPage? (d : Draft) (page : Option Page) (next : Option Page) : Option Nat :=
  match page, next with
  | some p, some n =>
    let exitLine := if p.exit.kind = .urlChange then p.exit.line else none
    if d.actions.any fun a => a.statement.subtype == some .newTab ||
        (a.verbIn ["waitForURL"] && some a.line == exitLine) then some n.number
    else none
  | _, _ => none

/-- The method that a draft becomes. -/
def toMethod (d : Draft) (owner : Id) (naming : Naming) (page next : Option Page) : Method :=
  let parameters := mergeParameters d.actions
  let returns := d.returnsPage? page next
  let signals := d.signals returns.isSome
  { owner := owner
    kind := d.kind
    naming := naming
    actions := d.actions.map (·.number)
    assertions := d.assertions.map (·.number)
    parameters := parameters
    complexity := d.complexity parameters signals
    signals := signals
    firstLine := d.firstLine
    lastLine := d.lastLine
    returnsPage := returns
    component := d.component }

end Draft

/-- A method without a name of its own is doubtful. -/
def namelessWarnings (d : Draft) (m : Method) : List Warning :=
  if m.isGeneric then
    [.genericName m.owner m.firstLine m.lastLine m.name d.lines.mergeSort]
  else []

end PageObjects
