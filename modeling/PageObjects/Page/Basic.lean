import PageObjects.Action.Basic
import PageObjects.Page.Span

namespace PageObjects

/-- A numbered page and what happens on it, in source order. -/
structure Page extends PageSpan where
  number : Nat
  items : List Item
  deriving Repr

namespace Page

def id (p : Page) : Id := .page p.number

def actions (p : Page) : List Action := p.items.filterMap Item.action?

def assertions (p : Page) : List Assertion := p.items.filterMap Item.assertion?

/-- The lines of the statements that do nothing on the page. -/
def structuralLines (p : Page) : List Nat :=
  (p.statements.filter fun s => s.isStructural).map (·.line)

def firstLine (p : Page) : Nat := (p.statements.head?.map (·.line)).getD 0

def lastLine (p : Page) : Nat := (lastLine? p.statements).getD 0

end Page

/-- The selector of a statement, assessed. -/
def Content.assessed? (options : SelectorOptions) (c : Content) : Option AssessedSelector :=
  (nonEmpty c.selector).map fun e =>
    (Selector.ofExpression e).assess options.preferred c.verb options.suggests

/-- The action that a statement is, with the given number. -/
def Action.ofStatement (options : SelectorOptions) (number : Nat) (s : Statement) : Action :=
  let selector := s.assessed? options
  { number := number
    statement := s
    wait := s.wait
    selector := selector
    parameters := (s.parameter? (selector.map (·.toSelector))).toList.map fun p =>
      { p with actions := [number] } }

/-- The assertion that a statement is, with the given number. -/
def Assertion.ofStatement (options : SelectorOptions) (number : Nat) (s : Statement) : Assertion :=
  { number := number, statement := s, selector := s.assessed? options }

/-- How many actions and assertions there are before the next one. -/
structure Tally where
  actions : Nat := 0
  assertions : Nat := 0
  deriving DecidableEq, Repr

/-- The items of statements, numbered on from a tally, and the tally behind them. -/
def bindStatements (options : SelectorOptions) (tally : Tally) :
    List Statement → List Item × Tally
  | [] => ([], tally)
  | s :: rest =>
    match s.kind with
    | .structural => bindStatements options tally rest
    | .assertion =>
      let n := tally.assertions + 1
      let (items, last) := bindStatements options { tally with assertions := n } rest
      (.assertion (.ofStatement options n s) :: items, last)
    | _ =>
      let n := tally.actions + 1
      let (items, last) := bindStatements options { tally with actions := n } rest
      (.action (.ofStatement options n s) :: items, last)

/-- Pages with their items, numbered on from the given numbers. -/
def bindSpans (options : SelectorOptions) (number : Nat) (tally : Tally) :
    List PageSpan → List Page
  | [] => []
  | span :: rest =>
    let (items, last) := bindStatements options tally span.statements
    { span with number := number, items := items } ::
      bindSpans options (number + 1) last rest

/-- The pages that some stretches of statements are. -/
def Page.ofSpans (options : SelectorOptions) (spans : List PageSpan) : List Page :=
  bindSpans options 1 {} spans

/-- What is doubtful about a statement. -/
def Statement.warnings (s : Statement) : List Warning :=
  (if s.sharesLine then [.sharedLine s.line] else []) ++
    (if s.subtype = some .custom ∧ s.kind ≠ .assertion ∧ !s.isStructural then
      [.unsupportedAction (s.verb.getD "None") s.line] else [])

def statementWarnings (pages : List Page) : List Warning :=
  pages.flatMap fun p => p.statements.flatMap Statement.warnings

/-- All items of a document in source order. -/
def allItems (pages : List Page) : List Item := pages.flatMap (·.items)

end PageObjects
