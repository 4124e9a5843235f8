import PageObjects.Config.Basic
import PageObjects.Page.Boundary

namespace PageObjects

/-- A page that statements are still added to. The host is the number of the page that a dialog, a
tab or the page behind a closed dialog belongs to. -/
structure OpenPage where
  origin : Origin
  confidence : Nat
  entry : Boundary
  url : Option Text := none
  urlIsPattern : Bool := false
  pageVariable : Option Text := none
  nameHint : Option Text := none
  host : Option Nat := none
  statements : List Statement := []
  deriving Repr

def OpenPage.hasActions (p : OpenPage) : Bool := p.statements.any fun s => !s.isStructural

def OpenPage.add (p : OpenPage) (s : Statement) : OpenPage :=
  { p with statements := p.statements ++ [s] }

/-- The page before anything is known. -/
def OpenPage.first : OpenPage :=
  { origin := .start, confidence := Origin.start.confidence, entry := { kind := .startOfInput } }

/-- A page that is complete, with what closes it. -/
structure ClosedPage extends OpenPage where
  exit : Boundary
  deriving Repr

/-- The pages so far: the closed ones, the open one, the URLs that navigation went through, and the
URL at which each tab was left. -/
structure Paging where
  closed : List ClosedPage := []
  current : OpenPage := .first
  history : List (Option Text) := []
  tabUrls : List (Text × Option Text) := []
  deriving Repr

/-- What is known about a page when it is opened. -/
structure Entrance where
  origin : Origin
  boundary : Boundary
  url : Option Text := none
  urlIsPattern : Bool := false
  pageVariable : Option Text := none
  nameHint : Option Text := none
  host : Option Nat := none

namespace Paging

/-- The number of the open page. -/
def number (p : Paging) : Nat := p.closed.length

/-- The URLs of the tabs once the tab of the open page is known to show `url`. -/
def tabUrlsWith (p : Paging) (url : Option Text) : List (Text × Option Text) :=
  match p.current.pageVariable with
  | some v => setEntry v url p.tabUrls
  | none => p.tabUrls

/-- The page that an entrance opens; it stays on the tab of the page before unless it says
otherwise. -/
def opened (p : Paging) (e : Entrance) : OpenPage :=
  { origin := e.origin
    confidence := e.origin.confidence
    entry := e.boundary
    url := e.url
    urlIsPattern := e.urlIsPattern
    pageVariable := e.pageVariable.or p.current.pageVariable
    nameHint := e.nameHint
    host := e.host }

/-- The closed pages, the last of them with another exit. -/
def withLastExit (exit : Boundary) (pages : List ClosedPage) : List ClosedPage :=
  match pages.getLast? with
  | some last => pages.dropLast ++ [{ last with exit := exit }]
  | none => []

/-- Closes the open page with what closes it. -/
def close (p : Paging) (exit : Boundary) : List ClosedPage :=
  p.closed ++ [{ p.current with exit := exit }]

/-- Opens a page. One that holds no action yet is not closed but gets the new description, so that
no page is without actions; it is not its own host. -/
def enter (p : Paging) (e : Entrance) : Paging :=
  let next := p.opened e
  let tabUrls := p.tabUrlsWith p.current.url
  if p.current.hasActions then
    { p with closed := p.close e.boundary, current := next, tabUrls := tabUrls }
  else
    { p with
      closed := withLastExit e.boundary p.closed
      current := { next with
        host := if e.host = some p.number then none else e.host
        statements := p.current.statements }
      tabUrls := tabUrls }

/-- Goes to a URL, back or forward. Going back returns to the URL before; where going forward leads
is not known. -/
def navigate (p : Paging) (s : Statement) : Paging :=
  let entrance : Entrance :=
    { origin := .history, boundary := .at .navigation s, pageVariable := s.pageVariable }
  if s.verb = some ("goto" : Text) then
    { p with history := p.history ++ [s.url] }.enter
      { entrance with
        origin := .navigation, url := s.url, urlIsPattern := isPatternArgument s.arguments.head? }
  else if s.verb = some ("goBack" : Text) then
    if 2 ≤ p.history.length then
      let history := p.history.dropLast
      { p with history := history }.enter { entrance with url := history.getLast?.join }
    else p.enter entrance
  else if s.verb = some ("goForward" : Text) then p.enter entrance
  else p

/-- Waits for a URL; one that is not that of the open page opens another page behind the
statement. -/
def waitForUrl (options : PageOptions) (p : Paging) (s : Statement) : Except UrlError Paging :=
  match s.url with
  | none => .ok p
  | some target =>
    if !options.urlChangeOpensPage then .ok p
    else do
      let isPattern := isPatternArgument s.arguments.head?
      if ← samePage options.threshold isPattern target p.current.url then return p
      let boundary := Boundary.at .urlChange s
      return { p with
        closed := p.close boundary
        current :=
          { origin := .urlChange
            confidence :=
              if p.current.url.isSome then Origin.urlChange.confidence else unknownOriginConfidence
            entry := boundary
            url := some target
            urlIsPattern := isPattern
            pageVariable := p.current.pageVariable }
        history := p.history ++ [some target]
        tabUrls := p.tabUrlsWith (some target) }

/-- The other tab that a statement acts on. -/
def switchedTab? (p : Paging) (s : Statement) : Option Text :=
  match s.pageVariable, p.current.pageVariable with
  | some v, some w => if v = w then none else some v
  | _, _ => none

/-- The page that is opened before a statement that does not navigate, if there is one. -/
def entrance? (options : PageOptions) (p : Paging) (s : Statement) : Option Entrance :=
  let isDialog := s.subtype == some .dialog
  if let some tab := p.switchedTab? s then
    some {
      origin := .pageSwitch
      boundary := .at .pageSwitch s
      pageVariable := some tab
      url := (valueAt? tab p.tabUrls).join
      nameHint := some tab }
  else if options.modals = .page ∧ s.isModalSignal ∧ p.current.origin ≠ .modal ∧ !isDialog then
    some {
      origin := .modal
      boundary := .at .modalOpen s
      url := p.current.url
      nameHint := s.selector
      host := some p.number }
  else if p.current.origin = .modal ∧ !s.isModalSignal ∧ s.kind ≠ .wait ∧ !isDialog then
    some {
      origin := .modalClose
      boundary := .at .modalClose s
      url := (p.current.host.bind fun n => p.closed[n]?).bind fun h => h.url
      host := p.current.host }
  else if options.tabsOpenPages ∧ s.isTabSignal then
    some {
      origin := .tab
      boundary := .at .tabSwitch s
      url := p.current.url
      nameHint := s.selector
      host := if p.current.origin = .tab then p.current.host else some p.number }
  else none

def add (p : Paging) (s : Statement) : Paging := { p with current := p.current.add s }

/-- The first statement that names a tab tells that of the open page. -/
def noteTab (p : Paging) (s : Statement) : Paging :=
  if p.current.pageVariable.isNone then
    { p with current := { p.current with pageVariable := s.pageVariable } }
  else p

/-- The pages after one more statement. -/
def step (options : PageOptions) (p : Paging) (s : Statement) : Except UrlError Paging :=
  if s.isStructural then .ok (p.add s)
  else
    let p := p.noteTab s
    if s.kind = .navigation then .ok ((p.navigate s).add s)
    else
      let p := match p.entrance? options s with
        | some e => p.enter e
        | none => p
      let p := p.add s
      if s.kind = .wait ∧ s.verb = some ("waitForURL" : Text) then p.waitForUrl options s else .ok p

/-- All pages at the end of the input. What stands behind the last action belongs to its page. -/
def finish (p : Paging) : List ClosedPage :=
  let last := { p.current with exit := .after p.current.statements : ClosedPage }
  match p.closed.getLast?, p.current.hasActions with
  | some before, false =>
    let statements := before.statements ++ p.current.statements
    p.closed.dropLast ++ [{ before with statements := statements, exit := .after statements }]
  | _, _ => p.closed ++ [last]

/-- The states after each of the statements. -/
def trace (options : PageOptions) (p : Paging) : List Statement → Except UrlError (List Paging)
  | [] => .ok []
  | s :: rest => do
    let p ← p.step options s
    return p :: (← trace options p rest)

/-- The state after all statements. -/
def run (options : PageOptions) (p : Paging) (statements : List Statement) :
    Except UrlError Paging :=
  statements.foldlM (step options) p

end Paging

end PageObjects
