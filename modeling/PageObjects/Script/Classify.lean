import PageObjects.Script.Marker
import PageObjects.Script.Vocabulary

namespace PageObjects

/-- What a locator variable stands for: a selector expression and the page it was taken from. -/
structure Binding where
  selector : Text
  page : Option Text
  deriving DecidableEq, Repr

/-- The variables known at a point of a script. -/
structure Scope where
  pages : List Text := ["page", "this.page"]
  bindings : List (Text × Binding) := []
  deriving Repr

/-- The variable that a receiver path starts from; a field of `this` counts as one. -/
def receiverName? : List Text → Option Text
  | [] => none
  | [name] => some name
  | first :: second :: _ => if first = "this" then some ("this." ++ second) else some first

/-- Whether a variable name says that it holds a page. -/
def namesPage (name : Text) : Bool :=
  let tail := (Text.pieces (· == '.') name).getLastD []
  tail == ("page" : Text) || tail == ("popup" : Text) || Text.endsWithAny ["Page", "Popup"] tail

namespace Scope

def binding? (scope : Scope) (receiver : List Text) : Option Binding :=
  (receiverName? receiver).bind fun name => valueAt? name scope.bindings

/-- The page variable that a receiver path starts from. -/
def pageVariable? (scope : Scope) (receiver : List Text) : Option Text :=
  match receiverName? receiver with
  | none => none
  | some name =>
    match valueAt? name scope.bindings with
    | some bound => bound.page
    | none => if scope.pages.contains name || namesPage name then some name else none

def addPage (scope : Scope) (name : Text) : Scope := { scope with pages := name :: scope.pages }

def bind (scope : Scope) (name : Text) (binding : Binding) : Scope :=
  { scope with bindings := setEntry name binding scope.bindings }

end Scope

/-- The locator steps at the front, and the steps behind them. A property at the very end is no
locator step. -/
def splitAccessors : List Segment → List Segment × List Segment
  | [] => ([], [])
  | s :: rest =>
    if isAccessor s && (!rest.isEmpty || s.isCall) then
      let (accessors, others) := splitAccessors rest
      (s :: accessors, others)
    else ([], s :: rest)

/-- The selector that a chain locates with, from its locator variable and its locator steps, and
the steps behind them. -/
def splitLocator (scope : Scope) (chain : Chain) : Option Text × List Segment :=
  let (accessors, others) := splitAccessors chain.segments
  let bound := ((scope.binding? chain.receiver).map (·.selector)).filter fun t => !t.isEmpty
  let own := if accessors.isEmpty then none else some (renderSegments accessors)
  let parts := bound.toList ++ own.toList
  (if parts.isEmpty then none else some (Text.joinWith ['.'] parts), others)

/-- The values of the arguments that are literals. -/
def literalArguments (args : List Text) : List Literal := args.filterMap Literal.read?

/-- The value of a string argument, or the argument itself. -/
def stringOrSource (arg : Text) : Text :=
  match Literal.string? arg with
  | some [] => arg
  | some t => t
  | none => arg

def timeoutOf? (args : Option Text) : Option Nat := args.bind timeoutOption?

/-- What is too much about a timeout. -/
def timeoutExcess? (args : Option Text) : Option Excess :=
  (args.bind timeoutDigits?).bind Text.digitExcess?

/-- An expectation: its subject is the argument of the first call, its matcher the last call. -/
def classifyAssertion (scope : Scope) (chain : Chain) : Content :=
  let subject := ((chain.segments.head?.map Segment.arguments).getD []).headD []
  let last := chain.lastCall?
  let isBare := chain.calls.length ≤ 1 && (chain.segments.head?.any Segment.isCall)
  let matcher := if isBare then ("unknown" : Text) else (last.map (·.name)).getD "unknown"
  let args := (last.map Segment.arguments).getD []
  let subjectChain := Chain.parse subject
  let pageVariable := scope.pageVariable? subjectChain.receiver
  let located := (scope.binding? subjectChain.receiver).isSome ||
    (pageVariable.isSome && !subjectChain.segments.isEmpty)
  { kind := .assertion
    verb := some matcher
    selector := if located then (splitLocator scope subjectChain).1 else none
    literals := literalArguments args
    arguments := args
    url := if matcher = "toHaveURL" then args.head?.map stringOrSource else none
    negated := chain.segments.any fun s => s.name == ("not" : Text) && !s.isCall
    pageVariable := pageVariable
    timeout := timeoutOf? (last.bind (·.args))
    excess := (Literal.excessAmong? args).or (timeoutExcess? (last.bind (·.args))) }

/-- What sets an interaction apart, the verb it is recorded with and the arguments it keeps. -/
def interactionDetails (verb body : Text) (args : List Text) :
    Option Subtype × Text × List Text :=
  if (verb = "on" ∨ verb = "once") ∧ args ≠ [] then
    let event := (args.head?.bind Literal.string?)
    if event = some ("dialog" : Text) then (some .dialog, "handleDialog", args.take 1)
    else if event = some ("popup" : Text) then (some .newTab, verb, args.take 1)
    else (some .custom, verb, args.take 1)
  else if verb = "waitForEvent" then
    if awaitsFileChooser body then (some .fileUpload, verb, args)
    else if awaitsPopup body then (some .newTab, verb, args)
    else (some .custom, verb, args)
  else if verb = "setInputFiles" then (some .fileUpload, verb, args)
  else if verb = "bringToFront" then (some .tabSwitch, verb, args)
  else if interactionVerbs.contains verb then (none, verb, args)
  else if queryVerbs.contains verb then (some .query, verb, args)
  else (some .custom, verb, args)

/-- An action call on a page or a locator: its verb is the last call behind the locator steps. -/
def classifyAction (body : Text) (owner : Option Text) (pageVariable selector : Option Text)
    (action : Segment) : Content :=
  let verb := action.name
  let args := action.arguments
  let timeout := timeoutOf? action.args
  let excess (kept : List Text) := (timeoutExcess? action.args).or (Literal.excessAmong? kept)
  if owner = some ("keyboard" : Text) ∨ owner = some ("mouse" : Text) then
    { kind := .interaction, verb := some verb
      subtype := some (if owner = some ("keyboard" : Text) then .keyboard else .mouse)
      literals := literalArguments args, arguments := args
      pageVariable := pageVariable, timeout := timeout, excess := excess args }
  else
    let (selector, args) :=
      if selector.isNone && selectorFirstVerbs.contains verb then
        match args with
        | first :: rest => (some first, rest)
        | [] => (selector, args)
      else (selector, args)
    if navigationVerbs.contains verb && selector.isNone then
      { kind := .navigation, verb := some verb
        url := if verb = "goto" then args.head?.map stringOrSource else none
        literals := literalArguments args, arguments := args
        pageVariable := pageVariable, timeout := timeout, excess := excess args }
    else if waitVerbs.contains verb then
      { kind := .wait, verb := some verb, selector := selector
        url := if verb = "waitForURL" then args.head?.map stringOrSource else none
        literals := literalArguments args, arguments := args
        pageVariable := pageVariable, timeout := timeout, excess := excess args }
    else
      let (subtype, verb, args) := interactionDetails verb body args
      { kind := .interaction, verb := some verb, selector := selector, subtype := subtype
        literals := literalArguments args, arguments := args
        pageVariable := pageVariable, timeout := timeout, excess := excess args }

/-- Whether a chain is an expectation. -/
def isExpectation (chain : Chain) : Bool :=
  chain.receiver == [("expect" : Text)] ||
    (chain.receiver.isEmpty && (chain.segments.head?.any fun s => s.name == ("expect" : Text)))

/-- Whether a chain starts from a browser context. -/
def startsFromContext (chain : Chain) : Bool :=
  chain.receiver.head?.any contextNames.contains

/-- What a call does, if it has to do with a page. -/
def classifyCall (scope : Scope) (body : Text) : Option Content :=
  let chain := Chain.parse body
  if chain.segments.isEmpty then none
  else if isExpectation chain then some (classifyAssertion scope chain)
  else if startsFromContext chain then
    match chain.lastCall? with
    | some last =>
      if last.name = "newPage" ∨ awaitsPopup body then
        some { kind := .interaction, verb := some last.name, subtype := some .newTab }
      else none
    | none => none
  else
    let pageVariable := scope.pageVariable? chain.receiver
    let (selector, others) := splitLocator scope chain
    if pageVariable.isNone && selector.isNone then none
    else
      match (others.filter Segment.isCall).getLast? with
      | none => none
      | some action =>
        let owner := if chain.receiver.length > 1 then chain.receiver.getLast? else none
        some (classifyAction body owner pageVariable selector action)

def isPatternBracket (c : Char) : Bool := c == '[' || c == ']' || c == '{' || c == '}'

/-- The event that several promises are awaited together for, and the page variable it fills. -/
def classifyJointWait (scope : Scope) (target value : Text) : Option Content × Scope :=
  if awaitsPopup value then
    let scope := match (identifiers (Text.stripWhile isPatternBracket target)).head? with
      | some name => scope.addPage name
      | none => scope
    (some { kind := .interaction, verb := some "waitForEvent", subtype := some .newTab }, scope)
  else if awaitsFileChooser value then
    (some { kind := .interaction, verb := some "waitForEvent", subtype := some .fileUpload }, scope)
  else (none, scope)

/-- Whether a chain only locates, starting from a page or a locator variable. -/
def isDeclaration (scope : Scope) (chain : Chain) : Bool :=
  ((scope.pageVariable? chain.receiver).isSome || (scope.binding? chain.receiver).isSome) &&
    !chain.segments.isEmpty && chain.segments.all isAccessor

/-- What a declaration does, and the variables known after it. -/
def classifyAssignment (scope : Scope) (target value : Text) : Option Content × Scope :=
  let value := stripPrefixes value
  if List.isPrefixOf "Promise.all" value then classifyJointWait scope target value
  else
    let chain := Chain.parse value
    if startsFromContext chain then
      let scope := if chain.lastCall?.any fun s => s.name == ("newPage" : Text) then
        scope.addPage target else scope
      (classifyCall scope value, scope)
    else if isDeclaration scope chain then
      let pageVariable := scope.pageVariable? chain.receiver
      let (selector, _) := splitLocator scope chain
      let isPattern := target.head? == some '[' || target.head? == some '{'
      let after := match selector with
        | some t => if isPattern then scope else scope.bind target ⟨t, pageVariable⟩
        | none => scope
      (some { kind := .structural, role := some .locatorDeclaration, selector := selector
              pageVariable := pageVariable }, after)
    else (classifyCall scope value, scope)

/-- What a logical line does, and the variables known after it. -/
def classifyLine (scope : Scope) (source : Text) : Content × Scope :=
  let t := Text.trim source
  match structuralRole? t with
  | some role =>
    ({ kind := .structural, role := some role
       title := if role = .testDeclaration then testTitle? t else none }, scope)
  | none =>
    let body := stripPrefixes t
    let (content, scope) := match assignment? body with
      | some (target, value) => classifyAssignment scope target value
      | none => (classifyCall scope body, scope)
    match content with
    | some content => (content, scope)
    | none =>
      (.structural (if (Chain.parse body).segments.isEmpty then .code else .expression), scope)

end PageObjects
