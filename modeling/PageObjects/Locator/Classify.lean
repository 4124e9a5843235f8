import PageObjects.Locator.Normal
import PageObjects.Locator.XPath

namespace PageObjects

/-- Attributes that hold test ids, in the order in which they are looked up. -/
def testIdAttributes : List Text :=
  ["data-testid", "data-test-id", "data-test", "data-qa", "data-cy"]

/-- Accessors that look for text, and which text they look for. -/
def textAccessors : List (Text × TextSource) := [
  ("getByText", .text), ("getByLabel", .label), ("getByAltText", .alt), ("getByTitle", .title)]

/-- Calls that take a CSS selector or a path. -/
def sourceCalls : List Text := ["locator", "frameLocator"]

/-- Test id attributes that can stand before an equals sign as a whole selector. -/
def testIdEngines : List Text := ["data-testid", "data-test-id", "data-test"]

/-- Steps that narrow a match without a further level of nesting. -/
def nonNestingSteps : List Text := ["nth", "first", "last", "filter", "and", "or"]

def isNesting (s : Segment) : Bool := !nonNestingSteps.contains s.name

/-- Beginnings by which a path is told from a CSS selector. -/
def xpathLeads : List Text := ["//", "(//", "xpath=", "/html"]

def hasTestId (attributes : List (Text × Text)) : Bool :=
  testIdAttributes.any fun name => (valueAt? name attributes).isSome

namespace Segment

/-- The string that a call is given first. -/
def firstString? (s : Segment) : Option Text := s.arguments.head?.bind Literal.string?

/-- The options that a call is given second. -/
def options (s : Segment) : List (Text × Literal) :=
  match s.arguments with
  | _ :: second :: _ => Literal.objectEntries second
  | _ => []

end Segment

/-- Whether an option is switched on. -/
def isOn (name : Text) (options : List (Text × Literal)) : Bool :=
  match valueAt? name options with
  | some (.bool true) => true
  | _ => false

namespace Chain

/-- The last call of the given name. -/
def callNamed? (name : Text) (chain : Chain) : Option Segment :=
  (chain.calls.filter fun s => s.name == name).getLast?

/-- The CSS selectors and paths within a chain. -/
def sources (chain : Chain) : List Text :=
  (chain.segments.filter fun s => sourceCalls.contains s.name).filterMap Segment.firstString?

/-- Levels of nesting: one less than the nesting calls, and those within the selectors. -/
def depth (chain : Chain) : Nat :=
  ((chain.calls.filter isNesting).length - 1) +
    (chain.sources.map fun source => (Css.parse source).depth).foldr (· + ·) 0

/-- The attributes of all selectors within a chain; the last value of a name counts. -/
def attributes (chain : Chain) : List (Text × Text) :=
  chain.sources.foldl (fun found source =>
    (Css.parse source).attributes.foldl (fun found (name, value) => setEntry name value found)
      found) []

/-- The details with the attributes and the depth of a chain. -/
def addTo (details : Details) (chain : Chain) : Details :=
  let details := if chain.attributes.isEmpty then details
    else Details.put (.attributes chain.attributes) details
  Details.put (.depth chain.depth) details

/-- The details of a chain with one more attribute. -/
def withAttribute (name value : Text) (chain : Chain) : Details :=
  let details := chain.addTo []
  Details.put (.attributes (setEntry name value (Details.attributes details))) details

/-- The details of the selectors within a chain: the last tag and id, all classes and
pseudo-classes. -/
def cssDetails (chain : Chain) : Details :=
  chain.sources.foldl (fun details source =>
    let css := Css.parse source
    let details := match css.tag with
      | some t => Details.put (.tag t) details
      | none => details
    let details := match css.id with
      | some t => Details.put (.id t) details
      | none => details
    let details := if css.classes.isEmpty then details
      else Details.put (.classes (Details.classes details ++ css.classes)) details
    if css.pseudoClasses.isEmpty then details
    else Details.put (.pseudoClasses (Details.pseudoClasses details ++ css.pseudoClasses)) details) []

/-- The details of a role call. -/
def roleDetails (call : Segment) : Details :=
  let name := match valueAt? ("name" : Text) call.options with
    | some (.text t) => [Detail.accessibleName t]
    | _ => []
  .role (call.firstString?.getD []) :: name ++ (if isOn "exact" call.options then [.exact] else [])

/-- The details of a call that looks for text. -/
def textDetails (kind : TextSource) (call : Segment) : Details :=
  .source kind :: .text (some (call.firstString?.getD [])) ::
    (if isOn "exact" call.options then [.exact] else [])

/-- The call that looks for text, and which text it looks for. -/
def textCall? (chain : Chain) : Option (TextSource × Segment) :=
  textAccessors.findSome? fun (name, kind) => (chain.callNamed? name).map fun call => (kind, call)

/-- The strategy of a chain and its details. -/
def classify (chain : Chain) : Strategy × Details :=
  if let some call := chain.callNamed? "getByTestId" then
    (.testId, chain.withAttribute "data-testid" (call.firstString?.getD []))
  else if chain.sources.any fun source => hasTestId (Css.parse source).attributes then
    (.testId, chain.addTo [])
  else if let some call := chain.callNamed? "getByRole" then
    (.role, chain.addTo (roleDetails call))
  else if let some (kind, call) := chain.textCall? then
    (.text, chain.addTo (textDetails kind call))
  else if let some source := chain.sources.find? (Text.startsWithAny xpathLeads) then
    (.xpath, Details.put (.depth chain.depth) (XPath.parse source).details)
  else if let some call := chain.callNamed? "getByPlaceholder" then
    (.placeholder, chain.withAttribute "placeholder" (call.firstString?.getD []))
  else (.css, chain.addTo chain.cssDetails)

end Chain

/-- A selector without the word that marks it as internal. -/
def withoutInternal (t : Text) : Text := Text.dropPrefix "internal:" t

/-- Attribute and value of a selector such as `data-testid=save`. -/
def testIdEngine? (raw : Text) : Option (Text × Text) :=
  testIdEngines.findSome? fun name =>
    match Text.dropPrefix? (name ++ ['=']) (withoutInternal raw) with
    | some (c :: r) => some (name, Text.stripWhile Literal.isKeyQuote (c :: r))
    | _ => none

/-- Role and accessible name of a selector such as `role=button[name="Save"]`. -/
def roleEngine? (raw : Text) : Option (Text × Option Text) := do
  let r ← Text.dropPrefix? "role=" (withoutInternal raw)
  let (role, r) ← Text.run? isNamePart r
  let name := do
    let r ← Text.dropPrefix? "[name=" r
    let (name, r) ← Text.quoted? r
    if List.elem ']' r && !name.isEmpty then some name else none
  return (role, name)

/-- The text of a selector such as `text=Save`. -/
def textEngine? (raw : Text) : Option Text :=
  (Text.dropPrefix? "text=" (withoutInternal raw)).filter fun r => !r.isEmpty

/-- The text pseudo-class of a selector: whether it compares exactly, and with what. -/
def pseudoText? (raw : Text) : Option (Bool × Text) :=
  Text.find? (fun r => do
    let r ← Text.dropPrefix? [':'] r
    let (isExact, r) ← [(("has-text(" : Text), false), ("text(", false), ("text-is(", true)].findSome?
      fun (lead, isExact) => (Text.dropPrefix? lead r).map fun r => (isExact, r)
    let (content, r) ← Text.quoted? (Text.trimStart r)
    let _ ← Text.afterMark? ')' r
    return (isExact, content)) raw

/-- The details of a selector `text=...`. Quotes around the text ask for an exact match. -/
def textEngineDetails (value : Text) : Details :=
  let inQuotes := if value.head?.any Literal.isKeyQuote then Literal.string? value else none
  match inQuotes with
  | some t => [.source .text, .text (some t), .depth 0, .exact]
  | none => [.source .text, .text (some value), .depth 0]

/-- Whether nothing but a placeholder is known. -/
def isPlaceholderOnly (css : Css) : Bool :=
  css.attributes.map (·.1) == [("placeholder" : Text)] && css.classes.isEmpty && css.id.isNone

/-- The strategy of a selector string and its details. -/
def classifyString (raw : Text) : Strategy × Details :=
  if let some pair := testIdEngine? raw then (.testId, [.attributes [pair], .depth 0])
  else if Text.startsWithAny xpathLeads raw then (.xpath, (XPath.parse raw).details)
  else
    let css := Css.parse raw
    if hasTestId css.attributes then (.testId, css.details)
    else if let some (role, name) := roleEngine? raw then
      (.role, [.role role, .depth 0] ++ (name.map Detail.accessibleName).toList)
    else if let some value := textEngine? raw then (.text, textEngineDetails value)
    else if let some (isExact, content) := pseudoText? raw then
      (.text, css.details ++ [.source .text, .text (some content)] ++
        (if isExact then [.exact] else []))
    else if isPlaceholderOnly css then (.placeholder, css.details)
    else (.css, css.details)

namespace Selector

/-- The selector that an expression in normal form is. -/
def ofNormal (raw : Text) : Selector :=
  let (strategy, details) := match accessorChain? raw with
    | some chain => chain.classify
    | none => classifyString raw
  ⟨raw, strategy, details⟩

/-- The selector of a locator expression. -/
def ofExpression (expression : Text) : Selector := ofNormal (normalizeSelector expression)

/-- The scope of a nested selector, such as `#login-form`. -/
def root? (s : Selector) : Option Text :=
  match accessorChain? s.raw with
  | some chain =>
    match chain.segments.filter isNesting with
    | first :: _ :: _ => some first.render
    | _ => none
  | none =>
    if s.strategy = .xpath then none
    else match Css.compounds (Text.replacePair '>' '>' [' '] s.raw) with
      | first :: _ :: _ => some first
      | _ => none

end Selector

end PageObjects
