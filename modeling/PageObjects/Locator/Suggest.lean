import PageObjects.Locator.Fragility
import PageObjects.Text.Printable
import PageObjects.Text.Words

namespace PageObjects

/-- Attributes whose values are worth carrying into a suggested selector, in order. -/
def contentAttributes : List Text :=
  ["aria-label", "placeholder", "name", "title", "alt", "id", "value"]

def isHexDigit (c : Char) : Bool := c.isDigit || ('a' ≤ c && c ≤ 'f')

/-- A marker such as `:r1a:`. -/
def isGeneratedMark : Text → Bool
  | ':' :: 'r' :: r =>
    r.getLast? == some ':' && !r.dropLast.isEmpty && r.dropLast.all isWord
  | _ => false

/-- Whether a text looks generated: templates, hexadecimal keys, no letters at all, markers. -/
def isDynamicContent (t : Text) : Bool :=
  Text.includes "$\x7b" t || (8 ≤ t.length && t.all isHexDigit) ||
    (!t.isEmpty && t.all fun c => isDecimal c || !isWord c || c == '_') || isGeneratedMark t

def isPatternEdge (c : Char) : Bool := c == '^' || c == '$' || c == '/'

/-- The text in a form that can name something, unless it looks generated. -/
def usableContent? (t : Option Text) : Option Text :=
  let cleaned := Text.stripWhile isPatternEdge (Text.squeeze (t.getD []))
  if cleaned.isEmpty || isDynamicContent cleaned then none else some cleaned

/-- Roles of elements by their tag. -/
def tagRoles : List (Text × Text) := [
  ("button", "button"), ("a", "link"), ("select", "combobox"), ("textarea", "textbox"),
  ("img", "img"), ("h1", "heading"), ("h2", "heading"), ("h3", "heading"), ("h4", "heading"),
  ("h5", "heading"), ("h6", "heading"), ("nav", "navigation"), ("dialog", "dialog")]

/-- Roles of inputs by their type. -/
def inputTypeRoles : List (Text × Text) := [
  ("checkbox", "checkbox"), ("radio", "radio"), ("submit", "button"), ("button", "button"),
  ("reset", "button"), ("search", "searchbox")]

/-- Roles that a verb suggests. -/
def verbRoles : List (Text × Text) := [
  ("fill", "textbox"), ("type", "textbox"), ("pressSequentially", "textbox"),
  ("clear", "textbox"), ("check", "checkbox"), ("uncheck", "checkbox"),
  ("setChecked", "checkbox"), ("selectOption", "combobox"), ("click", "button"),
  ("dblclick", "button"), ("tap", "button")]

/-- A text that is there and not empty. -/
def nonEmpty (t : Option Text) : Option Text := t.filter fun t => !t.isEmpty

namespace Selector

/-- Text in a selector that means something to a reader: the accessible name, then text, test ids,
other attributes and the id. Class names are never used. -/
def content? (s : Selector) : Option Text :=
  ([s.details.accessibleName?, s.details.text?] ++
    (testIdAttributes ++ contentAttributes).map (fun name => s.details.attribute? name) ++
    [s.details.id?]).findSome? usableContent?

/-- The role of the element that a selector targets, as far as it can be guessed. -/
def role? (s : Selector) (verb : Option Text) : Option Text :=
  let ds := s.details
  let verb := nonEmpty verb
  if let some role := nonEmpty ds.role? then some role
  else if ds.tag? = some ("input" : Text) then
    some ((valueAt? ((ds.attribute? "type").getD "text") inputTypeRoles).getD "textbox")
  else if let some role := ds.tag?.bind fun tag => valueAt? tag tagRoles then some role
  else if let some role := nonEmpty (ds.attribute? "role") then some role
  else if s.strategy = .text ∧ ds.source? = some .label then
    some ((valueAt? (verb.getD "fill") verbRoles).getD "textbox")
  else valueAt? (verb.getD []) verbRoles

end Selector

/-- The forms in which a replacement can be proposed. -/
inductive CandidateKind where
  | testId | role | sourceChange
  deriving DecidableEq, Repr

def CandidateKind.name : CandidateKind → Text
  | testId => "testid"
  | role => "role"
  | sourceChange => "source_change"

/-- A proposed replacement. It can be put in place at once unless the source has to change. -/
structure Candidate where
  kind : CandidateKind
  rendered : Option Text
  rationale : Text
  deriving DecidableEq, Repr

def Candidate.isActionable (c : Candidate) : Bool := c.kind != .sourceChange

/-- Backslashes and double quotes with a backslash before them. -/
def escapeValue (t : Text) : Text :=
  t.flatMap fun c => if c = '\\' ∨ c = '"' then ['\\', c] else [c]

def testIdCandidate (content : Text) : Candidate :=
  let words := kebab content
  let testId := if words.isEmpty then escapeValue content else words
  { kind := .testId
    rendered := some ("getByTestId(" ++ quote testId ++ [')'])
    rationale := "A data-testid=\"" ++ testId ++
      "\" attribute survives layout, styling and copy changes." }

def roleCandidate (role content : Text) : Candidate :=
  { kind := .role
    rendered := some ("getByRole(" ++ quote role ++ ", \x7b name: " ++ quote content ++ " \x7d)")
    rationale := "The " ++ role ++
      " role with its accessible name locates the element the way users perceive it." }

def sourceChangeCandidate (s : Selector) : Candidate :=
  { kind := .sourceChange
    rendered := none
    rationale := "No stable text or attribute can be derived from " ++ Text.display s.raw ++
      "; add a data-testid attribute to the element in the application source." }

/-- The candidate of a strategy that is built from the content of a selector. -/
def candidate? (s : Selector) (verb : Option Text) (content : Text) : Strategy → Option Candidate
  | .testId => some (testIdCandidate content)
  | .role => (s.role? verb).map fun role => roleCandidate role content
  | _ => none

/-- Replacements for a selector with the given score, in the order of the preferred strategies. A
stable selector needs none, and one from which nothing can be derived asks for a change of the
source. -/
def suggest (s : Selector) (score : Int) (preferred : List Strategy) (verb : Option Text) :
    List Candidate :=
  if score ≤ stabilityThreshold then []
  else
    let found := match s.content? with
      | none => []
      | some content =>
        (preferred.filterMap (candidate? s verb content)).filter fun c => c.rendered != some s.raw
    if found.isEmpty then [sourceChangeCandidate s] else found

/-- A selector with its score, its signals and what could replace it. -/
structure AssessedSelector extends Selector where
  fragility : Int
  signalsShown : List Signal
  candidates : List Candidate
  deriving DecidableEq, Repr

/-- Assesses a selector; replacements are sought only if `suggests` is set. -/
def Selector.assess (s : Selector) (preferred : List Strategy) (verb : Option Text)
    (suggests : Bool) : AssessedSelector :=
  { s with
    fragility := s.score
    signalsShown := s.signals
    candidates := if suggests then suggest s s.score preferred verb else [] }

end PageObjects
