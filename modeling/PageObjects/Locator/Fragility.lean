import PageObjects.Locator.Classify

namespace PageObjects

inductive Signal where
  | xpathSyntax | positional | placeholderOnly | classOnly | textOnly | deepNesting | idOnly
  | multipleAttributes | testId | role | nameWithType | ariaAttribute | labelAssociation
  deriving DecidableEq, Repr

namespace Signal

def all : List Signal := [
  xpathSyntax, positional, placeholderOnly, classOnly, textOnly, deepNesting, idOnly,
  multipleAttributes, testId, role, nameWithType, ariaAttribute, labelAssociation]

def name : Signal → Text
  | xpathSyntax => "xpath_syntax"
  | positional => "positional"
  | placeholderOnly => "placeholder_only"
  | classOnly => "class_only"
  | textOnly => "text_only"
  | deepNesting => "deep_nesting"
  | idOnly => "id_only"
  | multipleAttributes => "multiple_attributes"
  | testId => "testid"
  | role => "role"
  | nameWithType => "name_with_type"
  | ariaAttribute => "aria_attribute"
  | labelAssociation => "label_association"

/-- What a signal adds to the score; credits are negative. -/
def weight : Signal → Int
  | xpathSyntax => 40
  | positional => 35
  | placeholderOnly => 30
  | classOnly => 25
  | textOnly => 20
  | deepNesting => 15
  | idOnly => 10
  | multipleAttributes => 5
  | testId => -40
  | role => -30
  | nameWithType => -20
  | ariaAttribute => -15
  | labelAssociation => -10

end Signal

def baseScore : Int := 50

/-- Selectors that score above this are fragile. -/
def stabilityThreshold : Int := 40

def maxNestingDepth : Nat := 3

/-- A pseudo-class, a filter or a locator step that picks an element by its place. -/
def positionalMark? (t : Text) : Option Unit :=
  let literal := Text.startsWithAny [
    ":nth-child(", ":nth-of-type(", ":nth-last-child(", ":nth-last-of-type(", ":nth-match(",
    ":first-child", ":first-of-type", ":last-child", ":last-of-type", ".nth(", ".first()",
    ".last()"] t
  let filter := (Text.dropPrefix? ">>" t).any fun r => List.isPrefixOf "nth=" (Text.trimStart r)
  if literal || filter then some () else none

/-- A predicate of a path that picks an element by its place. -/
def xpathPositionalMark? (t : Text) : Option Unit :=
  let numbered := match t with
    | '[' :: r =>
      match Text.run? isDecimal (Text.trimStart r) with
      | some (_, r) => (Text.afterMark? ']' r).isSome
      | none => false
    | _ => false
  if numbered || Text.startsWithAny ["position()", "last()"] t then some () else none

namespace Selector

/-- The attributes, without the class attribute. -/
def ownAttributes (s : Selector) : List (Text × Text) :=
  s.details.attributes.filter fun pair => pair.1 != ("class" : Text)

/-- Class names, those of a class attribute included. -/
def classNames (s : Selector) : List Text :=
  s.details.classes ++ Text.splitBlank ((s.details.attribute? "class").getD [])

def hasId (s : Selector) : Bool := s.details.id?.any fun t => !t.isEmpty

def isPositional (s : Selector) : Bool :=
  Text.occurs positionalMark? s.raw ||
    (s.strategy == .xpath && Text.occurs xpathPositionalMark? s.raw)

def hasAttribute (name : Text) (s : Selector) : Bool :=
  (valueAt? name s.ownAttributes).isSome

/-- Whether a selector shows a signal. -/
def shows (s : Selector) : Signal → Bool
  | .xpathSyntax => s.strategy == .xpath
  | .positional => s.isPositional
  | .placeholderOnly => s.strategy == .placeholder
  | .classOnly =>
    (s.strategy == .css || s.strategy == .xpath) && !s.classNames.isEmpty && !s.hasId &&
      s.ownAttributes.isEmpty
  | .textOnly =>
    s.strategy == .text && (s.details.source?.any fun k => k == .text || k == .alt || k == .title)
  | .deepNesting => maxNestingDepth < s.details.depth
  | .idOnly =>
    s.strategy == .css && s.hasId && s.classNames.isEmpty && s.ownAttributes.isEmpty
  | .multipleAttributes => 2 ≤ s.ownAttributes.length
  | .testId => s.strategy == .testId
  | .role => s.strategy == .role
  | .nameWithType => s.hasAttribute "name" && s.hasAttribute "type"
  | .ariaAttribute => s.ownAttributes.any fun pair => List.isPrefixOf "aria-" pair.1
  | .labelAssociation =>
    (s.strategy == .text && s.details.source? == some .label) || s.hasAttribute "for"

/-- The signals that a selector shows. -/
def signals (s : Selector) : List Signal := Signal.all.filter s.shows

/-- The fragility score, between 0 and 100; a higher one breaks more easily. -/
def score (s : Selector) : Int :=
  max 0 (min 100 (baseScore + (s.signals.map Signal.weight).foldr (· + ·) 0))

end Selector

end PageObjects
