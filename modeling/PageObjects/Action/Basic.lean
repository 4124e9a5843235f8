import PageObjects.Action.Parameter
import PageObjects.Action.Wait
import PageObjects.Warning

namespace PageObjects

/-- A statement that does something on a page. -/
structure Action where
  number : Nat
  statement : Statement
  wait : Wait
  selector : Option AssessedSelector
  parameters : List Parameter
  deriving Repr

namespace Action

def id (a : Action) : Id := .action a.number

def line (a : Action) : Nat := a.statement.line

def verb (a : Action) : Option Text := a.statement.verb

def verbIn (verbs : List Text) (a : Action) : Bool := a.statement.verbIn verbs

def kind (a : Action) : StatementKind := a.statement.kind

end Action

/-- What an assertion is about, by the family of its matcher. -/
inductive AssertionType where
  | text | visible | url | value | custom
  deriving DecidableEq, Repr

namespace AssertionType

def name : AssertionType → Text
  | text => "toContainText"
  | visible => "toBeVisible"
  | url => "toHaveURL"
  | value => "toHaveValue"
  | custom => "custom"

/-- The families of matchers. -/
def ofMatchers : List (Text × AssertionType) := [
  ("toContainText", text), ("toHaveText", text), ("toBeVisible", visible), ("toBeHidden", visible),
  ("toHaveURL", url), ("toHaveValue", value), ("toHaveValues", value)]

def ofMatcher (matcher : Text) : AssertionType := (valueAt? matcher ofMatchers).getD custom

end AssertionType

/-- What an action before an assertion has to do with it. -/
inductive Cause where
  | navigation | reveal | value
  deriving DecidableEq, Repr

/-- Where an assertion belongs: into the page object, behind the action that explains it; into a
method of its own, as its check recurs; or into the test. -/
inductive Placement where
  | inPageObject (cause : Cause) (verb : Text) (line : Nat)
  | separateMethod (type : AssertionType) (times : Nat)
  | inTest
  deriving DecidableEq, Repr

namespace Placement

def name : Placement → Text
  | inPageObject .. => "in_page_object"
  | separateMethod .. => "separate_method"
  | inTest => "in_test"

def reason : Placement → Text
  | inPageObject cause verb line =>
    let what : Text := match cause with
      | .navigation => "verifies the navigation triggered by "
      | .reveal => "verifies the element revealed by "
      | .value => "verifies the value set by "
    what ++ verb ++ " on line " ++ Text.ofNat line
  | separateMethod type times =>
    "the same " ++ type.name ++ " check appears " ++ Text.ofNat times ++ " times"
  | inTest => "test-specific expectation"

end Placement

/-- A statement that checks something. -/
structure Assertion where
  number : Nat
  statement : Statement
  selector : Option AssessedSelector
  placement : Placement := .inTest
  deriving Repr

namespace Assertion

def id (a : Assertion) : Id := .assertion a.number

def line (a : Assertion) : Nat := a.statement.line

def matcher (a : Assertion) : Text := (nonEmpty a.statement.verb).getD "unknown"

def type (a : Assertion) : AssertionType := .ofMatcher a.matcher

/-- The value that is expected: the first literal, or else the first argument as it is written. -/
def expected (a : Assertion) : Option Literal :=
  a.statement.literals.head?.or (a.statement.arguments.head?.map Literal.text)

/-- What an assertion checks and on what. Assertions of one shape check the same thing. -/
def shape (a : Assertion) : AssertionType × Option Text := (a.type, a.selector.map (·.raw))

end Assertion

/-- An action or an assertion. -/
inductive Item where
  | action (a : Action)
  | assertion (a : Assertion)
  deriving Repr

namespace Item

def id : Item → Id
  | action a => a.id
  | assertion a => a.id

def statement : Item → Statement
  | action a => a.statement
  | assertion a => a.statement

def line (i : Item) : Nat := i.statement.line

def selector : Item → Option AssessedSelector
  | action a => a.selector
  | assertion a => a.selector

def action? : Item → Option Action
  | action a => some a
  | assertion _ => none

def assertion? : Item → Option Assertion
  | action _ => none
  | assertion a => some a

end Item

end PageObjects
