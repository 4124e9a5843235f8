import PageObjects.Page.Basic

namespace PageObjects

/-- Verbs after which the URL may be another one. -/
def urlVerbs : List Text := ["click", "dblclick", "tap", "press"]

/-- Verbs after which an element may be visible. -/
def revealVerbs : List Text := ["click", "dblclick", "tap", "hover", "press", "check"]

/-- Whether both have a selector and it is the same one. -/
def sameSelector (a b : Option AssessedSelector) : Bool :=
  match a, b with
  | some s, some t => s.raw == t.raw
  | _, _ => false

/-- How an action explains an assertion, if it does. -/
def Assertion.cause? (assertion : Assertion) (action : Action) : Option Cause :=
  if assertion.type = .url ∧ action.verbIn urlVerbs then some .navigation
  else if assertion.type = .visible ∧ action.verbIn revealVerbs then some .reveal
  else if assertion.type = .value ∧ sameSelector action.selector assertion.selector then some .value
  else none

/-- The placement that the item before an assertion gives it. -/
def Assertion.explained? (assertion : Assertion) (previous : Option Item) : Option Placement :=
  match previous with
  | some (.action a) =>
    if a.kind = .interaction then
      (assertion.cause? a).map fun cause => .inPageObject cause (a.verb.getD "None") a.line
    else none
  | _ => none

abbrev Shape := AssertionType × Option Text

/-- The placement of an assertion, given the shapes of all assertions and the item before it. -/
def Assertion.placementAmong (shapes : List Shape) (previous : Option Item)
    (assertion : Assertion) : Placement :=
  let times := shapes.count assertion.shape
  (assertion.explained? previous).getD
    (if 2 ≤ times then .separateMethod assertion.type times else .inTest)

/-- Places the assertions among items. -/
def placeItems (shapes : List Shape) (previous : Option Item) : List Item → List Item
  | [] => []
  | .action a :: rest => .action a :: placeItems shapes (some (.action a)) rest
  | .assertion a :: rest =>
    .assertion { a with placement := a.placementAmong shapes previous } ::
      placeItems shapes (some (.assertion a)) rest

def placePages (shapes : List Shape) (previous : Option Item) : List Page → List Page
  | [] => []
  | page :: rest =>
    { page with items := placeItems shapes previous page.items } ::
      placePages shapes (page.items.getLast?.or previous) rest

def allAssertions (pages : List Page) : List Assertion := pages.flatMap Page.assertions

/-- Pages with the assertions of the whole document in their places. -/
def placeAssertions (pages : List Page) : List Page :=
  placePages ((allAssertions pages).map Assertion.shape) none pages

/-- Assertions with an unknown matcher. -/
def assertionWarnings (pages : List Page) : List Warning :=
  ((allAssertions pages).filter fun a => a.type = .custom).map fun a =>
    .customAssertion a.matcher a.line

end PageObjects
