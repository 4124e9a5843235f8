import PageObjects.Script.Statement
import PageObjects.Text.Words

namespace PageObjects

/-- How a page comes about. -/
inductive Origin where
  | start | navigation | history | urlChange | pageSwitch | modal | modalClose | tab
  deriving DecidableEq, Repr

namespace Origin

def name : Origin → Text
  | start => "start"
  | navigation => "navigation"
  | history => "history"
  | urlChange => "url_change"
  | pageSwitch => "page_switch"
  | modal => "modal"
  | modalClose => "modal_close"
  | tab => "tab"

/-- How sure it is that a page of this origin is one. -/
def confidence : Origin → Nat
  | start => 60
  | navigation => 100
  | history => 80
  | urlChange => 100
  | pageSwitch => 80
  | modal => 65
  | modalClose => 55
  | tab => 50

end Origin

/-- Confidence in a change of the URL from an unknown one. -/
def unknownOriginConfidence : Nat := 95

inductive BoundaryKind where
  | startOfInput | navigation | urlChange | pageSwitch | modalOpen | modalClose | tabSwitch
  | endOfInput
  deriving DecidableEq, Repr

def BoundaryKind.name : BoundaryKind → Text
  | startOfInput => "start_of_input"
  | navigation => "navigation"
  | urlChange => "url_change"
  | pageSwitch => "page_switch"
  | modalOpen => "modal_open"
  | modalClose => "modal_close"
  | tabSwitch => "tab_switch"
  | endOfInput => "end_of_input"

/-- What opens or closes a page: a statement, or an end of the input. -/
structure Boundary where
  kind : BoundaryKind
  line : Option Nat := none
  source : Option Text := none
  deriving DecidableEq, Repr

/-- The boundary that a statement makes. -/
def Boundary.at (kind : BoundaryKind) (s : Statement) : Boundary :=
  { kind := kind, line := some s.line, source := some (Text.trim s.source) }

/-- The end of the input behind some statements. -/
def Boundary.after (statements : List Statement) : Boundary :=
  { kind := .endOfInput, line := lastLine? statements }

/-- Words that speak of a dialog. -/
def modalWords : List Text := ["modal", "dialog", "alertdialog", "lightbox", "overlay", "drawer"]

/-- Words that speak of content switched in place. -/
def tabWords : List Text := ["tab", "tabs", "accordion"]

def tabVerbs : List Text := ["click", "tap", "check"]

namespace Content

def selectorSays (words : List Text) (c : Content) : Bool :=
  (wordsOf c.selector).any words.contains

/-- Whether a statement acts on a dialog. -/
def isModalSignal (c : Content) : Bool := c.selectorSays modalWords

/-- Whether a statement switches content in place. -/
def isTabSignal (c : Content) : Bool := c.verbIn tabVerbs && c.selectorSays tabWords

end Content

end PageObjects
