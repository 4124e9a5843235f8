import PageObjects.Json.Basic
import PageObjects.Text.Basic

namespace PageObjects

inductive Strategy where
  | testId | role | text | placeholder | css | xpath
  deriving DecidableEq, Repr

namespace Strategy

def name : Strategy → Text
  | testId => "testid"
  | role => "role"
  | text => "text"
  | placeholder => "placeholder"
  | css => "css"
  | xpath => "xpath"

/-- All strategies in the order in which they are preferred. -/
def preferred : List Strategy := [testId, role, text, placeholder, css, xpath]

def ofName? (t : Text) : Option Strategy := preferred.find? fun s => s.name == t

end Strategy

/-- Which text of an element a text selector looks for. -/
inductive TextSource where
  | text | label | alt | title
  deriving DecidableEq, Repr

namespace TextSource

def name : TextSource → Text
  | text => "text"
  | label => "label"
  | alt => "alt"
  | title => "title"

def ofName? (t : Text) : Option TextSource :=
  [text, label, alt, title].find? fun s => s.name == t

end TextSource

/-- One thing that is known about the element a selector targets. -/
inductive Detail where
  | tag (name : Text)
  | id (name : Text)
  | classes (names : List Text)
  | attributes (pairs : List (Text × Text))
  | pseudoClasses (names : List Text)
  | depth (levels : Nat)
  | path (source : Text)
  | text (content : Option Text)
  | role (name : Text)
  | accessibleName (content : Text)
  | source (kind : TextSource)
  | exact
  deriving DecidableEq, Repr

/-- Details in the order in which they were found, at most one of a kind. -/
abbrev Details := List Detail

namespace Detail

def sameKind : Detail → Detail → Bool
  | tag _, tag _ => true
  | id _, id _ => true
  | classes _, classes _ => true
  | attributes _, attributes _ => true
  | pseudoClasses _, pseudoClasses _ => true
  | depth _, depth _ => true
  | path _, path _ => true
  | text _, text _ => true
  | role _, role _ => true
  | accessibleName _, accessibleName _ => true
  | source _, source _ => true
  | exact, exact => true
  | _, _ => false

end Detail

namespace Details

/-- The details with one more; it takes the place of one of its kind. -/
def put (d : Detail) : Details → Details
  | [] => [d]
  | x :: rest => if d.sameKind x then d :: rest else x :: put d rest

def tag? (ds : Details) : Option Text := ds.findSome? fun | .tag t => some t | _ => none

def id? (ds : Details) : Option Text := ds.findSome? fun | .id t => some t | _ => none

def classes (ds : Details) : List Text :=
  (ds.findSome? fun | .classes names => some names | _ => none).getD []

def pseudoClasses (ds : Details) : List Text :=
  (ds.findSome? fun | .pseudoClasses names => some names | _ => none).getD []

def attributes (ds : Details) : List (Text × Text) :=
  (ds.findSome? fun | .attributes pairs => some pairs | _ => none).getD []

def attribute? (name : Text) (ds : Details) : Option Text := valueAt? name ds.attributes

def depth (ds : Details) : Nat := (ds.findSome? fun | .depth n => some n | _ => none).getD 0

def text? (ds : Details) : Option Text :=
  (ds.findSome? fun | .text t => some t | _ => none).join

def role? (ds : Details) : Option Text := ds.findSome? fun | .role t => some t | _ => none

def accessibleName? (ds : Details) : Option Text :=
  ds.findSome? fun | .accessibleName t => some t | _ => none

def source? (ds : Details) : Option TextSource :=
  ds.findSome? fun | .source k => some k | _ => none

end Details

/-- A classified locator expression. -/
structure Selector where
  raw : Text
  strategy : Strategy
  details : Details
  deriving DecidableEq, Repr

end PageObjects
