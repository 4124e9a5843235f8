import PageObjects.Page.Basic

namespace PageObjects

inductive ComponentType where
  | modal | header | footer | navigation | form | custom
  deriving DecidableEq, Repr

namespace ComponentType

def name : ComponentType → Text
  | modal => "modal"
  | header => "header"
  | footer => "footer"
  | navigation => "navigation"
  | form => "form"
  | custom => "custom"

def suffix : ComponentType → Text
  | modal => "Modal"
  | header => "Header"
  | footer => "Footer"
  | navigation => "Menu"
  | form => "Form"
  | custom => "Component"

/-- The types that words of a selector or a role tell, in the order in which they are tried. -/
def byWords : List (ComponentType × List Text) := [
  (modal, modalWords),
  (header, ["header", "banner", "masthead", "topbar"]),
  (footer, ["footer", "contentinfo"]),
  (navigation, ["nav", "navigation", "navbar", "menu", "menubar", "menuitem", "breadcrumb",
    "breadcrumbs", "sidebar", "sidenav"])]

/-- Whether components of a type are looked for. -/
def isEnabled (options : ComponentOptions) : ComponentType → Bool
  | modal => options.modals
  | header => options.headers
  | footer => options.footers
  | navigation => options.navigation
  | form => true
  | custom => true

end ComponentType

def landmarkRoles : List Text :=
  ["banner", "contentinfo", "navigation", "dialog", "alertdialog", "menu", "menubar"]

def landmarkTags : List Text := ["header", "footer", "nav", "dialog"]

/-- Verbs that fill in a field. -/
def fieldVerbs : List Text :=
  ["fill", "type", "pressSequentially", "selectOption", "check", "uncheck", "setInputFiles"]

/-- Verbs that send a form. -/
def submitVerbs : List Text := ["click", "press", "tap"]

namespace Action

/-- The normal form of the selector of an action. -/
def raw (a : Action) : Text := (a.selector.map (·.raw)).getD []

def details (a : Action) : List Detail := (a.selector.map (·.details)).getD []

/-- The words of the selector, and its role in small letters. -/
def typeWords (a : Action) : List Text :=
  Text.words a.raw ++ ((nonEmpty (Details.role? a.details)).map Text.lower).toList

/-- Whether an action works on a landmark of the page. -/
def hasLandmark (a : Action) : Bool :=
  ((Details.role? a.details).any landmarkRoles.contains) ||
    ((Details.tag? a.details).any landmarkTags.contains)

end Action

/-- The type of the component that some actions make: the first one that their words tell, a form
if they fill in and send something. -/
def ComponentType.ofActions (actions : List Action) : ComponentType :=
  let words := actions.flatMap Action.typeWords
  match byWords.find? fun entry => entry.2.any words.contains with
  | some (type, _) => type
  | none =>
    if (actions.any (·.verbIn fieldVerbs)) && (actions.any (·.verbIn submitVerbs)) then .form
    else .custom

/-- Neighbouring actions of a page, by its number. -/
structure Occurrence where
  page : Nat
  actions : List Action
  deriving Repr

namespace Occurrence

def firstLine (o : Occurrence) : Nat := (o.actions.head?.map (·.line)).getD 0

def numbers (o : Occurrence) : List Nat := o.actions.map (·.number)

end Occurrence

/-- A component that is not numbered and named yet. -/
structure ComponentDraft where
  type : ComponentType
  confidence : Nat
  instances : List Occurrence
  isExact : Bool
  isProvisional : Bool := false
  deriving Repr

structure Component extends ComponentDraft where
  number : Nat
  name : Text
  deriving Repr

namespace Component

def id (c : Component) : Id := .component c.number

/-- The first instance stands for the others. -/
def model (c : Component) : List Action := (c.instances.head?.map (·.actions)).getD []

end Component

/-- An action of a component with the selectors that its instances have in this place. -/
structure SelectorTemplate where
  order : Nat
  action : Action
  variants : List Text
  deriving Repr

/-- The templates of a component, from its first instance. -/
def Component.templates (c : Component) : List SelectorTemplate :=
  c.model.zipIdx.map fun (a, i) =>
    { order := i + 1
      action := a
      variants := ((c.instances.filterMap fun o => o.actions[i]?.map Action.raw).eraseDups).mergeSort
        Text.precedesOrEq }

end PageObjects
