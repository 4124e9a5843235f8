import PageObjects.Locator.Basic
import PageObjects.Url.SamePage

namespace PageObjects

/-- Whether a dialog belongs to the page below it or is a page by itself. -/
inductive ModalHandling where
  | component | page
  deriving DecidableEq, Repr

namespace ModalHandling

def name : ModalHandling → Text
  | component => "component"
  | page => "page"

def all : List ModalHandling := [component, page]

end ModalHandling

namespace UrlThreshold

/-- All thresholds, the strictest first. -/
def all : List UrlThreshold := [full, path, domain]

end UrlThreshold

/-- How statements are cut into pages. -/
structure PageOptions where
  urlChangeOpensPage : Bool := true
  modals : ModalHandling := .component
  tabsOpenPages : Bool := false
  threshold : UrlThreshold := .path
  deriving DecidableEq, Repr

/-- A number of things that cannot be none. -/
abbrev Count := { n : Nat // 1 ≤ n }

/-- Which recurring actions become components. -/
structure ComponentOptions where
  minAppearances : Count := ⟨2, by decide⟩
  headers : Bool := true
  footers : Bool := true
  modals : Bool := true
  navigation : Bool := true
  deriving DecidableEq, Repr

/-- How actions are grouped into methods. -/
structure MethodOptions where
  maxItems : Count := ⟨8, by decide⟩
  groupFills : Bool := true
  separateNavigation : Bool := true
  separateAssertions : Bool := true
  deriving DecidableEq, Repr

/-- How selectors are judged. -/
structure SelectorOptions where
  suggests : Bool := true
  preferred : List Strategy := Strategy.preferred
  flagsFragile : Bool := true
  deriving DecidableEq, Repr

structure Config where
  pages : PageOptions := {}
  components : ComponentOptions := {}
  methods : MethodOptions := {}
  selectors : SelectorOptions := {}
  deriving DecidableEq, Repr

end PageObjects
