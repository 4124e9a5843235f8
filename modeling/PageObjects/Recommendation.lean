import PageObjects.Component.Basic
import PageObjects.Text.Printable

namespace PageObjects

inductive Severity where
  | info | warning
  deriving DecidableEq, Repr

def Severity.name : Severity → Text
  | info => "info"
  | warning => "warning"

/-- Confidence and fragility from which on something is no longer taken lightly. -/
def lowConfidence : Nat := 70

/-- A recommendation with what it is about. Lines are given where they do not follow from it. -/
inductive Recommendation where
  | repeatedAction (verb raw : Text) (pages : List Nat) (confidence : Nat) (lines : List Nat)
  | seenOnce (type : ComponentType) (pageName : Text) (page confidence : Nat) (lines : List Nat)
  | basePage (pages : List Nat)
  | sharedUrlPattern (pattern : Text) (names : List Text) (pages lines : List Nat)
  | highComplexity (name : Text) (complexity : Nat) (signals : List Text) (method : Nat)
      (lines : List Nat)
  | duplicateSelector (raw : Text) (selector : Nat) (items : List Id) (lines : List Nat)
  | fragileSelector (raw : Text) (score : Int) (selector : Nat) (lines : List Nat)
  | fixedWait (action line : Nat)
  | customAssertion (matcher : Text) (assertion line : Nat)
  | uncertainPage (name : Text) (origin : Origin) (confidence page line : Nat)
  | uncertainComponent (name : Text) (confidence component : Nat)
  | genericName (name : Text) (alternatives : List Text) (method : Nat) (lines : List Nat)
  deriving DecidableEq, Repr

namespace Recommendation

def code : Recommendation → Text
  | repeatedAction .. => "component_candidate"
  | seenOnce .. => "component_candidate"
  | basePage .. => "base_page"
  | sharedUrlPattern .. => "shared_url_pattern"
  | highComplexity .. => "high_complexity"
  | duplicateSelector .. => "duplicate_selector"
  | fragileSelector .. => "fragile_selector"
  | fixedWait .. => "fixed_timeout_wait"
  | customAssertion .. => "custom_assertion"
  | uncertainPage .. => "low_confidence_page"
  | uncertainComponent .. => "low_confidence_component"
  | genericName .. => "generic_method_name"

/-- How sure a statement is, in brackets. -/
def confidenceNote (confidence : Nat) : Text := "(confidence " ++ Text.ofNat confidence ++ [')']

def message : Recommendation → Text
  | repeatedAction verb raw pages confidence _ =>
    '\'' :: verb ++ "' on " ++ Text.display raw ++ " repeats on " ++ Text.ofNat pages.length ++
      " pages; consider a shared component if it belongs to common layout " ++
      confidenceNote confidence
  | seenOnce type pageName _ confidence _ =>
    "Possible " ++ type.name ++ " component on " ++ pageName ++
      " needs more evidence: it was seen on one page only " ++ confidenceNote confidence
  | basePage pages =>
    "Extract a BasePage class shared by the " ++ Text.ofNat pages.length ++
      " page objects for common navigation and wait helpers"
  | sharedUrlPattern pattern names _ _ =>
    Text.joinWith ", " names ++ " share the URL pattern " ++ pattern ++
      "; consider one page object"
  | highComplexity name complexity signals _ _ =>
    "Method " ++ name ++ " has complexity " ++ Text.ofNat complexity ++ " (" ++
      (if signals.isEmpty then ("many actions" : Text) else Text.joinWith ", " signals) ++
      "); consider splitting it"
  | duplicateSelector raw _ items _ =>
    "Selector " ++ Text.display raw ++ " is used " ++ Text.ofNat items.length ++
      " times; define it once as a locator property"
  | fragileSelector raw score _ _ =>
    "Selector " ++ Text.display raw ++ " has fragility score " ++ Text.ofInt score
  | fixedWait _ _ =>
    "Replace the fixed waitForTimeout with a wait on a URL, element or load state"
  | customAssertion matcher _ _ => "Matcher '" ++ matcher ++ "' is not a recognized assertion type"
  | uncertainPage name origin confidence _ _ =>
    "Boundary of " ++ name ++ " (" ++ origin.name ++ ") is uncertain " ++
      confidenceNote confidence ++ "; review it"
  | uncertainComponent name confidence _ =>
    "Component " ++ name ++ " is provisional " ++ confidenceNote confidence
  | genericName name alternatives _ _ =>
    "Method " ++ name ++ " has no naming signal; consider " ++ Text.joinWith " or " alternatives

def severity : Recommendation → Severity
  | highComplexity .. => .warning
  | fragileSelector _ score _ _ => if (lowConfidence : Int) ≤ score then .warning else .info
  | fixedWait .. => .warning
  | _ => .info

/-- The things that a recommendation is about. -/
def related : Recommendation → List Id
  | repeatedAction _ _ pages _ _ => pages.map Id.page
  | seenOnce _ _ page _ _ => [.page page]
  | basePage pages => pages.map Id.page
  | sharedUrlPattern _ _ pages _ => pages.map Id.page
  | highComplexity _ _ _ method _ => [.method method]
  | duplicateSelector _ selector items _ => .selector selector :: items
  | fragileSelector _ _ selector _ => [.selector selector]
  | fixedWait action _ => [.action action]
  | customAssertion _ assertion _ => [.assertion assertion]
  | uncertainPage _ _ _ page _ => [.page page]
  | uncertainComponent _ _ component => [.component component]
  | genericName _ _ method _ => [.method method]

def lines : Recommendation → List Nat
  | repeatedAction _ _ _ _ lines => lines
  | seenOnce _ _ _ _ lines => lines
  | basePage _ => []
  | sharedUrlPattern _ _ _ lines => lines
  | highComplexity _ _ _ _ lines => lines
  | duplicateSelector _ _ _ lines => lines
  | fragileSelector _ _ _ lines => lines
  | fixedWait _ line => [line]
  | customAssertion _ _ line => [line]
  | uncertainPage _ _ _ _ line => [line]
  | uncertainComponent .. => []
  | genericName _ _ _ lines => lines

end Recommendation

end PageObjects
