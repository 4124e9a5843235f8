import PageObjects.Text.Basic

namespace PageObjects

/-- What an analysis numbers, each kind from one on. -/
inductive Id where
  | page (number : Nat)
  | action (number : Nat)
  | assertion (number : Nat)
  | component (number : Nat)
  | selector (number : Nat)
  | method (number : Nat)
  | sequence (number : Nat)
  deriving DecidableEq, Repr

def Id.text : Id → Text
  | page n => "page_" ++ Text.ofNat n
  | action n => "action_" ++ Text.ofNat n
  | assertion n => "assertion_" ++ Text.ofNat n
  | component n => "component_" ++ Text.ofNat n
  | selector n => "selector_" ++ Text.ofNat n
  | method n => "method_" ++ Text.ofNat n
  | sequence n => "sequence_" ++ Text.ofNat n

/-- What an analysis is sized for. -/
inductive Limit where
  | actions | pages | components
  deriving DecidableEq, Repr

namespace Limit

def name : Limit → Text
  | actions => "actions"
  | pages => "pages"
  | components => "components"

def bound : Limit → Nat
  | actions => 200
  | pages => 20
  | components => 10

end Limit

inductive Warning where
  | uncertainPages (lines : List Nat)
  | sharedLine (line : Nat)
  | unsupportedAction (verb : Text) (line : Nat)
  | customAssertion (matcher : Text) (line : Nat)
  | genericName (owner : Id) (first last : Nat) (name : Text) (lines : List Nat)
  | limitExceeded (limit : Limit) (count : Nat)
  deriving DecidableEq, Repr

namespace Warning

def code : Warning → Text
  | uncertainPages _ => "uncertain_page_boundaries"
  | sharedLine _ => "multi_statement_line"
  | unsupportedAction _ _ => "unsupported_action"
  | customAssertion _ _ => "custom_assertion"
  | genericName .. => "generic_method_name"
  | limitExceeded _ _ => "limit_exceeded"

def message : Warning → Text
  | uncertainPages _ => "No navigation or URL change found; the whole script is treated as one page"
  | sharedLine _ => "Several statements share one line; only the first is analyzed"
  | unsupportedAction verb _ => "Unrecognized call '" ++ verb ++ "' kept as custom"
  | customAssertion matcher _ => "Unrecognized matcher '" ++ matcher ++ "' kept as custom"
  | genericName owner first last name _ =>
    "No naming signal for " ++ owner.text ++ " lines " ++ Text.ofNat first ++ '-' ::
      Text.ofNat last ++ "; using " ++ name
  | limitExceeded limit count =>
    Text.ofNat count ++ ' ' :: limit.name ++ " exceed the supported limit of " ++
      Text.ofNat limit.bound

def lines : Warning → List Nat
  | uncertainPages lines => lines
  | sharedLine line => [line]
  | unsupportedAction _ line => [line]
  | customAssertion _ line => [line]
  | genericName _ _ _ _ lines => lines
  | limitExceeded _ _ => []

end Warning

end PageObjects
