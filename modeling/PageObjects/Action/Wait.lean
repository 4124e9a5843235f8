import PageObjects.Script.Statement

namespace PageObjects

inductive WaitStrategy where
  | auto | url | selector | loadState | fixedTimeout | network | function | event
  deriving DecidableEq, Repr

namespace WaitStrategy

def name : WaitStrategy → Text
  | auto => "auto"
  | url => "url"
  | selector => "selector"
  | loadState => "load_state"
  | fixedTimeout => "fixed_timeout"
  | network => "network"
  | function => "function"
  | event => "event"

/-- What the waiting verbs wait for. -/
def ofVerbs : List (Text × WaitStrategy) := [
  ("waitForURL", url), ("waitForNavigation", url), ("waitForLoadState", loadState),
  ("waitForSelector", selector), ("waitForResponse", network), ("waitForRequest", network),
  ("waitForFunction", function), ("waitForTimeout", fixedTimeout), ("waitForEvent", event)]

end WaitStrategy

/-- A way to wait, with the time that is set for it. -/
structure Wait where
  strategy : WaitStrategy
  timeout : Option Literal := none
  deriving Repr

/-- Waiting for a fixed time makes a test slow and fragile. -/
def Wait.isHarmful (w : Wait) : Bool := w.strategy == .fixedTimeout

/-- Integers, among which truth values count. -/
def Literal.isWhole : Literal → Bool
  | .int _ | .bool _ => true
  | _ => false

/-- How a statement waits. A fixed time is the first whole number among the arguments. -/
def Content.wait (c : Content) : Wait :=
  let timeout := c.timeout.map fun n => Literal.int n
  if c.kind = .wait ∨ c.verb = some ("waitForEvent" : Text) then
    let strategy := (valueAt? (c.verb.getD []) WaitStrategy.ofVerbs).getD .event
    { strategy := strategy
      timeout :=
        if strategy = .fixedTimeout then (c.literals.find? Literal.isWhole).or timeout
        else timeout }
  else if c.kind = .navigation then { strategy := .loadState, timeout := timeout }
  else { strategy := .auto, timeout := timeout }

end PageObjects
