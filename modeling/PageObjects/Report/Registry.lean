import PageObjects.Page.Basic

namespace PageObjects

/-- A selector as it is first used, and the items that use it with their lines. -/
structure RegistryEntry where
  number : Nat
  selector : AssessedSelector
  users : List (Id × Nat)
  deriving Repr

namespace RegistryEntry

def lines (e : RegistryEntry) : List Nat := e.users.map (·.2)

def isFragile (e : RegistryEntry) : Bool := stabilityThreshold < e.selector.fragility

/-- Whether several items use the selector. -/
def isRepeated (e : RegistryEntry) : Bool := 2 ≤ e.users.length

end RegistryEntry

abbrev Registry := List RegistryEntry

namespace Registry

/-- Notes a use of a selector. A new selector gets the next number after `n`. -/
def note (n : Nat) (s : AssessedSelector) (user : Id × Nat) : Registry → Registry
  | [] => [⟨n + 1, s, [user]⟩]
  | e :: rest =>
    if e.selector.raw = s.raw then { e with users := e.users ++ [user] } :: rest
    else e :: note (n + 1) s user rest

/-- Notes the selector of an item, if it has one. -/
def noteItem (r : Registry) (i : Item) : Registry :=
  match i.selector with
  | none => r
  | some s => note 0 s (i.id, i.line) r

def ofItems (items : List Item) : Registry := items.foldl noteItem []

/-- The number of a selector by its normal form. -/
def numberOf? (r : Registry) (raw : Text) : Option Nat :=
  (r.find? fun e => e.selector.raw == raw).map (·.number)

/-- The strategies in the order in which they are counted. -/
def countedStrategies : List Strategy := [.testId, .role, .text, .css, .xpath, .placeholder]

/-- How many selectors locate by each strategy. -/
def byStrategy (r : Registry) : List (Strategy × Nat) :=
  countedStrategies.map fun s => (s, r.countP fun e => e.selector.strategy == s)

/-- A quotient rounded to the nearest number, a half to the even one. -/
def roundHalfEven (sum : Int) (count : Nat) : Int :=
  let q := sum / count
  let r := sum % count
  if 2 * r < count then q
  else if (count : Int) < 2 * r then q + 1
  else if q % 2 = 0 then q else q + 1

/-- The average score; nothing is not fragile. -/
def averageFragility (r : Registry) : Int :=
  if r.isEmpty then 0
  else roundHalfEven ((r.map fun e => e.selector.fragility).foldr (· + ·) 0) r.length

end Registry

end PageObjects
