import PageObjects.Decimal.Binary64

namespace PageObjects

/-- The value at `key`, from the first entry that has it. -/
def valueAt? {α β : Type} [DecidableEq α] (key : α) : List (α × β) → Option β
  | [] => none
  | (k, v) :: rest => if k = key then some v else valueAt? key rest

/-- The value at `key` replaced in place, or a new entry at the end. -/
def setEntry {α β : Type} [DecidableEq α] (key : α) (value : β) : List (α × β) → List (α × β)
  | [] => [(key, value)]
  | (k, v) :: rest => if k = key then (k, value) :: rest else (k, v) :: setEntry key value rest

/-- A new entry at the end, unless the key is there already. -/
def addEntry {α β : Type} [DecidableEq α] (key : α) (value : β) (entries : List (α × β)) :
    List (α × β) :=
  if (valueAt? key entries).isSome then entries else entries ++ [(key, value)]

inductive Json where
  | null
  | bool (value : Bool)
  | int (value : Int)
  | real (value : Binary64)
  | text (value : Text)
  | list (items : List Json)
  | object (fields : List (Text × Json))
  deriving Repr, Inhabited

namespace Json

/-- The field of an object. -/
def field? (key : Text) : Json → Option Json
  | object fields => valueAt? key fields
  | _ => none

/-- Null, false, zero and everything empty. -/
def isEmptyish : Json → Bool
  | null => true
  | bool b => !b
  | int n => n == 0
  | real (.finite _ m _) => m == 0
  | real _ => false
  | text t => t.isEmpty
  | list items => items.isEmpty
  | object fields => fields.isEmpty

def ofOption {α : Type} (f : α → Json) : Option α → Json
  | none => null
  | some x => f x

def nat (n : Nat) : Json := int n

def texts (ts : List Text) : Json := list (ts.map text)

def nats (ns : List Nat) : Json := list (ns.map nat)

end Json

end PageObjects
