import PageObjects.Component.Selection
import PageObjects.Page.Placement

namespace PageObjects

inductive MethodKind where
  | actions | navigation | delegation | verification
  deriving DecidableEq, Repr

def MethodKind.name : MethodKind → Text
  | actions => "actions"
  | navigation => "navigation"
  | delegation => "component_delegation"
  | verification => "verification"

/-- Items that become one method. A complete draft takes no further interaction. -/
structure Draft where
  kind : MethodKind
  items : List Item
  component : Option Nat := none
  isComplete : Bool := false
  deriving Repr

namespace Draft

def actions (d : Draft) : List Action := d.items.filterMap Item.action?

def assertions (d : Draft) : List Assertion := d.items.filterMap Item.assertion?

/-- The last action that does not wait. -/
def lastDeed? (d : Draft) : Option Action := d.actions.reverse.find? fun a => a.kind != .wait

/-- The action that a draft leads to: the last one that does not wait, else the last one. -/
def terminal? (d : Draft) : Option Action := d.lastDeed?.or d.actions.getLast?

def lines (d : Draft) : List Nat := d.items.map Item.line

def firstLine (d : Draft) : Nat := d.lines.min?.getD 0

def lastLine (d : Draft) : Nat := ((d.items.map fun i => i.statement.endLine).max?).getD 0

end Draft

/-- Verbs that fill in, or empty, a field. -/
def fillVerbs : List Text := fieldVerbs ++ [("clear" : Text)]

/-- Verbs that complete what the fields before them prepare. -/
def terminalVerbs : List Text := ["click", "dblclick", "tap", "press"]

/-- Words of elements that open a menu. -/
def menuTriggerWords : List Text := ["menu", "dropdown", "toggle", "trigger", "avatar", "more"]

/-- Whether two actions work on one element or below one locator. -/
def sameRoot (a b : Action) : Bool :=
  match a.selector, b.selector with
  | some s, some t => s.raw == t.raw || (s.root?.isSome && s.root? == t.root?)
  | _, _ => false

/-- How an action stands to a draft. -/
inductive Relation where
  | continues | completes | apart
  deriving DecidableEq, Repr

/-- How an action stands to the draft that is open. -/
def Draft.relation (options : MethodOptions) (d : Draft) (a : Action) : Relation :=
  match d.lastDeed? with
  | none => .continues
  | some last =>
    if d.isComplete then .apart
    else if last.kind = .navigation then
      if options.separateNavigation then .apart else .continues
    else if sameRoot last a then .continues
    else if options.groupFills ∧ last.verbIn fillVerbs ∧ a.verbIn fillVerbs then .continues
    else if last.verbIn fillVerbs ∧ a.verbIn terminalVerbs then .completes
    else if last.verbIn ["hover"] ∧ a.verbIn terminalVerbs then .continues
    else if last.verbIn ["click"] ∧ a.verbIn ["click"] ∧
        (Text.words last.raw).any menuTriggerWords.contains then .continues
    else if last.statement.subtype = some .dialog then .continues
    else .apart

/-- The drafts so far: the closed ones, the one that is open, and the recurring checks. -/
structure Grouping where
  closed : List Draft := []
  current : Option Draft := none
  checks : List (Shape × List Assertion) := []
  deriving Repr

namespace Grouping

def close (g : Grouping) : Grouping :=
  { g with closed := g.closed ++ g.current.toList, current := none }

/-- Opens a draft with its first item. -/
def start (g : Grouping) (kind : MethodKind) (item : Item) (component : Option Nat := none) :
    Grouping :=
  { g.close with current := some { kind := kind, items := [item], component := component } }

/-- Adds an item to the draft that is open. -/
def extend (g : Grouping) (d : Draft) (item : Item) : Grouping :=
  { g with current := some { d with items := d.items ++ [item] } }

/-- The draft that is open, if it has room for one more item and `p` holds. -/
def open? (options : MethodOptions) (g : Grouping) (p : Draft → Bool) : Option Draft :=
  g.current.filter fun d => d.items.length < options.maxItems.val && p d

/-- Adds an item to the draft that is open, or to a new one if there is no room. -/
def append (options : MethodOptions) (g : Grouping) (item : Item) : Grouping :=
  match g.open? options fun _ => true with
  | some d => g.extend d item
  | none => g.start .actions item

/-- Adds an assertion. By itself it closes the open draft, and only a check that recurs is kept. -/
def addAssertion (options : MethodOptions) (g : Grouping) (a : Assertion) : Grouping :=
  if !options.separateAssertions then g.append options (.assertion a)
  else
    match a.placement with
    | .separateMethod .. =>
      { g.close with
        checks := setEntry a.shape (((valueAt? a.shape g.checks).getD []) ++ [a]) g.checks }
    | _ => g.close

/-- Adds an action that is left to a component. -/
def addDelegated (options : MethodOptions) (g : Grouping) (component : Nat) (a : Action) :
    Grouping :=
  match g.open? options fun d => d.component = some component with
  | some d => g.extend d (.action a)
  | none => g.start .delegation (.action a) (some component)

/-- Adds an action of the owner itself. -/
def addOwn (options : MethodOptions) (g : Grouping) (a : Action) : Grouping :=
  match a.kind with
  | .navigation =>
    if options.separateNavigation then (g.start .navigation (.action a)).close
    else g.start .actions (.action a)
  | .wait =>
    let g := g.append options (.action a)
    if a.verbIn ["waitForURL"] then g.close else g
  | _ =>
    match g.open? options fun d => d.kind = .actions with
    | none => g.start .actions (.action a)
    | some d =>
      match d.relation options a with
      | .continues => g.extend d (.action a)
      | .completes => g.extend { d with isComplete := true } (.action a)
      | .apart => g.start .actions (.action a)

/-- Adds the next item, given the components that actions are left to. -/
def add (options : MethodOptions) (usages : List (Nat × Nat)) (g : Grouping) : Item → Grouping
  | .assertion a => g.addAssertion options a
  | .action a =>
    match valueAt? a.number usages with
    | some component => g.addDelegated options component a
    | none => g.addOwn options a

/-- All drafts in the order of their first lines. -/
def finish (g : Grouping) : List Draft :=
  let checks := g.checks.map fun (_, assertions) =>
    { kind := .verification, items := assertions.map Item.assertion : Draft }
  (g.close.closed ++ checks).mergeSort fun a b => a.firstLine ≤ b.firstLine

end Grouping

/-- The drafts that some items make. -/
def Draft.ofItems (options : MethodOptions) (usages : List (Nat × Nat)) (items : List Item) :
    List Draft :=
  (items.foldl (Grouping.add options usages) {}).finish

end PageObjects
