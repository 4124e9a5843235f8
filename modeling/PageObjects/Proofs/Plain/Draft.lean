import PageObjects.Method.Draft
import PageObjects.Proofs.Entries
import PageObjects.Proofs.Plain.Component

namespace PageObjects

def Draft.plain (d : Draft) : Draft := { d with items := d.items.map Item.plain }

@[simp] theorem AssessedSelector.content?_plain (s : AssessedSelector) :
    s.plain.content? = s.content? := rfl

/-- What is read of a selector is read of the plain one. -/
theorem bind_selector_plain {α : Type} {read : AssessedSelector → Option α}
    (same : ∀ s, read s.plain = read s) (a : Option Action) :
    ((a.map Action.plain).bind (·.selector)).bind read = (a.bind (·.selector)).bind read := by
  cases a with
  | none => rfl
  | some a => cases chosen : a.selector <;> simp [chosen, same]

namespace Draft

variable (d : Draft)

@[simp] theorem kind_plain : d.plain.kind = d.kind := rfl

@[simp] theorem items_plain : d.plain.items = d.items.map Item.plain := rfl

@[simp] theorem component_plain : d.plain.component = d.component := rfl

@[simp] theorem actions_plain : d.plain.actions = d.actions.map Action.plain :=
  filterMap_map_of_comm Item.action?_plain d.items

@[simp] theorem assertions_plain : d.plain.assertions = d.assertions.map Assertion.plain :=
  filterMap_map_of_comm Item.assertion?_plain d.items

@[simp] theorem lastDeed?_plain : d.plain.lastDeed? = d.lastDeed?.map Action.plain := by
  rw [lastDeed?, actions_plain, ← List.map_reverse, List.find?_map]
  rfl

@[simp] theorem terminal?_plain : d.plain.terminal? = d.terminal?.map Action.plain := by
  rw [terminal?, terminal?, lastDeed?_plain, actions_plain, List.getLast?_map, Option.map_or]

@[simp] theorem lines_plain : d.plain.lines = d.lines := by
  simp [lines, Function.comp_def]

@[simp] theorem firstLine_plain : d.plain.firstLine = d.firstLine := by
  simp [firstLine]

@[simp] theorem lastLine_plain : d.plain.lastLine = d.lastLine := by
  simp [lastLine, Function.comp_def]

end Draft

@[simp] theorem sameRoot_plain (a b : Action) : sameRoot a.plain b.plain = sameRoot a b := by
  rw [sameRoot, sameRoot, Action.selector_plain, Action.selector_plain]
  cases a.selector with
  | none => rfl
  | some s => cases b.selector <;> rfl

theorem Draft.relation_plain (options : MethodOptions) (d : Draft) (a : Action) :
    d.plain.relation options a.plain = d.relation options a := by
  rw [relation, relation, lastDeed?_plain]
  cases d.lastDeed? with
  | none => rfl
  | some last =>
    rw [Option.map_some]
    dsimp only
    rw [sameRoot_plain, Action.raw_plain]
    rfl

def Grouping.plain (g : Grouping) : Grouping :=
  { closed := g.closed.map Draft.plain
    current := g.current.map Draft.plain
    checks := g.checks.map fun (shape, assertions) => (shape, assertions.map Assertion.plain) }

namespace Grouping

variable (options : MethodOptions) (g : Grouping)

theorem close_plain : g.plain.close = g.close.plain := by
  cases current : g.current <;> simp [close, plain, current]

theorem start_plain (kind : MethodKind) (item : Item) (component : Option Nat) :
    g.plain.start kind item.plain component = (g.start kind item component).plain := by
  rw [start, start, close_plain]
  rfl

theorem extend_plain (d : Draft) (item : Item) :
    g.plain.extend d.plain item.plain = (g.extend d item).plain := by
  simp [extend, plain, Draft.plain]

theorem open?_plain {p q : Draft → Bool} (same : ∀ d : Draft, p d.plain = q d) :
    g.plain.open? options p = (g.open? options q).map Draft.plain := by
  rw [open?, open?, plain]
  cases g.current with
  | none => rfl
  | some d =>
    rw [Option.map_some, Option.filter_some, Option.filter_some, same, Draft.items_plain,
      List.length_map]
    split <;> rfl

theorem append_plain (item : Item) :
    g.plain.append options item.plain = (g.append options item).plain := by
  rw [append, append, g.open?_plain options (q := fun _ => true) fun _ => rfl]
  cases g.open? options fun _ => true with
  | none => exact g.start_plain .actions item none
  | some d => exact g.extend_plain d item

theorem addAssertion_plain (a : Assertion) :
    g.plain.addAssertion options a.plain = (g.addAssertion options a).plain := by
  rw [addAssertion, addAssertion]
  by_cases joined : !options.separateAssertions
  · rw [if_pos joined, if_pos joined]
    exact g.append_plain options (.assertion a)
  rw [if_neg joined, if_neg joined, close_plain, Assertion.placement_plain]
  cases a.placement with
  | separateMethod type times =>
    have seen : (valueAt? a.plain.shape g.plain.checks).getD [] ++ [a.plain] =
        ((valueAt? a.shape g.checks).getD [] ++ [a]).map Assertion.plain := by
      rw [Assertion.shape_plain, plain, valueAt?_map, List.map_append]
      cases valueAt? a.shape g.checks <;> rfl
    dsimp only
    rw [seen, Assertion.shape_plain, plain, plain, plain, setEntry_map]
  | inPageObject cause verb line => rfl
  | inTest => rfl

theorem addDelegated_plain (component : Nat) (a : Action) :
    g.plain.addDelegated options component a.plain =
      (g.addDelegated options component a).plain := by
  rw [addDelegated, addDelegated,
    g.open?_plain options (q := fun d => d.component = some component) fun _ => rfl]
  cases g.open? options fun d => d.component = some component with
  | none => exact g.start_plain .delegation (.action a) (some component)
  | some d => exact g.extend_plain d (.action a)

theorem addOwn_plain (a : Action) :
    g.plain.addOwn options a.plain = (g.addOwn options a).plain := by
  have begun := g.start_plain .actions (.action a) none
  rw [addOwn, addOwn, Action.kind_plain]
  cases a.kind with
  | navigation =>
    dsimp only
    by_cases apart : options.separateNavigation
    · rw [if_pos apart, if_pos apart, ← close_plain]
      exact congrArg close (g.start_plain .navigation (.action a) none)
    · rw [if_neg apart, if_neg apart]
      exact begun
  | wait =>
    have appended := g.append_plain options (.action a)
    dsimp only
    rw [Item.plain] at appended
    rw [appended, Action.verbIn_plain, close_plain]
    split <;> rfl
  | _ =>
    dsimp only
    rw [g.open?_plain options (q := fun d => d.kind = .actions) fun _ => rfl]
    cases g.open? options fun d => d.kind = .actions with
    | none => exact begun
    | some d =>
      dsimp only [Option.map_some]
      rw [d.relation_plain options a]
      cases d.relation options a with
      | continues => exact g.extend_plain d (.action a)
      | completes => exact g.extend_plain { d with isComplete := true } (.action a)
      | apart => exact begun

theorem add_plain (usages : List (Nat × Nat)) (item : Item) :
    g.plain.add options usages item.plain = (g.add options usages item).plain := by
  cases item with
  | assertion a => exact g.addAssertion_plain options a
  | action a =>
    rw [Item.plain, add, add, Action.number_plain]
    cases valueAt? a.number usages with
    | none => exact g.addOwn_plain options a
    | some component => exact g.addDelegated_plain options component a

theorem finish_plain : g.plain.finish = g.finish.map Draft.plain := by
  have checks : (g.plain.checks.map fun (_, assertions) =>
      { kind := .verification, items := assertions.map Item.assertion : Draft }) =
      (g.checks.map fun (_, assertions) =>
        { kind := .verification, items := assertions.map Item.assertion : Draft }).map
          Draft.plain := by
    rw [plain, List.map_map, List.map_map]
    refine List.map_congr_left fun check _ => ?_
    simp [Draft.plain, Item.plain, Function.comp_def]
  rw [finish, finish, close_plain, checks]
  rw [plain, ← List.map_append]
  refine (List.map_mergeSort fun a _ b _ => ?_).symm
  rw [Draft.firstLine_plain, Draft.firstLine_plain]

end Grouping

theorem Draft.ofItems_plain (options : MethodOptions) (usages : List (Nat × Nat))
    (items : List Item) :
    ofItems options usages (items.map Item.plain) =
      (ofItems options usages items).map Draft.plain := by
  have grouped : (items.map Item.plain).foldl (Grouping.add options usages) {} =
      (items.foldl (Grouping.add options usages) {}).plain :=
    foldl_map_of_comm Grouping.plain Item.plain
      (fun g item => g.add_plain options usages item) items {}
  rw [ofItems, ofItems, grouped, Grouping.finish_plain]

end PageObjects
