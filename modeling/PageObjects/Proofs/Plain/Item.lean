import PageObjects.Page.Placement

namespace PageObjects

/-- A selector without what could replace it. -/
def AssessedSelector.plain (s : AssessedSelector) : AssessedSelector := { s with candidates := [] }

@[simp] theorem AssessedSelector.toSelector_plain (s : AssessedSelector) :
    s.plain.toSelector = s.toSelector := rfl

def Action.plain (a : Action) : Action :=
  { a with selector := a.selector.map AssessedSelector.plain }

def Assertion.plain (a : Assertion) : Assertion :=
  { a with selector := a.selector.map AssessedSelector.plain }

def Item.plain : Item → Item
  | .action a => .action a.plain
  | .assertion a => .assertion a.plain

def Page.plain (p : Page) : Page := { p with items := p.items.map Item.plain }

namespace Action

variable (a : Action)

@[simp] theorem number_plain : a.plain.number = a.number := rfl

@[simp] theorem statement_plain : a.plain.statement = a.statement := rfl

@[simp] theorem line_plain : a.plain.line = a.line := rfl

@[simp] theorem verb_plain : a.plain.verb = a.verb := rfl

@[simp] theorem verbIn_plain (verbs : List Text) : a.plain.verbIn verbs = a.verbIn verbs := rfl

@[simp] theorem kind_plain : a.plain.kind = a.kind := rfl

@[simp] theorem parameters_plain : a.plain.parameters = a.parameters := rfl

@[simp] theorem selector_plain : a.plain.selector = a.selector.map AssessedSelector.plain := rfl

end Action

namespace Assertion

variable (a : Assertion)

@[simp] theorem number_plain : a.plain.number = a.number := rfl

@[simp] theorem statement_plain : a.plain.statement = a.statement := rfl

@[simp] theorem line_plain : a.plain.line = a.line := rfl

@[simp] theorem type_plain : a.plain.type = a.type := rfl

@[simp] theorem expected_plain : a.plain.expected = a.expected := rfl

@[simp] theorem placement_plain : a.plain.placement = a.placement := rfl

@[simp] theorem selector_plain : a.plain.selector = a.selector.map AssessedSelector.plain := rfl

@[simp] theorem shape_plain : a.plain.shape = a.shape := by
  simp [shape, Function.comp_def]

end Assertion

namespace Item

variable (i : Item)

@[simp] theorem id_plain : i.plain.id = i.id := by cases i <;> rfl

@[simp] theorem statement_plain : i.plain.statement = i.statement := by cases i <;> rfl

@[simp] theorem line_plain : i.plain.line = i.line := by cases i <;> rfl

@[simp] theorem selector_plain : i.plain.selector = i.selector.map AssessedSelector.plain := by
  cases i <;> rfl

@[simp] theorem action?_plain : i.plain.action? = i.action?.map Action.plain := by
  cases i <;> rfl

@[simp] theorem assertion?_plain : i.plain.assertion? = i.assertion?.map Assertion.plain := by
  cases i <;> rfl

end Item

/-- What is picked from plain items is picked from the items, and then plain. -/
theorem filterMap_map_of_comm {α β : Type} {pick : α → Option β} {f : α → α} {g : β → β}
    (comm : ∀ x, pick (f x) = (pick x).map g) (l : List α) :
    (l.map f).filterMap pick = (l.filterMap pick).map g := by
  rw [List.filterMap_map, List.map_filterMap]
  exact congrArg (fun h => l.filterMap h) (funext comm)

namespace Page

variable (p : Page)

@[simp] theorem toPageSpan_plain : p.plain.toPageSpan = p.toPageSpan := rfl

@[simp] theorem number_plain : p.plain.number = p.number := rfl

@[simp] theorem firstLine_plain : p.plain.firstLine = p.firstLine := rfl

@[simp] theorem items_plain : p.plain.items = p.items.map Item.plain := rfl

@[simp] theorem actions_plain : p.plain.actions = p.actions.map Action.plain :=
  filterMap_map_of_comm Item.action?_plain p.items

@[simp] theorem assertions_plain : p.plain.assertions = p.assertions.map Assertion.plain :=
  filterMap_map_of_comm Item.assertion?_plain p.items

end Page

/-- The options for selectors decide about candidates only. -/
theorem Content.assessed?_plain (s t : SelectorOptions) (c : Content) :
    (c.assessed? s).map AssessedSelector.plain = (c.assessed? t).map AssessedSelector.plain := by
  rw [assessed?, assessed?, Option.map_map, Option.map_map]
  rfl

theorem Action.ofStatement_plain (s t : SelectorOptions) (number : Nat) (statement : Statement) :
    (ofStatement s number statement).plain = (ofStatement t number statement).plain := by
  have selectors := statement.assessed?_plain s t
  have same : (statement.assessed? s).map (·.toSelector) =
      (statement.assessed? t).map (·.toSelector) := by
    have erased := congrArg (Option.map (·.toSelector)) selectors
    rwa [Option.map_map, Option.map_map] at erased
  simp only [ofStatement, plain, selectors, same]

theorem Assertion.ofStatement_plain (s t : SelectorOptions) (number : Nat)
    (statement : Statement) :
    (ofStatement s number statement).plain = (ofStatement t number statement).plain := by
  simp only [ofStatement, plain, statement.assessed?_plain s t]

theorem bindStatements_plain (s t : SelectorOptions) (tally : Tally) (statements : List Statement) :
    (bindStatements s tally statements).1.map Item.plain =
      (bindStatements t tally statements).1.map Item.plain ∧
    (bindStatements s tally statements).2 = (bindStatements t tally statements).2 := by
  induction statements generalizing tally with
  | nil => exact ⟨rfl, rfl⟩
  | cons statement rest ih =>
    rw [bindStatements, bindStatements]
    split
    next => exact ih tally
    next =>
      obtain ⟨items, last⟩ := ih { tally with assertions := tally.assertions + 1 }
      refine ⟨?_, last⟩
      rw [List.map_cons, List.map_cons, items, Item.plain, Item.plain,
        Assertion.ofStatement_plain s t]
    next =>
      obtain ⟨items, last⟩ := ih { tally with actions := tally.actions + 1 }
      refine ⟨?_, last⟩
      rw [List.map_cons, List.map_cons, items, Item.plain, Item.plain, Action.ofStatement_plain s t]

theorem bindSpans_plain (s t : SelectorOptions) (number : Nat) (tally : Tally)
    (spans : List PageSpan) : (bindSpans s number tally spans).map Page.plain =
      (bindSpans t number tally spans).map Page.plain := by
  induction spans generalizing number tally with
  | nil => rfl
  | cons span rest ih =>
    obtain ⟨items, last⟩ := bindStatements_plain s t tally span.statements
    rw [bindSpans, bindSpans, List.map_cons, List.map_cons, ← last, ih, Page.plain, Page.plain]
    simp only [items]

@[simp] theorem allItems_plain (pages : List Page) :
    allItems (pages.map Page.plain) = (allItems pages).map Item.plain := by
  simp [allItems, List.flatMap_map, List.map_flatMap]

@[simp] theorem allAssertions_plain (pages : List Page) :
    allAssertions (pages.map Page.plain) = (allAssertions pages).map Assertion.plain := by
  simp [allAssertions, List.flatMap_map, List.map_flatMap]

@[simp] theorem sameSelector_plain (a b : Option AssessedSelector) :
    sameSelector (a.map AssessedSelector.plain) (b.map AssessedSelector.plain) =
      sameSelector a b := by
  cases a with
  | none => rfl
  | some s =>
    cases b with
    | none => rfl
    | some t => rfl

@[simp] theorem Assertion.placementAmong_plain (shapes : List Shape) (previous : Option Item)
    (a : Assertion) : a.plain.placementAmong shapes (previous.map Item.plain) =
      a.placementAmong shapes previous := by
  have explained : a.plain.explained? (previous.map Item.plain) = a.explained? previous := by
    cases previous with
    | none => rfl
    | some i =>
      cases i with
      | action b => simp [explained?, Item.plain, cause?]
      | assertion b => rfl
  simp only [placementAmong, explained, shape_plain, type_plain]

theorem placeItems_plain (shapes : List Shape) (previous : Option Item) (items : List Item) :
    placeItems shapes (previous.map Item.plain) (items.map Item.plain) =
      (placeItems shapes previous items).map Item.plain := by
  induction items generalizing previous with
  | nil => rfl
  | cons i rest ih =>
    have rest := ih (some i)
    cases i with
    | action a => simpa [placeItems, Item.plain] using rest
    | assertion a =>
      have placed := a.placementAmong_plain shapes previous
      simp only [Option.map_some, Item.plain] at rest
      simp only [List.map_cons, Item.plain, placeItems, placed, rest]
      rfl

theorem placePages_plain (shapes : List Shape) (previous : Option Item) (pages : List Page) :
    placePages shapes (previous.map Item.plain) (pages.map Page.plain) =
      (placePages shapes previous pages).map Page.plain := by
  induction pages generalizing previous with
  | nil => rfl
  | cons p rest ih =>
    have last : ((p.items.map Item.plain).getLast?).or (previous.map Item.plain) =
        (p.items.getLast?.or previous).map Item.plain := by
      rw [List.getLast?_map, ← Option.map_or]
    simp only [List.map_cons, placePages, Page.items_plain, placeItems_plain, last, ih]
    rfl

theorem placeAssertions_plain (pages : List Page) :
    placeAssertions (pages.map Page.plain) = (placeAssertions pages).map Page.plain := by
  have shapes : (allAssertions (pages.map Page.plain)).map Assertion.shape =
      (allAssertions pages).map Assertion.shape := by
    simp [Function.comp_def]
  have placed := placePages_plain ((allAssertions pages).map Assertion.shape) none pages
  rw [placeAssertions, placeAssertions, shapes]
  exact placed

/-- The pages of a script, candidates aside, do not depend on the options for selectors. -/
theorem placeAssertions_ofSpans_plain (s t : SelectorOptions) (spans : List PageSpan) :
    (placeAssertions (Page.ofSpans s spans)).map Page.plain =
      (placeAssertions (Page.ofSpans t spans)).map Page.plain := by
  rw [← placeAssertions_plain, ← placeAssertions_plain, Page.ofSpans, Page.ofSpans,
    bindSpans_plain s t]

end PageObjects
