import PageObjects.Proofs.Page.Binding
import PageObjects.Script.Extract

namespace PageObjects

/-- Whether an interaction explains what an assertion checks, and by what. -/
inductive Action.Explains (b : Action) (a : Assertion) : Cause → Prop
  | navigation {verb : Text} (acts : b.kind = .interaction) (checks : a.type = .url)
      (own : b.verb = some verb)
      (leads : verb ∈ (["click", "dblclick", "tap", "press"] : List Text)) :
      Explains b a .navigation
  | reveal {verb : Text} (acts : b.kind = .interaction) (checks : a.type = .visible)
      (own : b.verb = some verb)
      (shows : verb ∈ (["click", "dblclick", "tap", "hover", "press", "check"] : List Text)) :
      Explains b a .reveal
  | value {s t : AssessedSelector} (acts : b.kind = .interaction) (checks : a.type = .value)
      (own : b.selector = some s) (checked : a.selector = some t) (same : s.raw = t.raw) :
      Explains b a .value

namespace Assertion

/-- Whether the item before an assertion explains it. -/
def IsExplained (a : Assertion) (previous : Option Item) : Prop :=
  ∃ b cause, previous = some (.action b) ∧ b.Explains a cause

/-- The placement of an assertion with the given item before it and so many assertions of its shape
in the document. -/
inductive PlacedAs (a : Assertion) (previous : Option Item) (times : Nat) : Placement → Prop
  | explained {b : Action} {cause : Cause} (before : previous = some (.action b))
      (why : b.Explains a cause) :
      PlacedAs a previous times (.inPageObject cause (b.verb.getD "None") b.line)
  | recurring (unexplained : ¬ a.IsExplained previous) (often : 2 ≤ times) :
      PlacedAs a previous times (.separateMethod a.type times)
  | alone (unexplained : ¬ a.IsExplained previous) (seldom : ¬ 2 ≤ times) :
      PlacedAs a previous times .inTest

variable {a : Assertion} {b : Action} {previous : Option Item} {times : Nat}
  {placement : Placement}

theorem verbIn_iff {verbs : List Text} :
    b.verbIn verbs = true ↔ ∃ verb, b.verb = some verb ∧ verb ∈ verbs := by
  show b.verb.any verbs.contains = true ↔ _
  rw [Option.any_eq_true]
  constructor
  · rintro ⟨verb, own, listed⟩
    exact ⟨verb, own, List.contains_iff_mem.mp listed⟩
  · rintro ⟨verb, own, listed⟩
    exact ⟨verb, own, List.contains_iff_mem.mpr listed⟩

theorem sameSelector_iff {s t : Option AssessedSelector} :
    sameSelector s t = true ↔ ∃ u v, s = some u ∧ t = some v ∧ u.raw = v.raw := by
  cases s with
  | none => simp [sameSelector]
  | some u =>
    cases t with
    | none => simp [sameSelector]
    | some v => simp [sameSelector]

/-- An interaction has the cause that explains an assertion, if there is one. -/
theorem explains_iff {cause : Cause} :
    b.Explains a cause ↔ b.kind = .interaction ∧ a.cause? b = some cause := by
  have exclusive : ∀ {s t : AssertionType}, a.type = s → s ≠ t → ¬ a.type = t := by
    rintro s t rfl other same
    exact other same
  constructor
  · rintro (⟨acts, checks, own, leads⟩ | ⟨acts, checks, own, shows⟩ |
      ⟨acts, checks, own, checked, same⟩)
    · refine ⟨acts, ?_⟩
      rw [cause?, if_pos ⟨checks, verbIn_iff.mpr ⟨_, own, leads⟩⟩]
    · refine ⟨acts, ?_⟩
      rw [cause?, if_neg fun h => exclusive checks (by decide) h.1,
        if_pos ⟨checks, verbIn_iff.mpr ⟨_, own, shows⟩⟩]
    · refine ⟨acts, ?_⟩
      rw [cause?, if_neg fun h => exclusive checks (by decide) h.1,
        if_neg fun h => exclusive checks (by decide) h.1,
        if_pos ⟨checks, sameSelector_iff.mpr ⟨_, _, own, checked, same⟩⟩]
  · rintro ⟨acts, found⟩
    unfold cause? at found
    split at found
    next h =>
      cases Option.some.inj found
      obtain ⟨verb, own, leads⟩ := verbIn_iff.mp h.2
      exact .navigation acts h.1 own leads
    next =>
      split at found
      next h =>
        cases Option.some.inj found
        obtain ⟨verb, own, shows⟩ := verbIn_iff.mp h.2
        exact .reveal acts h.1 own shows
      next =>
        split at found
        next h =>
          cases Option.some.inj found
          obtain ⟨s, t, own, checked, same⟩ := sameSelector_iff.mp h.2
          exact .value acts h.1 own checked same
        next => cases found

theorem explained?_eq_some : a.explained? previous = some placement ↔
    ∃ b cause, previous = some (.action b) ∧ b.Explains a cause ∧
      placement = .inPageObject cause (b.verb.getD "None") b.line := by
  constructor
  · intro found
    unfold explained? at found
    split at found
    next b =>
      split at found
      next acts =>
        obtain ⟨cause, own, rfl⟩ := Option.map_eq_some_iff.mp found
        exact ⟨b, cause, rfl, explains_iff.mpr ⟨acts, own⟩, rfl⟩
      next => cases found
    next => cases found
  · rintro ⟨b, cause, rfl, why, rfl⟩
    obtain ⟨acts, own⟩ := explains_iff.mp why
    rw [explained?, if_pos acts, own]
    rfl

theorem placedAs_placementAmong (shapes : List Shape) (previous : Option Item) (a : Assertion) :
    a.PlacedAs previous (shapes.count a.shape) (a.placementAmong shapes previous) := by
  unfold placementAmong
  cases found : a.explained? previous with
  | some placement =>
    obtain ⟨b, cause, before, why, rfl⟩ := explained?_eq_some.mp found
    exact .explained before why
  | none =>
    have unexplained : ¬ a.IsExplained previous := by
      rintro ⟨b, cause, before, why⟩
      rw [explained?_eq_some.mpr ⟨b, cause, before, why, rfl⟩] at found
      cases found
    dsimp only
    rw [Option.getD_none]
    split
    next often => exact .recurring unexplained often
    next seldom => exact .alone unexplained seldom

theorem PlacedAs.name_iff (h : a.PlacedAs previous times placement) :
    (placement.name = "in_page_object" ↔ a.IsExplained previous) ∧
    (placement.name = "separate_method" ↔ ¬ a.IsExplained previous ∧ 2 ≤ times) ∧
    (placement.name = "in_test" ↔ ¬ a.IsExplained previous ∧ ¬ 2 ≤ times) := by
  have page_method : ("in_page_object" : Text) ≠ "separate_method" := by decide +kernel
  have page_test : ("in_page_object" : Text) ≠ "in_test" := by decide +kernel
  have method_test : ("separate_method" : Text) ≠ "in_test" := by decide +kernel
  cases h with
  | @explained b cause before why =>
    have own : a.IsExplained previous := ⟨b, cause, before, why⟩
    exact ⟨iff_of_true rfl own, iff_of_false page_method fun h => h.1 own,
      iff_of_false page_test fun h => h.1 own⟩
  | recurring unexplained often =>
    exact ⟨iff_of_false page_method.symm unexplained, iff_of_true rfl ⟨unexplained, often⟩,
      iff_of_false method_test fun h => h.2 often⟩
  | alone unexplained seldom =>
    exact ⟨iff_of_false page_test.symm unexplained,
      iff_of_false method_test.symm fun h => seldom h.2, iff_of_true rfl ⟨unexplained, seldom⟩⟩

end Assertion

section Document

variable {shapes : List Shape} {previous : Option Item}

theorem placeItems_append (shapes : List Shape) (previous : Option Item)
    (before after : List Item) :
    placeItems shapes previous (before ++ after) = placeItems shapes previous before ++
      placeItems shapes (before.getLast?.or previous) after := by
  induction before generalizing previous with
  | nil => rfl
  | cons i rest ih =>
    have last : rest.getLast?.or (some i) = (i :: rest).getLast?.or previous := by
      rw [List.getLast?_cons]
      cases rest.getLast? with
      | none => rfl
      | some j => rfl
    have rest := ih (some i)
    rw [last] at rest
    cases i with
    | action a => rw [List.cons_append, placeItems, rest, placeItems, List.cons_append]
    | assertion a => rw [List.cons_append, placeItems, rest, placeItems, List.cons_append]

/-- Pages do not matter: the items of all of them are placed in one go. -/
theorem allItems_placePages (shapes : List Shape) (previous : Option Item) (pages : List Page) :
    allItems (placePages shapes previous pages) = placeItems shapes previous (allItems pages) := by
  induction pages generalizing previous with
  | nil => rfl
  | cons p rest ih =>
    have own : allItems (p :: rest) = p.items ++ allItems rest := rfl
    rw [own, placeItems_append, ← ih]
    rfl

theorem allAssertions_eq (pages : List Page) :
    allAssertions pages = (allItems pages).filterMap Item.assertion? := by
  rw [allItems, List.filterMap_flatMap]
  rfl

/-- An item before its assertion is placed. -/
def Item.unplaced : Item → Item
  | action a => .action a
  | assertion a => .assertion { a with placement := .inTest }

def Page.unplaced (p : Page) : Page := { p with items := p.items.map Item.unplaced }

theorem map_unplaced_placeAssertions (pages : List Page) :
    (placeAssertions pages).map Page.unplaced = pages.map Page.unplaced := by
  apply map_placePages
  intro previous p
  have same : (placeItems ((allAssertions pages).map Assertion.shape) previous p.items).map
      Item.unplaced = p.items.map Item.unplaced :=
    map_placeItems (fun _ _ => rfl) _ previous p.items
  rw [Page.unplaced, Page.unplaced, Page.placed, same]

/-- The warning that an item gives. -/
def Item.matcherWarning? : Item → Option Warning
  | action _ => none
  | assertion a => if a.type = .custom then some (.customAssertion a.matcher a.line) else none

theorem assertionWarnings_eq (pages : List Page) :
    assertionWarnings pages = (allItems pages).filterMap Item.matcherWarning? := by
  rw [assertionWarnings, allAssertions_eq, List.filter_filterMap, List.map_filterMap]
  congr 1
  funext i
  cases i with
  | action a => rfl
  | assertion a =>
    by_cases custom : a.type = .custom
    · simp [Item.assertion?, Item.matcherWarning?, custom]
    · simp [Item.assertion?, Item.matcherWarning?, custom]

theorem assertionWarnings_placeAssertions (pages : List Page) :
    assertionWarnings (placeAssertions pages) =
      (allItems pages).filterMap Item.matcherWarning? := by
  rw [assertionWarnings_eq, placeAssertions, allItems_placePages]
  exact filterMap_placeItems (fun _ _ => rfl) _ none (allItems pages)

/-- How many assertions of a document check the same as a given one. -/
def timesChecked (pages : List Page) (a : Assertion) : Nat :=
  (allAssertions pages).countP fun other =>
    other.type = a.type ∧ other.selector.map (·.raw) = a.selector.map (·.raw)

theorem count_shape (pages : List Page) (a : Assertion) :
    ((allAssertions pages).map Assertion.shape).count a.shape = timesChecked pages a := by
  rw [timesChecked, List.count, List.countP_map]
  apply List.countP_congr
  intro other _
  simp [Assertion.shape, Prod.ext_iff]

/-- Each assertion is placed by the item before it in the document, whatever page that is on, and by
the number of assertions that check the same. -/
theorem exists_placed {pages : List Page} {before after : List Item} {a : Assertion}
    (split : allItems pages = before ++ .assertion a :: after) :
    ∃ before' placement after', allItems (placeAssertions pages) =
        before' ++ .assertion { a with placement := placement } :: after' ∧
      before'.length = before.length ∧
      a.PlacedAs before.getLast? (timesChecked pages a) placement := by
  rw [placeAssertions, allItems_placePages, split, placeItems_append, Option.or_none]
  refine ⟨_, _, _, rfl, ?_, ?_⟩
  · have same := map_placeItems (f := fun _ => ()) (fun _ _ => rfl)
      ((allAssertions pages).map Assertion.shape) none before
    simpa using congrArg List.length same
  · rw [← count_shape]
    exact Assertion.placedAs_placementAmong _ _ a

end Document

/-- Where an assertion belongs depends on the item before it and on the number of assertions that
check the same. It belongs to the page object if that item, on the same page or on the one before,
is an interaction that explains it, else into a method of its own if there are at least two such
assertions, and else into the test. Nothing but the placements of assertions changes, and a warning
is given for each assertion with an unknown matcher, in the order of the document. -/
theorem placed_by_predecessor (pages : List Page) :
    (∀ before a after, allItems pages = before ++ .assertion a :: after →
      ∃ before' placement after', allItems (placeAssertions pages) =
          before' ++ .assertion { a with placement := placement } :: after' ∧
        before'.length = before.length ∧
        a.PlacedAs before.getLast? (timesChecked pages a) placement ∧
        (placement.name = ("in_page_object" : Text) ↔ a.IsExplained before.getLast?) ∧
        (placement.name = ("separate_method" : Text) ↔
          ¬ a.IsExplained before.getLast? ∧ 2 ≤ timesChecked pages a) ∧
        (placement.name = ("in_test" : Text) ↔
          ¬ a.IsExplained before.getLast? ∧ ¬ 2 ≤ timesChecked pages a)) ∧
    (placeAssertions pages).map Page.unplaced = pages.map Page.unplaced ∧
    assertionWarnings (placeAssertions pages) =
      (allItems pages).filterMap Item.matcherWarning? := by
  refine ⟨?_, map_unplaced_placeAssertions pages, assertionWarnings_placeAssertions pages⟩
  intro before a after split
  obtain ⟨before', placement, after', whole, length, placed⟩ := exists_placed split
  exact ⟨before', placement, after', whole, length, placed, placed.name_iff⟩

/-- A click, and a check of the URL in the tab that it opens. -/
def helpVisit : Text := "await page.click('#help');\nawait expect(popup).toHaveURL('/help');"

/-- The check stands on the page of the tab, and the click on the page before explains it. -/
theorem placed_by_predecessor_helpVisit : ∃ spans b a before placement after,
    PageSpan.ofStatements {} (Statement.ofText helpVisit) = .ok spans ∧
    ((Page.ofSpans {} spans).map fun p => p.items.length) = [1, 1] ∧
    allItems (Page.ofSpans {} spans) = [.action b] ++ .assertion a :: [] ∧
    b.Explains a .navigation ∧
    allItems (placeAssertions (Page.ofSpans {} spans)) =
      before ++ .assertion { a with placement := placement } :: after ∧
    before.length = 1 ∧ placement.name = ("in_page_object" : Text) := by
  have found : (PageSpan.ofStatements {} (Statement.ofText helpVisit)).toOption.any (fun spans =>
      decide (((Page.ofSpans {} spans).map fun p => p.items.length) = [1, 1] ∧
        (allItems (Page.ofSpans {} spans)).map (fun i => i.action?.map fun b => (b.kind, b.verb)) =
          [some (.interaction, some ("click" : Text)), none] ∧
        (allItems (Page.ofSpans {} spans)).map (fun i => i.assertion?.map Assertion.type) =
          [none, some .url])) = true := by
    decide +kernel
  obtain ⟨spans, hs, found⟩ := exists_ok_of_any found
  obtain ⟨lengths, acts, checks⟩ := of_decide_eq_true found
  obtain ⟨i, rest, split, deed, others⟩ := List.map_eq_cons_iff.mp acts
  obtain ⟨j, rest, rfl, -, noMore⟩ := List.map_eq_cons_iff.mp others
  cases List.map_eq_nil_iff.mp noMore
  rw [split] at checks
  obtain ⟨b, rfl⟩ : ∃ b, i = .action b := by
    cases i with
    | action b => exact ⟨b, rfl⟩
    | assertion a => cases deed
  obtain ⟨a, rfl⟩ : ∃ a, j = .assertion a := by
    cases j with
    | action b => simp [Item.assertion?] at checks
    | assertion a => exact ⟨a, rfl⟩
  have type : a.type = .url := by simpa [Item.assertion?] using checks
  obtain ⟨kind, verb⟩ := Prod.mk.inj (Option.some.inj deed)
  have why : b.Explains a .navigation := .navigation kind type verb (by simp)
  obtain ⟨placed, -, -⟩ := placed_by_predecessor (Page.ofSpans {} spans)
  obtain ⟨before, placement, after, whole, one, -, page, -, -⟩ := placed [.action b] a [] split
  have name := page.mpr ⟨b, .navigation, rfl, why⟩
  exact ⟨spans, b, a, before, placement, after, hs, lengths, split, why, whole, one, name⟩

end PageObjects
