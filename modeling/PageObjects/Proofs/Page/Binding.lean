import PageObjects.Page.Placement
import PageObjects.Proofs.Page.Partition

namespace PageObjects

/-- Whether a statement becomes an action. -/
def Content.isDeed (c : Content) : Bool := !c.isStructural && c.kind != .assertion

/-- Whether a statement becomes an assertion. -/
def Content.isCheck (c : Content) : Bool := c.kind == .assertion

/-- What binding makes of statements: an item for each of them that is not structural, numbered on
from a tally up to another one. -/
structure Binds (tally : Tally) (statements : List Statement) (items : List Item) (last : Tally) :
    Prop where
  all : items.map Item.statement = statements.filter fun s => !s.isStructural
  actions : (items.filterMap Item.action?).map Action.statement =
    statements.filter fun s => s.isDeed
  assertions : (items.filterMap Item.assertion?).map Assertion.statement =
    statements.filter fun s => s.isCheck
  actionNumbers : (items.filterMap Item.action?).map Action.number =
    List.range' (tally.actions + 1) (items.filterMap Item.action?).length
  assertionNumbers : (items.filterMap Item.assertion?).map Assertion.number =
    List.range' (tally.assertions + 1) (items.filterMap Item.assertion?).length
  lastAction : last.actions = tally.actions + (items.filterMap Item.action?).length
  lastAssertion : last.assertions = tally.assertions + (items.filterMap Item.assertion?).length
  parameters : ∀ a ∈ items.filterMap Item.action?, ∀ p ∈ a.parameters, p.actions = [a.number]

namespace Binds

variable {tally last : Tally} {statements : List Statement} {items : List Item} {s : Statement}

theorem nil (tally : Tally) : Binds tally [] [] tally :=
  ⟨rfl, rfl, rfl, rfl, rfl, rfl, rfl, by simp⟩

theorem binds_cons_structural (h : Binds tally statements items last) (hs : s.kind = .structural) :
    Binds tally (s :: statements) items last := by
  have hd : s.isDeed = false := by simp [Content.isDeed, Content.isStructural, hs]
  have hc : s.isCheck = false := by simp [Content.isCheck, hs]
  refine ⟨?_, ?_, ?_, h.actionNumbers, h.assertionNumbers, h.lastAction, h.lastAssertion,
    h.parameters⟩
  · rw [h.all]
    simp [Content.isStructural, hs]
  · rw [h.actions, List.filter_cons_of_neg (by simp [hd])]
  · rw [h.assertions, List.filter_cons_of_neg (by simp [hc])]

theorem binds_cons_assertion (options : SelectorOptions) (hs : s.kind = .assertion)
    (h : Binds { tally with assertions := tally.assertions + 1 } statements items last) :
    Binds tally (s :: statements)
      (.assertion (.ofStatement options (tally.assertions + 1) s) :: items) last := by
  have hd : s.isDeed = false := by simp [Content.isDeed, hs]
  have hc : s.isCheck = true := by simp [Content.isCheck, hs]
  have one : ∀ a : Assertion, (Item.assertion a :: items).filterMap Item.action? =
      items.filterMap Item.action? := fun a => rfl
  have more : ∀ a : Assertion, (Item.assertion a :: items).filterMap Item.assertion? =
      a :: items.filterMap Item.assertion? := fun a => rfl
  refine ⟨?_, ?_, ?_, ?_, ?_, ?_, ?_, ?_⟩
  · rw [List.map_cons, h.all, List.filter_cons_of_pos (by simp [Content.isStructural, hs])]
    rfl
  · rw [one, h.actions, List.filter_cons_of_neg (by simp [hd])]
  · rw [more, List.map_cons, h.assertions, List.filter_cons_of_pos (by simp [hc])]
    rfl
  · rw [one, h.actionNumbers]
  · rw [more, List.map_cons, h.assertionNumbers, List.length_cons, List.range'_succ]
    rfl
  · rw [one, h.lastAction]
  · rw [more, h.lastAssertion, List.length_cons]
    dsimp only
    omega
  · rw [one]
    exact h.parameters

theorem binds_cons_action (options : SelectorOptions) (hs : s.kind ≠ .structural)
    (ha : s.kind ≠ .assertion)
    (h : Binds { tally with actions := tally.actions + 1 } statements items last) :
    Binds tally (s :: statements)
      (.action (.ofStatement options (tally.actions + 1) s) :: items) last := by
  have hd : s.isDeed = true := by simp [Content.isDeed, Content.isStructural, hs, ha]
  have hc : s.isCheck = false := by simp [Content.isCheck, ha]
  have one : ∀ a : Action, (Item.action a :: items).filterMap Item.assertion? =
      items.filterMap Item.assertion? := fun a => rfl
  have more : ∀ a : Action, (Item.action a :: items).filterMap Item.action? =
      a :: items.filterMap Item.action? := fun a => rfl
  refine ⟨?_, ?_, ?_, ?_, ?_, ?_, ?_, ?_⟩
  · rw [List.map_cons, h.all, List.filter_cons_of_pos (by simp [Content.isStructural, hs])]
    rfl
  · rw [more, List.map_cons, h.actions, List.filter_cons_of_pos (by simp [hd])]
    rfl
  · rw [one, h.assertions, List.filter_cons_of_neg (by simp [hc])]
  · rw [more, List.map_cons, h.actionNumbers, List.length_cons, List.range'_succ]
    rfl
  · rw [one, h.assertionNumbers]
  · rw [more, h.lastAction, List.length_cons]
    dsimp only
    omega
  · rw [one, h.lastAssertion]
  · rw [more]
    intro b hb p hp
    rcases List.mem_cons.mp hb with rfl | hb
    · obtain ⟨q, -, rfl⟩ := List.mem_map.mp hp
      rfl
    · exact h.parameters b hb p hp

end Binds

theorem binds_bindStatements (options : SelectorOptions) (tally : Tally)
    (statements : List Statement) :
    Binds tally statements (bindStatements options tally statements).1
      (bindStatements options tally statements).2 := by
  induction statements generalizing tally with
  | nil => exact .nil tally
  | cons s rest ih =>
    rw [bindStatements]
    split
    next hs => exact (ih tally).binds_cons_structural hs
    next ha => exact .binds_cons_assertion options ha (ih _)
    next hs ha => exact .binds_cons_action options hs ha (ih _)

/-- What makes pages those of some spans: each has the items of its statements, and pages, actions
and assertions are numbered on from the given numbers. -/
structure PagesBind (number : Nat) (tally : Tally) (spans : List PageSpan) (pages : List Page) :
    Prop where
  spans : pages.map Page.toPageSpan = spans
  numbers : pages.map Page.number = List.range' number pages.length
  all : ∀ p ∈ pages, p.items.map Item.statement = p.statements.filter fun s => !s.isStructural
  actions : ∀ p ∈ pages, p.actions.map Action.statement = p.statements.filter fun s => s.isDeed
  assertions : ∀ p ∈ pages,
    p.assertions.map Assertion.statement = p.statements.filter fun s => s.isCheck
  actionNumbers : (pages.flatMap Page.actions).map Action.number =
    List.range' (tally.actions + 1) (pages.flatMap Page.actions).length
  assertionNumbers : (pages.flatMap Page.assertions).map Assertion.number =
    List.range' (tally.assertions + 1) (pages.flatMap Page.assertions).length
  parameters : ∀ p ∈ pages, ∀ a ∈ p.actions, ∀ q ∈ a.parameters, q.actions = [a.number]

namespace PagesBind

variable {number : Nat} {tally last : Tally} {spans : List PageSpan} {pages : List Page}

theorem nil (number : Nat) (tally : Tally) : PagesBind number tally [] [] :=
  ⟨rfl, rfl, by simp, by simp, by simp, rfl, rfl, by simp⟩

theorem cons {p : Page} (hn : p.number = number) (hb : Binds tally p.statements p.items last)
    (h : PagesBind (number + 1) last spans pages) :
    PagesBind number tally (p.toPageSpan :: spans) (p :: pages) where
  spans := by rw [List.map_cons, h.spans]
  numbers := by rw [List.map_cons, h.numbers, hn, List.length_cons, List.range'_succ]
  all := List.forall_mem_cons.mpr ⟨hb.all, h.all⟩
  actions := List.forall_mem_cons.mpr ⟨hb.actions, h.actions⟩
  assertions := List.forall_mem_cons.mpr ⟨hb.assertions, h.assertions⟩
  actionNumbers := by
    have own : p.actions.map Action.number = List.range' (tally.actions + 1) p.actions.length :=
      hb.actionNumbers
    have next : last.actions = tally.actions + p.actions.length := hb.lastAction
    rw [List.flatMap_cons, List.map_append, own, h.actionNumbers, List.length_append, next,
      ← List.range'_append_1, Nat.add_right_comm]
  assertionNumbers := by
    have own : p.assertions.map Assertion.number =
        List.range' (tally.assertions + 1) p.assertions.length := hb.assertionNumbers
    have next : last.assertions = tally.assertions + p.assertions.length := hb.lastAssertion
    rw [List.flatMap_cons, List.map_append, own, h.assertionNumbers, List.length_append, next,
      ← List.range'_append_1, Nat.add_right_comm]
  parameters := List.forall_mem_cons.mpr ⟨hb.parameters, h.parameters⟩

end PagesBind

theorem pagesBind_bindSpans (options : SelectorOptions) (number : Nat) (tally : Tally)
    (spans : List PageSpan) :
    PagesBind number tally spans (bindSpans options number tally spans) := by
  induction spans generalizing number tally with
  | nil => exact .nil number tally
  | cons span rest ih =>
    exact .cons
      (p := { span with number := number, items := (bindStatements options tally span.statements).1 })
      rfl (binds_bindStatements options tally span.statements) (ih _ _)

/-- Placing assertions changes nothing else about the items. -/
theorem map_placeItems {α : Type} {f : Item → α}
    (same : ∀ a placement, f (.assertion { a with placement := placement }) = f (.assertion a))
    (shapes : List Shape) (previous : Option Item) (items : List Item) :
    (placeItems shapes previous items).map f = items.map f := by
  induction items generalizing previous with
  | nil => rfl
  | cons i rest ih =>
    cases i with
    | action a => simp only [placeItems, List.map_cons, ih]
    | assertion a => simp only [placeItems, List.map_cons, ih, same]

theorem filterMap_placeItems {α : Type} {f : Item → Option α}
    (same : ∀ a placement, f (.assertion { a with placement := placement }) = f (.assertion a))
    (shapes : List Shape) (previous : Option Item) (items : List Item) :
    (placeItems shapes previous items).filterMap f = items.filterMap f := by
  have mapped := congrArg (List.filterMap id) (map_placeItems same shapes previous items)
  simpa [List.filterMap_map] using mapped

/-- A page with the assertions among its items placed. -/
def Page.placed (shapes : List Shape) (previous : Option Item) (p : Page) : Page :=
  { p with items := placeItems shapes previous p.items }

theorem actions_placed (shapes : List Shape) (previous : Option Item) (p : Page) :
    (p.placed shapes previous).actions = p.actions :=
  filterMap_placeItems (fun _ _ => rfl) shapes previous p.items

theorem map_assertions_placed {α : Type} {f : Assertion → α}
    (same : ∀ a placement, f { a with placement := placement } = f a) (shapes : List Shape)
    (previous : Option Item) (p : Page) :
    (p.placed shapes previous).assertions.map f = p.assertions.map f := by
  simp only [Page.assertions, List.map_filterMap]
  exact filterMap_placeItems (fun a placement => by simp [Item.assertion?, same]) shapes
    previous p.items

theorem map_placePages {α : Type} {f : Page → α} {shapes : List Shape}
    (same : ∀ previous p, f (p.placed shapes previous) = f p) (previous : Option Item)
    (pages : List Page) : (placePages shapes previous pages).map f = pages.map f := by
  induction pages generalizing previous with
  | nil => rfl
  | cons p rest ih =>
    rw [List.map_cons, ← same previous p, ← ih]
    rfl

theorem mem_placePages {shapes : List Shape} {previous : Option Item} {pages : List Page} {q : Page}
    (h : q ∈ placePages shapes previous pages) :
    ∃ p ∈ pages, ∃ previous, q = p.placed shapes previous := by
  induction pages generalizing previous with
  | nil => cases h
  | cons p rest ih =>
    rcases List.mem_cons.mp h with h | h
    · exact ⟨p, by simp, previous, h⟩
    · obtain ⟨p', hp, hq⟩ := ih h
      exact ⟨p', by simp [hp], hq⟩

theorem length_placePages (shapes : List Shape) (previous : Option Item) (pages : List Page) :
    (placePages shapes previous pages).length = pages.length := by
  have numbers : (placePages shapes previous pages).map Page.number = pages.map Page.number :=
    map_placePages (fun _ _ => rfl) previous pages
  simpa using congrArg List.length numbers

namespace PagesBind

variable {number : Nat} {tally : Tally} {spans : List PageSpan} {pages : List Page}

theorem pagesBind_placePages (h : PagesBind number tally spans pages) (shapes : List Shape)
    (previous : Option Item) : PagesBind number tally spans (placePages shapes previous pages) := by
  have actions : (placePages shapes previous pages).flatMap Page.actions =
      pages.flatMap Page.actions := by
    rw [List.flatMap_def, List.flatMap_def, map_placePages (actions_placed shapes)]
  have numbers : ((placePages shapes previous pages).flatMap Page.assertions).map
      Assertion.number = (pages.flatMap Page.assertions).map Assertion.number := by
    rw [List.map_flatMap, List.map_flatMap, List.flatMap_def, List.flatMap_def,
      map_placePages (map_assertions_placed (fun _ _ => rfl) shapes)]
  have count := congrArg List.length numbers
  rw [List.length_map, List.length_map] at count
  refine ⟨?_, ?_, ?_, ?_, ?_, ?_, ?_, ?_⟩
  · rw [map_placePages (fun _ _ => rfl), h.spans]
  · rw [map_placePages (fun _ _ => rfl), length_placePages, h.numbers]
  · intro q hq
    obtain ⟨p, hp, previous, rfl⟩ := mem_placePages hq
    exact (map_placeItems (fun _ _ => rfl) shapes previous p.items).trans (h.all p hp)
  · intro q hq
    obtain ⟨p, hp, previous, rfl⟩ := mem_placePages hq
    rw [actions_placed]
    exact h.actions p hp
  · intro q hq
    obtain ⟨p, hp, previous, rfl⟩ := mem_placePages hq
    rw [map_assertions_placed fun _ _ => rfl]
    exact h.assertions p hp
  · rw [actions, h.actionNumbers]
  · rw [numbers, count, h.assertionNumbers]
  · intro q hq
    obtain ⟨p, hp, previous, rfl⟩ := mem_placePages hq
    rw [actions_placed]
    exact h.parameters p hp

end PagesBind

/-- The pages of spans have the items of their statements, numbered from one on. -/
theorem pagesBind_placeAssertions (options : SelectorOptions) (spans : List PageSpan) :
    PagesBind 1 {} spans (placeAssertions (Page.ofSpans options spans)) :=
  (pagesBind_bindSpans options 1 {} spans).pagesBind_placePages _ none

end PageObjects
