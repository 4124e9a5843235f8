import PageObjects.Proofs.Method.Holding
import PageObjects.Proofs.Method.Window

namespace PageObjects

/-- Of several lists that have nothing twice, one has a given element. -/
theorem exists_filter_eq_singleton {α β : Type} [DecidableEq β] {l : List α} {f : α → List β}
    {b : β} (distinct : (l.flatMap f).Nodup) (hb : b ∈ l.flatMap f) :
    ∃ a, (l.filter fun x => decide (b ∈ f x)) = [a] := by
  induction l with
  | nil => cases hb
  | cons x rest ih =>
    rw [List.flatMap_cons] at distinct hb
    obtain ⟨-, others, apart⟩ := List.nodup_append'.mp distinct
    by_cases here : b ∈ f x
    · have noOther : (rest.filter fun y => decide (b ∈ f y)) = [] := by
        refine List.filter_eq_nil_iff.mpr fun y hy there => ?_
        exact apart here (List.mem_flatMap.mpr ⟨y, hy, of_decide_eq_true there⟩)
      exact ⟨x, by rw [List.filter_cons, if_pos (decide_eq_true here), noOther]⟩
    · obtain ⟨a, found⟩ := ih others ((List.mem_append.mp hb).resolve_left here)
      exact ⟨a, by rw [List.filter_cons, if_neg (by simpa using here), found]⟩

theorem mem_iff_of_filter_eq_singleton {α : Type} {l : List α} {p : α → Bool} {a : α}
    (only : l.filter p = [a]) (b : α) : b ∈ l ∧ p b = true ↔ b = a := by
  rw [← List.mem_filter, only, List.mem_singleton]

namespace Grouping

variable {options : MethodOptions} (usages : List (Nat × Nat))

theorem flatMap_items_append (options : MethodOptions) (g : Grouping) (item : Item) :
    (g.append options item).drafts.flatMap Draft.items = g.drafts.flatMap Draft.items ++ [item] := by
  rcases append_cases options g item with ⟨d, current, he⟩ | he
  · rw [he]
    simp [drafts, extend, current]
  · rw [he, drafts_start]
    simp

variable (together : options.separateAssertions = false)
include together

/-- Where assertions are not kept apart, every item goes to a draft. -/
theorem flatMap_items_add (g : Grouping) (item : Item) :
    (g.add options usages item).drafts.flatMap Draft.items =
      g.drafts.flatMap Draft.items ++ [item] := by
  cases item with
  | action a => exact (takes_add_action a).1.flatMap_items
  | assertion a =>
    have joined : g.add options usages (.assertion a) = g.append options (.assertion a) := by
      simp [add, addAssertion, together]
    rw [joined]
    exact flatMap_items_append options g _

theorem flatMap_items_foldl (g : Grouping) (items : List Item) :
    (items.foldl (Grouping.add options usages) g).drafts.flatMap Draft.items =
      g.drafts.flatMap Draft.items ++ items := by
  induction items generalizing g with
  | nil => simp
  | cons item rest ih => rw [List.foldl_cons, ih, flatMap_items_add usages together]; simp

end Grouping

namespace Draft

variable {options : MethodOptions} {usages : List (Nat × Nat)} {items : List Item}

theorem assertions_of_items {d : Draft} {checks : List Assertion}
    (h : d.items = checks.map Item.assertion) : d.actions = [] ∧ d.assertions = checks := by
  simp [actions, assertions, h, Item.action?, Item.assertion?, List.filterMap_map,
    Function.comp_def]

/-- Where assertions are not kept apart, the drafts have all items in order. -/
theorem flatMap_items_ofItems (together : options.separateAssertions = false)
    (lines : LinesIncrease items) : (ofItems options usages items).flatMap Draft.items = items := by
  have sound := sound_ofItems options usages items
  have sorted := pairwise_firstLine sound.inOrder lines fun d hd => (sound.each d hd).filled
  have noChecks : (items.foldl (Grouping.add options usages) {}).checks = [] :=
    (Grouping.Checked.checked_nothing.checked_foldl usages items).together together
  have all := Grouping.flatMap_items_foldl usages together {} items
  rw [ofItems, Grouping.finish_eq, Grouping.checkDrafts, noChecks, List.map_nil, List.append_nil,
    List.mergeSort_of_pairwise (sorted.imp (by simp)), all]
  rfl

theorem kind_of_together (together : options.separateAssertions = false) {d : Draft}
    (h : d ∈ ofItems options usages items) : d.kind ≠ .verification := by
  rcases piece_or_checks h with ⟨acts, -⟩ | ⟨-, apart, -⟩
  · exact acts
  · rw [together] at apart
    cases apart

/-- Where assertions are kept apart, only drafts that check have any. -/
theorem assertions_eq_nil (apart : options.separateAssertions = true) {d : Draft}
    (h : d ∈ ofItems options usages items) (acts : d.kind ≠ .verification) : d.assertions = [] := by
  rcases piece_or_checks h with ⟨-, -, fits⟩ | ⟨check, -⟩
  · refine List.eq_nil_iff_forall_not_mem.mpr fun b hb => ?_
    exact fits.assertion_notMem apart b (mem_assertions.mp hb)
  · exact absurd check acts

/-- The drafts that check are those of the shapes that are noted, in some order. -/
theorem perm_checkDrafts (options : MethodOptions) (usages : List (Nat × Nat)) (items : List Item) :
    ((ofItems options usages items).filter fun d => d.kind = .verification).Perm
      (items.foldl (Grouping.add options usages) {}).checkDrafts := by
  have sound := sound_ofItems options usages items
  refine ((Grouping.perm_finish _).filter _).trans ?_
  rw [List.filter_append, List.filter_eq_nil_iff.mpr ?_, List.filter_eq_self.mpr ?_,
    List.nil_append]
  · intro d hd
    obtain ⟨entry, -, rfl⟩ := List.mem_map.mp hd
    rfl
  · intro d hd
    simpa using (sound.each d hd).checks

/-- Where assertions are kept apart, there is one draft that checks for each shape that recurs. -/
theorem exists_shapes (usages : List (Nat × Nat)) (items : List Item)
    (apart : options.separateAssertions = true) :
    ∃ shapes : List Shape, shapes.Nodup ∧
      (∀ shape, shape ∈ shapes ↔ recurringChecks items shape ≠ []) ∧
      (((ofItems options usages items).filter fun d => d.kind = .verification).map
        Draft.assertions).Perm (shapes.map (recurringChecks items)) := by
  have checked : (items.foldl (Grouping.add options usages) {}).Checked options items :=
    Grouping.Checked.checked_nothing.checked_foldl usages items
  have sound := sound_ofItems options usages items
  have noted : ∀ entry ∈ (items.foldl (Grouping.add options usages) {}).checks,
      entry.2 = recurringChecks items entry.1 := by
    intro entry he
    have all := checked.each apart entry.1
    rwa [valueAt?_of_mem checked.distinct he, Option.getD_some] at all
  refine ⟨_, checked.distinct, fun shape => ⟨fun hs => ?_, fun recurs => ?_⟩, ?_⟩
  · obtain ⟨entry, he, rfl⟩ := List.mem_map.mp hs
    rw [← noted entry he]
    exact (sound.checked entry he).1
  · cases found : valueAt? shape (items.foldl (Grouping.add options usages) {}).checks with
    | none =>
      have all := checked.each apart shape
      rw [found] at all
      exact absurd all.symm recurs
    | some checks => exact List.mem_map.mpr ⟨_, mem_of_valueAt? found, rfl⟩
  · refine ((perm_checkDrafts options usages items).map Draft.assertions).trans (.of_eq ?_)
    rw [Grouping.checkDrafts, List.map_map, List.map_map]
    refine List.map_congr_left fun entry he => ?_
    exact (assertions_of_items rfl).2.trans (noted entry he)

end Draft

/-- What methods of a page do with its assertions. -/
structure AssertionCoverage (options : MethodOptions) (items : List Item) (methods : List Method) :
    Prop where
  together : options.separateAssertions = false →
    methods.flatMap Method.assertions =
        (items.filterMap Item.assertion?).map Assertion.number ∧
      ∀ m ∈ methods, m.kind ≠ .verification
  apart : options.separateAssertions = true →
    (∀ m ∈ methods, m.kind ≠ .verification → m.assertions = []) ∧
    ∃ shapes : List Shape, shapes.Nodup ∧
      (∀ shape, shape ∈ shapes ↔ recurringChecks items shape ≠ []) ∧
      ((methods.filter fun m => m.kind = .verification).map Method.assertions).Perm
        (shapes.map fun shape => (recurringChecks items shape).map Assertion.number)
  each : ((items.filterMap Item.assertion?).map Assertion.number).Nodup →
    ∀ a, Item.assertion a ∈ items →
      if options.separateAssertions = true ∧ a.isRecurring = false then
        ∀ m ∈ methods, a.number ∉ m.assertions
      else
        ∃ m, (methods.filter fun m => decide (a.number ∈ m.assertions)) = [m] ∧
          (options.separateAssertions = true → m.kind = .verification ∧ m.actions = [] ∧
            m.assertions = (recurringChecks items a.shape).map Assertion.number)

section Methods

variable {options : MethodOptions} {usages : List (Nat × Nat)} {owner : Owner} {items : List Item}
  {methods : List Method} {warnings : List Warning}

theorem flatMap_assertions_methodsOf
    (h : methodsOf options usages owner items = .ok (methods, warnings)) :
    methods.flatMap Method.assertions =
      (((Draft.ofItems options usages items).flatMap Draft.items).filterMap Item.assertion?).map
        Assertion.number := by
  rw [List.filterMap_flatMap, List.map_flatMap, List.flatMap_def, List.flatMap_def,
    map_buildMethods h fun _ _ => rfl]
  rfl

/-- No method has an assertion twice, and no two methods have the same. -/
theorem nodup_assertions_methodsOf
    (h : methodsOf options usages owner items = .ok (methods, warnings))
    (distinct : ((items.filterMap Item.assertion?).map Assertion.number).Nodup) :
    (methods.flatMap Method.assertions).Nodup := by
  obtain ⟨kept, perm, sublist⟩ := Draft.subperm_ofItems options usages items
  rw [flatMap_assertions_methodsOf h]
  refine ((perm.filterMap Item.assertion?).map Assertion.number).nodup_iff.mp ?_
  exact distinct.sublist ((sublist.filterMap Item.assertion?).map Assertion.number)

theorem map_assertions_checks
    (h : methodsOf options usages owner items = .ok (methods, warnings)) :
    (methods.filter fun m => m.kind = .verification).map Method.assertions =
      (((Draft.ofItems options usages items).filter fun d => d.kind = .verification).map
        Draft.assertions).map fun checks => checks.map Assertion.number := by
  have kinds : methods.map (fun m => (m.kind, m.assertions)) =
      (Draft.ofItems options usages items).map fun d =>
        (d.kind, d.assertions.map Assertion.number) := map_buildMethods h fun _ _ => rfl
  have checks := congrArg (fun l => (l.filter fun entry : MethodKind × List Nat =>
    entry.1 = .verification).map Prod.snd) kinds
  simpa only [List.filter_map, List.map_map, Function.comp_def] using checks

theorem mem_filterMap_assertion? {a : Assertion} :
    a ∈ items.filterMap Item.assertion? ↔ Item.assertion a ∈ items := by
  refine ⟨fun h => ?_, fun h => List.mem_filterMap.mpr ⟨_, h, rfl⟩⟩
  obtain ⟨i, hi, same⟩ := List.mem_filterMap.mp h
  cases i with
  | action b => cases same
  | assertion b => rwa [← Option.some.inj same]

theorem mem_recurringChecks {a : Assertion} {shape : Shape} :
    a ∈ recurringChecks items shape ↔
      Item.assertion a ∈ items ∧ a.isRecurring = true ∧ a.shape = shape := by
  rw [recurringChecks, List.mem_filter, mem_filterMap_assertion?, Bool.and_eq_true,
    decide_eq_true_eq]

theorem eq_of_assertion_number
    (distinct : ((items.filterMap Item.assertion?).map Assertion.number).Nodup) {a b : Assertion}
    (ha : Item.assertion a ∈ items) (hb : Item.assertion b ∈ items) (same : a.number = b.number) :
    a = b :=
  List.inj_on_of_nodup_map distinct (mem_filterMap_assertion?.mpr ha)
    (mem_filterMap_assertion?.mpr hb) same

/-- Where assertions are kept apart, a method that has one checks the shape of it. -/
theorem check_of_mem_assertions (apart : options.separateAssertions = true)
    (h : methodsOf options usages owner items = .ok (methods, warnings))
    (distinct : ((items.filterMap Item.assertion?).map Assertion.number).Nodup) {m : Method}
    (hm : m ∈ methods) {a : Assertion} (ha : Item.assertion a ∈ items)
    (held : a.number ∈ m.assertions) :
    a.isRecurring = true ∧ m.kind = .verification ∧ m.actions = [] ∧
      m.assertions = (recurringChecks items a.shape).map Assertion.number := by
  obtain ⟨d, hd, naming, rfl⟩ := exists_draft_of_mem_methodsOf h hm
  have held : a.number ∈ d.assertions.map Assertion.number := held
  rcases Draft.piece_or_checks hd with ⟨acts, -⟩ | ⟨check, -, shape, all⟩
  · rw [Draft.assertions_eq_nil apart hd acts] at held
    cases held
  · obtain ⟨actions, assertions⟩ := Draft.assertions_of_items all
    rw [assertions] at held
    obtain ⟨b, hb, same⟩ := List.mem_map.mp held
    obtain ⟨inside, recurs, rfl⟩ := mem_recurringChecks.mp hb
    obtain rfl := eq_of_assertion_number distinct inside ha same
    exact ⟨recurs, check, congrArg (List.map Action.number) actions,
      congrArg (List.map Assertion.number) assertions⟩

/-- An assertion is in some method, unless it is kept apart and does not recur. -/
theorem mem_assertions_methodsOf (lines : LinesIncrease items)
    (h : methodsOf options usages owner items = .ok (methods, warnings)) {a : Assertion}
    (ha : Item.assertion a ∈ items)
    (kept : ¬ (options.separateAssertions = true ∧ a.isRecurring = false)) :
    a.number ∈ methods.flatMap Method.assertions := by
  rw [flatMap_assertions_methodsOf h]
  cases separate : options.separateAssertions with
  | false =>
    rw [Draft.flatMap_items_ofItems separate lines]
    exact List.mem_map_of_mem (mem_filterMap_assertion?.mpr ha)
  | true =>
    have recurs : a.isRecurring = true := by simpa [separate] using kept
    have inside : a ∈ recurringChecks items a.shape := mem_recurringChecks.mpr ⟨ha, recurs, rfl⟩
    obtain ⟨shapes, -, all, perm⟩ := Draft.exists_shapes usages items separate
    have noted : recurringChecks items a.shape ∈ shapes.map (recurringChecks items) :=
      List.mem_map_of_mem ((all a.shape).mpr (List.ne_nil_of_mem inside))
    obtain ⟨d, hd, same⟩ := List.mem_map.mp (perm.mem_iff.mpr noted)
    rw [← same] at inside
    have drawn : Item.assertion a ∈ (Draft.ofItems options usages items).flatMap Draft.items :=
      List.mem_flatMap.mpr ⟨d, (List.mem_filter.mp hd).1, Draft.mem_assertions.mp inside⟩
    exact List.mem_map_of_mem (mem_filterMap_assertion?.mpr drawn)

/-- Methods of items in the order of their lines have the assertions that they should have. Where
assertions are not kept apart these are all of them, each in one method; where they are, these are
the ones that recur, and all of one shape are one method. -/
theorem methods_cover_assertions (lines : LinesIncrease items)
    (h : methodsOf options usages owner items = .ok (methods, warnings)) :
    AssertionCoverage options items methods := by
  constructor
  case together =>
    intro together
    constructor
    · rw [flatMap_assertions_methodsOf h, Draft.flatMap_items_ofItems together lines]
    · intro m hm
      obtain ⟨d, hd, naming, rfl⟩ := exists_draft_of_mem_methodsOf h hm
      exact Draft.kind_of_together together hd
  case apart =>
    intro apart
    constructor
    · intro m hm acts
      obtain ⟨d, hd, naming, rfl⟩ := exists_draft_of_mem_methodsOf h hm
      exact congrArg (List.map Assertion.number) (Draft.assertions_eq_nil apart hd acts)
    · obtain ⟨shapes, distinct, all, perm⟩ := Draft.exists_shapes usages items apart
      refine ⟨shapes, distinct, all, ?_⟩
      rw [map_assertions_checks h]
      refine (perm.map (List.map Assertion.number)).trans (.of_eq ?_)
      rw [List.map_map]
      rfl
  case each =>
    intro distinct a ha
    split
    next lost =>
      intro m hm held
      obtain ⟨recurs, -⟩ := check_of_mem_assertions lost.1 h distinct hm ha held
      rw [lost.2] at recurs
      cases recurs
    next kept =>
      have held := mem_assertions_methodsOf lines h ha kept
      obtain ⟨m, only⟩ := exists_filter_eq_singleton (nodup_assertions_methodsOf h distinct) held
      obtain ⟨hm, there⟩ := (mem_iff_of_filter_eq_singleton only m).mpr rfl
      refine ⟨m, only, fun apart => ?_⟩
      exact (check_of_mem_assertions apart h distinct hm ha (of_decide_eq_true there)).2

end Methods

/-- Two checks that recur, with a click and each other between them, and one that does not. -/
def checkedList : Text :=
  "await expect(page.locator('#a')).toBeVisible();\nawait page.click('#x');\n" ++
    "await expect(page.locator('#b')).toHaveText('1');\n" ++
    "await expect(page.locator('#a')).toBeVisible();\n" ++
    "await expect(page.locator('#b')).toHaveText('2');\n" ++
    "await expect(page.locator('#c')).toHaveText('3');"

theorem methods_cover_assertions_checkedList :
    ∃ spans, PageSpan.ofStatements {} (Statement.ofText checkedList) = .ok spans ∧
      ∃ p ∈ placeAssertions (Page.ofSpans {} spans), LinesIncrease p.items ∧
        ∃ methods warnings, methodsOf {} [] (p.owner none) p.items = .ok (methods, warnings) ∧
          AssertionCoverage {} p.items methods ∧
          (∃ m ∈ methods, m.kind = .verification ∧ m.assertions = [2, 4]) ∧
          ∀ m ∈ methods, 5 ∉ m.assertions := by
  have found : (PageSpan.ofStatements {} (Statement.ofText checkedList)).toOption.any (fun spans =>
      (placeAssertions (Page.ofSpans {} spans)).any fun p =>
        decide (p.url = none ∧ LinesIncrease p.items ∧
          (∀ a ∈ p.actions, a.kind ≠ .navigation) ∧ (∀ a ∈ p.assertions, a.type ≠ .url) ∧
          (p.assertions.map Assertion.number).Nodup ∧
          (∃ a ∈ p.assertions, a.number = 2 ∧ a.isRecurring = true ∧
            (recurringChecks p.items a.shape).map Assertion.number = [2, 4]) ∧
          ∃ a ∈ p.assertions, a.number = 5 ∧ a.isRecurring = false)) = true := by
    decide +kernel
  obtain ⟨spans, hs, found⟩ := exists_ok_of_any found
  simp only [List.any_eq_true, decide_eq_true_eq] at found
  obtain ⟨p, hp, noActions, lines, acts, checks, distinct, ⟨a, ha, two, recurs, both⟩, b, hb, five,
    alone⟩ := found
  have inside : ∀ c ∈ p.assertions, Item.assertion c ∈ p.items :=
    fun c hc => mem_filterMap_assertion?.mp hc
  have readable : ∀ i ∈ p.items, i.Readable := by
    intro i hi
    cases i with
    | action c =>
      intro navigates
      exact absurd navigates (acts c (List.mem_filterMap.mpr ⟨_, hi, rfl⟩))
    | assertion c =>
      intro url
      exact absurd url (checks c (mem_filterMap_assertion?.mpr hi))
  obtain ⟨methods, warnings, hm⟩ : ∃ methods warnings,
      methodsOf {} [] (p.owner Option.none) p.items = .ok (methods, warnings) :=
    exists_methodsOf (fun u hu => by simp [Page.owner, noActions] at hu) readable
  have covers := methods_cover_assertions lines hm
  refine ⟨spans, hs, p, hp, lines, methods, warnings, hm, covers, ?_, ?_⟩
  · have first := covers.each distinct a (inside a ha)
    rw [if_neg (by simp [recurs])] at first
    obtain ⟨m, only, check⟩ := first
    obtain ⟨kind, -, held⟩ := check rfl
    exact ⟨m, ((mem_iff_of_filter_eq_singleton only m).mpr rfl).1, kind, held.trans both⟩
  · have last := covers.each distinct b (inside b hb)
    rw [if_pos ⟨rfl, alone⟩, five] at last
    exact last

end PageObjects
