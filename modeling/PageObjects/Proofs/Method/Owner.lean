import PageObjects.Proofs.Component.Occurrence
import PageObjects.Proofs.Method.Partition
import PageObjects.Proofs.Page.Readable

namespace PageObjects

/-- A page as an owner of methods, with the page behind it. -/
def Page.owner (p : Page) (next : Option Page) : Owner :=
  { id := p.id, url := p.url, page := some p, next := next }

instance (items : List Item) : Decidable (LinesIncrease items) :=
  inferInstanceAs (Decidable (items.Pairwise fun a b => a.line < b.line))

/-- An item whose URL, if methods are named after it, can be split. -/
def Item.Readable : Item → Prop
  | .action a => a.kind = .navigation → ∀ url, a.statement.url = some url → CanSplit url
  | .assertion a => a.type = .url → ∀ t, a.expected = some (.text t) → CanSplit t

theorem exists_lastUrlWords {url : Option Text} (h : ∀ u, url = some u → CanSplit u) :
    ∃ words, lastUrlWords url = .ok words := by
  unfold lastUrlWords
  split
  next => exact ⟨_, rfl⟩
  next u hu =>
    obtain ⟨segments, hs⟩ := exists_meaningfulSegments (h u (Option.filter_eq_some_iff.mp hu).1)
    exact ⟨_, by rw [hs]; rfl⟩

namespace Draft

variable {d : Draft}

theorem exists_navigationName (book : NameBook)
    (h : ∀ a, d.actions.head? = some a → ∀ url, a.statement.url = some url → CanSplit url) :
    ∃ naming, d.navigationName book = .ok naming := by
  have readable : ∀ u, (d.actions.head?.bind fun a => a.statement.url) = some u → CanSplit u := by
    intro u hu
    obtain ⟨a, ha, hu⟩ := Option.bind_eq_some_iff.mp hu
    exact h a ha u hu
  obtain ⟨words, hw⟩ := exists_lastUrlWords readable
  exact ⟨_, by simp only [navigationName, hw, bind, Except.bind]; rfl⟩

theorem exists_subjectWords {a : Assertion} (h : (Item.assertion a).Readable) :
    ∃ words, subjectWords a = .ok words := by
  unfold subjectWords
  split
  next => exact ⟨_, rfl⟩
  next t _ hu he =>
    refine exists_lastUrlWords ?_
    intro u htu
    cases Option.some.inj htu
    exact h hu t he
  next => exact ⟨_, rfl⟩

theorem exists_checkName (book : NameBook) (h : ∀ i ∈ d.items, i.Readable) :
    ∃ naming, d.checkName book = .ok naming := by
  cases ha : d.assertions.head? with
  | none => exact ⟨_, by simp only [checkName, ha, bind, Except.bind]; rfl⟩
  | some a =>
    obtain ⟨i, hi, hia⟩ := List.mem_filterMap.mp (List.mem_of_head? ha)
    have readable : (Item.assertion a).Readable := by
      cases i with
      | action b => cases hia
      | assertion b =>
        cases Option.some.inj hia
        exact h _ hi
    obtain ⟨words, hw⟩ := exists_subjectWords readable
    exact ⟨_, by simp only [checkName, ha, hw, bind, Except.bind]; rfl⟩

/-- A draft of readable items can be named. Only one that navigates reads the URL of its first
action, which is then one that navigates. -/
theorem exists_naming {options : MethodOptions} {usages : List (Nat × Nat)} {items : List Item}
    (hd : d ∈ ofItems options usages items) (h : ∀ i ∈ items, i.Readable) {url : Option Text}
    (hu : ∀ u, url = some u → CanSplit u) (book : NameBook) :
    ∃ naming, d.naming url book = .ok naming := by
  unfold naming
  split
  next hk =>
    rcases mem_ofItems options usages hd with ⟨sound, seen⟩ | ⟨check, -⟩
    · obtain ⟨a, ha, nav⟩ := sound.navigates hk
      refine exists_navigationName book ?_
      intro b hb
      obtain ⟨rest, hr⟩ : ∃ rest, d.items = .action a :: rest := by
        cases hi : d.items with
        | nil => simp [hi] at ha
        | cons i rest => exact ⟨rest, by rw [hi] at ha; rw [Option.some.inj ha]⟩
      have same : a = b := by simpa [actions, hr, Item.action?] using hb
      have readable : (Item.action a).Readable := h _ (seen _ (by simp [hr]))
      exact same ▸ readable nav
    · rw [check] at hk
      cases hk
  next =>
    exact exists_checkName book fun i hi => h i (mem_of_mem_ofItems options usages hd hi)
  next =>
    obtain ⟨words, hw⟩ := exists_lastUrlWords hu
    exact ⟨_, by rw [hw]; rfl⟩

end Draft

theorem exists_buildMethods {owner : Owner} {drafts : List Draft}
    (h : ∀ d ∈ drafts, ∀ book, ∃ naming, d.naming owner.url book = .ok naming) (book : NameBook) :
    ∃ methods warnings, buildMethods owner book drafts = .ok (methods, warnings) := by
  induction drafts generalizing book with
  | nil => exact ⟨[], [], rfl⟩
  | cons d rest ih =>
    obtain ⟨⟨naming, next⟩, hn⟩ := h d (by simp) book
    obtain ⟨methods, warnings, hr⟩ := ih (fun e he => h e (by simp [he])) next
    exact ⟨_, _, by simp only [buildMethods, hn, hr, bind, Except.bind]; rfl⟩

/-- Readable items of an owner with a readable URL have methods. -/
theorem exists_methodsOf {options : MethodOptions} {usages : List (Nat × Nat)} {owner : Owner}
    {items : List Item} (url : ∀ u, owner.url = some u → CanSplit u)
    (readable : ∀ i ∈ items, i.Readable) :
    ∃ methods warnings, methodsOf options usages owner items = .ok (methods, warnings) :=
  exists_buildMethods (fun _ hd => Draft.exists_naming hd readable url) {}

theorem LinesIncrease.sublist {items chosen : List Item} (h : LinesIncrease items)
    (hs : chosen.Sublist items) : LinesIncrease chosen :=
  List.Pairwise.sublist hs h

theorem sublist_map_action (items : List Item) :
    ((items.filterMap Item.action?).map Item.action).Sublist items := by
  induction items with
  | nil => exact .slnil
  | cons i rest ih =>
    cases i with
    | action a => exact ih.cons_cons _
    | assertion a => exact ih.cons _

/-- The actions of an occurrence on a page as items of their own: they are in the order of their
lines, and none of them navigates. -/
theorem Occurrence.IsOn.items {o : Occurrence} {p : Page} (h : o.IsOn p)
    (lines : LinesIncrease p.items) :
    LinesIncrease (o.actions.map Item.action) ∧
      ∀ i ∈ o.actions.map Item.action, i.Readable := by
  constructor
  · exact lines.sublist ((h.sublist_actions.map Item.action).trans (sublist_map_action p.items))
  · intro i hi
    obtain ⟨a, ha, rfl⟩ := List.mem_map.mp hi
    intro nav
    have works := h.isPatternItem a ha
    simp [Action.isPatternItem, nav] at works

theorem filterMap_action?_map_action (actions : List Action) :
    (actions.map Item.action).filterMap Item.action? = actions := by
  simp [List.filterMap_map, Function.comp_def, Item.action?]

/-- A component has methods, which partition its first instance. -/
theorem exists_methodsOf_component {options : MethodOptions} {components : ComponentOptions}
    {pages : List Page} (lines : ∀ p ∈ pages, LinesIncrease p.items) {c : Component}
    (hc : c ∈ (findComponents components pages).components) :
    ∃ o, c.instances.head? = some o ∧ ∃ methods warnings,
      methodsOf options [] (componentOwner c).1 (componentOwner c).2 = .ok (methods, warnings) ∧
        MethodPartition o.numbers methods := by
  obtain ⟨o, ho, model, p, hp, on⟩ := exists_isOn_model hc
  obtain ⟨increase, readable⟩ := on.items (lines p hp)
  obtain ⟨methods, warnings, hm⟩ : ∃ methods warnings, methodsOf options [] (componentOwner c).1
      (o.actions.map Item.action) = .ok (methods, warnings) :=
    exists_methodsOf (by simp [componentOwner]) readable
  refine ⟨o, ho, methods, warnings, by rw [componentOwner, model]; exact hm, ?_⟩
  have parts := methodsOf_partition increase hm
  rwa [filterMap_action?_map_action] at parts

/-- The methods of every page partition its actions, whatever is left to components, and those of
every component partition its first instance. There are such methods for every component, and for
every page whose URLs can be split. -/
theorem methods_partition_actions (options : MethodOptions) (components : ComponentOptions)
    {pages : List Page} (lines : ∀ p ∈ pages, LinesIncrease p.items) :
    (∀ p ∈ pages, ∀ usages next,
      (∀ methods warnings,
        methodsOf options usages (p.owner next) p.items = .ok (methods, warnings) →
          MethodPartition (p.actions.map Action.number) methods) ∧
      ((∀ url, p.url = some url → CanSplit url) → (∀ i ∈ p.items, i.Readable) →
        ∃ methods warnings,
          methodsOf options usages (p.owner next) p.items = .ok (methods, warnings))) ∧
    ∀ c ∈ (findComponents components pages).components,
      ∃ o, c.instances.head? = some o ∧ ∃ methods warnings,
        methodsOf options [] (componentOwner c).1 (componentOwner c).2 = .ok (methods, warnings) ∧
          MethodPartition o.numbers methods := by
  constructor
  · intro p hp usages next
    constructor
    · intro methods warnings h
      exact methodsOf_partition (lines p hp) h
    · intro url readable
      exact exists_methodsOf url readable
  · intro c hc
    exact exists_methodsOf_component lines hc

/-- Two clicks in a menu: by themselves one method, and a component if one appearance is enough. -/
def menuVisit : List Statement := [
  { kind := .interaction, verb := some ("click" : Text), selector := some "nav a", line := 1,
    endLine := 1, source := "page.click('nav a');" },
  { kind := .interaction, verb := some ("click" : Text), selector := some "nav a", line := 2,
    endLine := 2, source := "page.click('nav a');" }]

theorem methods_partition_actions_menuVisit :
    ∃ spans, PageSpan.ofStatements {} menuVisit = .ok spans ∧
      (∀ p ∈ Page.ofSpans {} spans, LinesIncrease p.items) ∧
      (∃ p ∈ Page.ofSpans {} spans, ∃ methods warnings,
        methodsOf {} [] (p.owner none) p.items = .ok (methods, warnings) ∧
          methods.map Method.actions = [[1, 2]] ∧
          MethodPartition (p.actions.map Action.number) methods) ∧
      ∃ c ∈ (findComponents { minAppearances := ⟨1, by decide⟩ }
          (Page.ofSpans {} spans)).components, ∃ o : Occurrence, ∃ methods warnings,
        methodsOf {} [] (componentOwner c).1 (componentOwner c).2 = .ok (methods, warnings) ∧
          o.numbers = [1, 2] ∧ MethodPartition o.numbers methods := by
  have found : (PageSpan.ofStatements {} menuVisit).toOption.any (fun spans =>
      let pages := Page.ofSpans {} spans
      decide (∀ p ∈ pages, LinesIncrease p.items) &&
        (pages.any fun p => (methodsOf {} [] (p.owner none) p.items).toOption.any fun built =>
          built.1.map Method.actions == [[1, 2]]) &&
        (findComponents { minAppearances := ⟨1, by decide⟩ } pages).components.any fun c =>
          (c.instances.head?.map Occurrence.numbers) == some [1, 2]) = true := by
    decide +kernel
  obtain ⟨spans, hs, found⟩ := exists_ok_of_any found
  simp only [Bool.and_eq_true, decide_eq_true_eq, List.any_eq_true] at found
  obtain ⟨⟨lines, p, hp, built⟩, c, hc, hi⟩ := found
  obtain ⟨⟨methods, warnings⟩, hm, ha⟩ := exists_ok_of_any built
  obtain ⟨pages, components⟩ :=
    methods_partition_actions {} { minAppearances := ⟨1, by decide⟩ } lines
  obtain ⟨o, ho, shared, doubts, hc', parts⟩ := components c hc
  rw [ho] at hi
  refine ⟨spans, hs, lines, ⟨p, hp, methods, warnings, hm, beq_iff_eq.mp ha, ?_⟩,
    c, hc, o, shared, doubts, hc', Option.some.inj (beq_iff_eq.mp hi), parts⟩
  exact (pages p hp [] none).1 methods warnings hm

end PageObjects
