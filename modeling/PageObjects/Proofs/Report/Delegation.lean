import PageObjects.Proofs.Component.Stretch
import PageObjects.Proofs.Method.Delegation
import PageObjects.Proofs.Report.Sequence
import PageObjects.Proofs.Report.Totality

namespace PageObjects

namespace Document

/-- How the methods of a page leave the actions of an instance to its component. -/
structure Delegates (options : MethodOptions) (d : Document) (c : Component) (o : Occurrence)
    (p : Page) : Prop where
  page : p.number = o.page
  own : ∀ a ∈ o.actions, Item.action a ∈ p.stretchOf o
  between : ∀ a, Item.action a ∈ p.stretchOf o → a ∈ o.actions ∨ a.isTransparent = true
  together : options.Fits (p.stretchOf o) → ∃ m ∈ d.methodsOf p.id, m.kind = .delegation ∧
    m.component = some c.number ∧ o.numbers ⊆ m.actions ∧
    ∀ m' ∈ pageMethods d.methods, ∀ n ∈ o.numbers, n ∈ m'.actions → m' = m
  fits : ∀ m ∈ d.methodsOf p.id, o.numbers ⊆ m.actions → options.Fits (p.stretchOf o)

namespace MadeOf

variable {config : Config} {d : Document} {spans : List PageSpan}
  {own shared : List (Id × List Method)} {p : Page} {c : Component} {o : Occurrence}

/-- The methods of a page are its drafts of methods. -/
theorem map_methodsOf (h : d.MadeOf config spans own shared) (hp : p ∈ d.pages) :
    ((d.methodsOf p.id).map fun m => (m.kind, m.component, m.actions)) =
      (Draft.ofItems config.methods (PageObjects.usages d.components) p.items).map fun e =>
        (e.kind, e.component, e.actions.map Action.number) := by
  obtain ⟨next, -, methods, warnings, n, built, numbered⟩ := h.exists_pageEntry hp
  have all : d.methodsOf p.id = numberMethods n methods := numbered
  rw [all, map_numberMethods fun _ _ => rfl]
  exact map_buildMethods built fun _ _ => rfl

theorem mem_pageMethods {m : Method} (hm : m ∈ d.methodsOf p.id) :
    m ∈ pageMethods d.methods := by
  cases hv : valueAt? p.id d.methods with
  | none => simp [methodsOf, hv] at hm
  | some methods =>
    rw [methodsOf, hv, Option.getD_some] at hm
    exact List.mem_flatMap.mpr
      ⟨(p.id, methods), List.mem_filter.mpr ⟨mem_of_valueAt? hv, rfl⟩, hm⟩

theorem componentsSound (h : d.MadeOf config spans own shared) :
    (findComponents config.components d.pages).Sound config.components d.pages :=
  findComponents_sound config.components h.binds.pagesApart

theorem usage_of_instance (h : d.MadeOf config spans own shared) (hc : c ∈ d.components)
    (ho : o ∈ c.instances) {a : Action} (ha : a ∈ o.actions) :
    valueAt? a.number (PageObjects.usages d.components) = some c.number := by
  rw [h.components] at hc ⊢
  exact (h.componentsSound.owned _ _).mpr
    ⟨c, hc, rfl, List.mem_flatMap.mpr ⟨o, ho, List.mem_map_of_mem ha⟩⟩

/-- What is left to a component on the page of an instance is an action of this instance. -/
theorem mem_of_usage (h : d.MadeOf config spans own shared) (hp : p ∈ d.pages)
    (hc : c ∈ d.components) (ho : o ∈ c.instances) (page : o.page = p.number) {a : Action}
    (ha : a ∈ p.actions)
    (left : valueAt? a.number (PageObjects.usages d.components) = some c.number) :
    a ∈ o.actions := by
  rw [h.components] at hc left
  have sound := h.componentsSound
  obtain ⟨c', hc', number, o', ho', page', -, own⟩ :=
    sound.exists_instance h.binds.pagesApart hp ha left
  obtain rfl := List.inj_on_of_nodup_map sound.numbers hc' hc number
  rwa [(sound.sound c' hc').eq_of_page ho' ho (page'.trans page.symm)] at own

/-- A wait is left to no component. -/
theorem usage_of_wait (h : d.MadeOf config spans own shared) (hp : p ∈ d.pages) {a : Action}
    (ha : a ∈ p.actions) (wait : a.isTransparent = true) :
    valueAt? a.number (PageObjects.usages d.components) = none := by
  cases left : valueAt? a.number (PageObjects.usages d.components) with
  | none => rfl
  | some k =>
    rw [h.components] at left
    obtain ⟨c, -, -, o, -, -, on, own⟩ :=
      h.componentsSound.exists_instance h.binds.pagesApart hp ha left
    have works := on.isPatternItem a own
    have waits : a.kind = .wait := by simpa using (Bool.and_eq_true_iff.mp wait).1
    simp [Action.isPatternItem, waits] at works

/-- In a stretch that fits, all items join the first one. -/
theorem joins_of_mem_stretchOf (h : d.MadeOf config spans own shared)
    (lines : LinesIncrease p.items) (hp : p ∈ d.pages) (hc : c ∈ d.components)
    (ho : o ∈ c.instances) (on : o.IsOn p)
    (fits : config.methods.Fits (p.stretchOf o)) :
    ∀ i ∈ p.stretchOf o, i.Joins config.methods (PageObjects.usages d.components) c.number := by
  intro i hi
  cases i with
  | assertion a =>
    refine Bool.eq_false_iff.mpr ?_
    intro separated
    exact fits.assertion_notMem separated a hi
  | action a =>
    rcases on.mem_or_isTransparent_of_mem_stretchOf lines hi with item | wait
    · exact .inl (h.usage_of_instance hc ho item)
    · have there := mem_actions_of_mem_items (Page.mem_stretchOf.mp hi).1
      exact .inr ⟨h.usage_of_wait hp there wait, wait⟩

theorem exists_delegation (h : d.MadeOf config spans own shared) (lines : LinesIncrease p.items)
    (hp : p ∈ d.pages) (hc : c ∈ d.components) (ho : o ∈ c.instances) (on : o.IsOn p)
    (fits : config.methods.Fits (p.stretchOf o)) :
    ∃ m ∈ d.methodsOf p.id, m.kind = .delegation ∧ m.component = some c.number ∧
      o.numbers ⊆ m.actions := by
  obtain ⟨first, hfirst, before, rest, behind, whole, stretch, sooner⟩ :=
    on.exists_stretchOf_eq_cons lines
  have joins := h.joins_of_mem_stretchOf lines hp hc ho on fits
  have room := fits.short
  rw [stretch] at joins room
  have unseen : ∀ b, Item.action b ∈ before →
      valueAt? b.number (PageObjects.usages d.components) ≠ some c.number := by
    intro b hb left
    have there : b ∈ p.actions := mem_actions_of_mem_items (whole ▸ by simp [hb])
    have own := on.mem_stretchOf lines (h.mem_of_usage hp hc ho on.page there left)
    have := (Page.mem_stretchOf.mp own).2.1
    have := sooner _ hb
    omega
  obtain ⟨e, he, kind, component, more⟩ :
      ∃ e ∈ Draft.ofItems config.methods (PageObjects.usages d.components) p.items,
        e.kind = .delegation ∧ e.component = some c.number ∧
          Item.action first :: rest ⊆ e.items := by
    rw [whole]
    exact Draft.exists_delegation_of_joins unseen (h.usage_of_instance hc ho hfirst)
      (fun i hi => joins i (List.mem_cons_of_mem _ hi)) room
  have listed : (e.kind, e.component, e.actions.map Action.number) ∈
      (d.methodsOf p.id).map fun m => (m.kind, m.component, m.actions) := by
    rw [h.map_methodsOf hp]
    exact List.mem_map_of_mem he
  obtain ⟨m, hm, same⟩ := List.mem_map.mp listed
  simp only [Prod.mk.injEq] at same
  refine ⟨m, hm, same.1.trans kind, same.2.1.trans component, ?_⟩
  rw [same.2.2]
  intro n hn
  obtain ⟨a, ha, rfl⟩ := List.mem_map.mp hn
  have inside := on.mem_stretchOf lines ha
  rw [stretch] at inside
  exact List.mem_map_of_mem (List.mem_filterMap.mpr ⟨_, more inside, rfl⟩)

theorem fits_of_numbers_subset (h : d.MadeOf config spans own shared)
    (lines : LinesIncrease p.items) (hp : p ∈ d.pages) (on : o.IsOn p) {m : Method}
    (hm : m ∈ d.methodsOf p.id) (all : o.numbers ⊆ m.actions) :
    config.methods.Fits (p.stretchOf o) := by
  have listed : (m.kind, m.component, m.actions) ∈
      (d.methodsOf p.id).map fun m => (m.kind, m.component, m.actions) := List.mem_map_of_mem hm
  rw [h.map_methodsOf hp] at listed
  obtain ⟨e, he, same⟩ := List.mem_map.mp listed
  simp only [Prod.mk.injEq] at same
  have held : ∀ a ∈ o.actions, Item.action a ∈ e.items := by
    intro a ha
    have number := all (List.mem_map_of_mem ha)
    rw [← same.2.2] at number
    obtain ⟨b, hb, equal⟩ := List.mem_map.mp number
    have hi : Item.action b ∈ e.items := Draft.mem_actions.mp hb
    have there : b ∈ p.actions := mem_actions_of_mem_items (Draft.mem_of_mem_ofItems _ _ he hi)
    obtain ⟨rfl, -⟩ :=
      h.binds.pagesApart.eq_of_number hp hp there (on.sublist_actions.subset ha) equal
    exact hi
  obtain ⟨first, hfirst, last, hlast, hf, hl, -⟩ := on.exists_ends lines
  have acts : e.actions ≠ [] :=
    List.ne_nil_of_mem (List.mem_filterMap.mpr ⟨_, held first hfirst, rfl⟩)
  obtain ⟨piece, fits⟩ := Draft.piece_of_mem_ofItems he acts
  have inside : p.stretchOf o ⊆ e.items := by
    intro i hi
    obtain ⟨there, low, high⟩ := Page.mem_stretchOf.mp hi
    rw [hf] at low
    rw [hl] at high
    exact lines.mem_of_between piece (held first hfirst) (held last hlast) there low high
  have distinct : (p.stretchOf o).Nodup := by
    refine (lines.sublist List.filter_sublist).imp ?_
    rintro i _ before rfl
    exact absurd before (Nat.lt_irrefl _)
  exact ⟨(List.subperm_of_subset distinct inside).length_le.trans fits.short,
    fun i hi => fits.grouped i (inside hi)⟩

theorem exists_page (h : d.MadeOf config spans own shared) (paged : d.Paged)
    (hc : c ∈ d.components) (ho : o ∈ c.instances) :
    ∃ p ∈ d.pages, o.IsOn p ∧ LinesIncrease p.items := by
  rw [h.components] at hc
  obtain ⟨p, hp, on⟩ := (isOn_of_mem_findComponents hc).2 o ho
  exact ⟨p, hp, on, paged.linesIncrease hp (h.binds.all p hp)⟩

theorem exists_delegates (h : d.MadeOf config spans own shared) (paged : d.Paged)
    (hc : c ∈ d.components) (ho : o ∈ c.instances) :
    ∃ p ∈ d.pages, d.Delegates config.methods c o p := by
  obtain ⟨p, hp, on, lines⟩ := h.exists_page paged hc ho
  have fits : ∀ m ∈ d.methodsOf p.id, o.numbers ⊆ m.actions →
      config.methods.Fits (p.stretchOf o) :=
    fun m hm all => h.fits_of_numbers_subset lines hp on hm all
  refine ⟨p, hp, on.page.symm, fun a ha => on.mem_stretchOf lines ha,
    fun a ha => on.mem_or_isTransparent_of_mem_stretchOf lines ha, ?_, fits⟩
  intro fits
  obtain ⟨m, hm, kind, component, all⟩ := h.exists_delegation lines hp hc ho on fits
  refine ⟨m, hm, kind, component, all, ?_⟩
  intro m' hm' n hn own
  have holds : ∀ k : Method, n ∈ k.actions → k.holds (.action n) = true := by
    intro k hk
    simpa [Method.holds] using hk
  exact h.eq_of_holds (mem_pageMethods hm) hm' (holds m (all hn)) (holds m' own)

end MadeOf

end Document

/-- Every instance of a component is on a page of the document, and its actions are in one single
method of it, which leaves them to the component, exactly if the items of the page from the first of
them to the last fit one method. -/
theorem analyze_delegates {config : Config} {name : Option Text} {script : Text} {d : Document}
    (h : analyze config name script = .ok d) {c : Component} (hc : c ∈ d.components)
    {o : Occurrence} (ho : o ∈ c.instances) :
    ∃ p ∈ d.pages, d.Delegates config.methods c o p := by
  obtain ⟨extracted, spans, own, shared, made⟩ := exists_madeOf h
  exact made.exists_delegates (made.paged extracted) hc ho

/-- Options for which one appearance makes a component. -/
def onceSeen : ComponentOptions := { minAppearances := ⟨1, by decide⟩ }

/-- A menu with a wait between its actions. -/
def waitingMenu : Text :=
  "page.click('nav a');\npage.waitForTimeout(9);\npage.click('nav a');"

theorem analyze_delegates_waitingMenu :
    ∃ d, analyze { components := onceSeen } none waitingMenu = .ok d ∧
      ∃ c ∈ d.components, ∃ o ∈ c.instances, o.numbers = [1, 3] ∧
        ∃ p ∈ d.pages, d.Delegates {} c o p ∧ ({} : MethodOptions).Fits (p.stretchOf o) := by
  have found : (analyze { components := onceSeen } none waitingMenu).toOption.any (fun d =>
      d.components.any fun c => c.instances.any fun o => decide (o.numbers = [1, 3]) &&
        d.pages.all fun p => decide (({} : MethodOptions).Fits (p.stretchOf o))) = true := by
    decide +kernel
  obtain ⟨d, h, found⟩ := exists_ok_of_any found
  simp only [List.any_eq_true, Bool.and_eq_true, decide_eq_true_eq, List.all_eq_true] at found
  obtain ⟨c, hc, o, ho, numbers, fits⟩ := found
  obtain ⟨p, hp, delegates⟩ := analyze_delegates h hc ho
  exact ⟨d, h, c, hc, o, ho, numbers, p, hp, delegates, fits p hp⟩

/-- A menu with a check between its actions. -/
def checkedMenu : Text :=
  "page.click('nav a');\nexpect(page.locator('#list')).toBeVisible();\npage.click('nav a');"

/-- No method of its page has all actions of some instance, though there are few enough of them, with
the waits between them, for one method. -/
def SplitsInstance (config : Config) (script : Text) : Prop :=
  ∃ d, analyze config none script = .ok d ∧ ∃ c ∈ d.components, ∃ o ∈ c.instances,
    ∃ p ∈ d.pages, p.number = o.page ∧
      ((p.stretchOf o).filterMap Item.action?).length ≤ config.methods.maxItems.val ∧
      ∀ m ∈ d.methodsOf p.id, ¬ o.numbers ⊆ m.actions

/-- Assertions are not kept apart, and two items are a method. -/
def pairedItems : MethodOptions := { maxItems := ⟨2, Nat.le_succ 1⟩, separateAssertions := false }

theorem splitsInstance_checkedMenu : ∀ options ∈ [{}, pairedItems],
    SplitsInstance { components := onceSeen, methods := options } checkedMenu := by
  intro options hoptions
  obtain ⟨d, h⟩ := exists_document_of_harmless { components := onceSeen, methods := options } none
    (by decide +kernel : (Text.trim checkedMenu).isEmpty = false) (by decide +kernel)
    (by decide +kernel)
  obtain ⟨extracted, spans, own, shared, made⟩ := exists_madeOf h
  have split : ∀ options ∈ [{}, pairedItems], (extract checkedMenu).toOption.any (fun statements =>
      (PageSpan.ofStatements {} statements).toOption.any fun spans =>
        let pages := placeAssertions (Page.ofSpans {} spans)
        (findComponents onceSeen pages).components.any fun c => c.instances.any fun o =>
          pages.all fun p =>
            decide (((p.stretchOf o).filterMap Item.action?).length ≤ options.maxItems.val ∧
              ¬ options.Fits (p.stretchOf o))) = true := by
    decide +kernel
  have paging : PageSpan.ofStatements {} d.statements = .ok spans := made.found
  have pages : d.pages = placeAssertions (Page.ofSpans {} spans) := made.pages
  have components : d.components = (findComponents onceSeen d.pages).components := made.components
  have found := split options hoptions
  simp only [extracted, paging, Except.toOption, Option.any_some, ← pages, ← components,
    List.any_eq_true, List.all_eq_true, decide_eq_true_eq] at found
  obtain ⟨c, hc, o, ho, misfit⟩ := found
  obtain ⟨p, hp, delegates⟩ := made.exists_delegates (made.paged extracted) hc ho
  obtain ⟨few, misfit⟩ := misfit p hp
  exact ⟨d, h, c, hc, o, ho, p, hp, delegates.page, few,
    fun m hm all => misfit (delegates.fits m hm all)⟩

/-- A check keeps the actions of an instance from one method, both where checks are kept apart and
where it takes the room for the last action. -/
theorem instance_split_by_check : SplitsInstance { components := onceSeen } checkedMenu ∧
    SplitsInstance { components := onceSeen, methods := pairedItems } checkedMenu :=
  ⟨splitsInstance_checkedMenu {} (by decide), splitsInstance_checkedMenu pairedItems (by decide)⟩

end PageObjects
