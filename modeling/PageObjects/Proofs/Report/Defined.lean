import PageObjects.Proofs.Method.Reference
import PageObjects.Proofs.Report.Parts

namespace PageObjects

/-- Whether a document has the thing that an id stands for. -/
def Document.Defines (d : Document) : Id → Prop
  | .page n => ∃ p ∈ d.pages, p.number = n
  | .action n => ∃ p ∈ d.pages, ∃ a ∈ p.actions, a.number = n
  | .assertion n => ∃ p ∈ d.pages, ∃ a ∈ p.assertions, a.number = n
  | .component n => ∃ c ∈ d.components, c.number = n
  | .selector n => ∃ e ∈ d.registry, e.number = n
  | .method n => ∃ m ∈ d.listedMethods, m.number = n
  | .sequence n => n ∈ List.range' 1 d.sequences.length

theorem mem_actions_of_mem_items {p : Page} {a : Action} (h : Item.action a ∈ p.items) :
    a ∈ p.actions :=
  List.mem_filterMap.mpr ⟨_, h, rfl⟩

theorem mem_items_of_mem_actions {p : Page} {a : Action} (h : a ∈ p.actions) :
    Item.action a ∈ p.items :=
  (sublist_map_action p.items).subset (List.mem_map_of_mem h)

/-- A method all of whose references are in a document. -/
structure Method.DefinedIn (d : Document) (m : Method) : Prop where
  actions : ∀ n ∈ m.actions, d.Defines (.action n)
  assertions : ∀ n ∈ m.assertions, d.Defines (.assertion n)
  returns : ∀ n, m.returnsPage = some n → d.Defines (.page n)
  component : ∀ n, m.component = some n → d.Defines (.component n)
  parameters : ∀ p ∈ m.parameters, p.actions ⊆ m.actions

/-- An occurrence whose page is in a document with its actions. -/
structure Occurrence.DefinedIn (d : Document) (o : Occurrence) : Prop where
  page : d.Defines (.page o.page)
  actions : ∀ a ∈ o.actions, ∃ p ∈ d.pages, a ∈ p.actions

/-- A step whose page is in a document with the method that it calls, or else with the assertion
that it stands for. -/
structure Step.DefinedIn (d : Document) (s : Step) : Prop where
  page : d.Defines (.page s.page)
  method : ∀ n component, s.target = .method n component →
    d.Defines (.method n) ∧ ∀ c, component = some c → d.Defines (.component c)
  item : ∀ i, s.target = .item i → d.Defines i ∧ ∃ n, i = .assertion n

variable {config : Config} {d : Document} {spans : List PageSpan}
  {own shared : List (Id × List Method)}

namespace Document

theorem defines_page {p : Page} (h : p ∈ d.pages) : d.Defines p.id := ⟨p, h, rfl⟩

theorem defines_item {p : Page} (hp : p ∈ d.pages) {i : Item} (h : i ∈ p.items) :
    d.Defines i.id := by
  cases i with
  | action a => exact ⟨p, hp, a, mem_actions_of_mem_items h, rfl⟩
  | assertion a => exact ⟨p, hp, a, List.mem_filterMap.mpr ⟨_, h, rfl⟩, rfl⟩

theorem defines_of_mem_allItems {i : Item} (h : i ∈ allItems d.pages) : d.Defines i.id := by
  obtain ⟨p, hp, hi⟩ := List.mem_flatMap.mp h
  exact defines_item hp hi

end Document

/-- A method that refers to what its owner has refers to what the document has. -/
theorem Method.Refers.definedIn {usages : List (Nat × Nat)} {items : List Item}
    {next : Option Page} {m : Method} (h : m.Refers usages items next)
    (all : ∀ i ∈ items, d.Defines i.id) (behind : ∀ p, next = some p → p ∈ d.pages)
    (used : ∀ u ∈ usages, d.Defines (.component u.2)) : m.DefinedIn d where
  actions := by
    intro n hn
    obtain ⟨a, ha, rfl⟩ := h.actions n hn
    exact all _ ha
  assertions := by
    intro n hn
    obtain ⟨a, ha, rfl⟩ := h.assertions n hn
    exact all _ ha
  returns := by
    intro n hn
    obtain ⟨p, hp, rfl⟩ := h.returns n hn
    exact Document.defines_page (behind p hp)
  component := by
    intro n hn
    obtain ⟨k, hk⟩ := h.component n hn
    exact used _ hk
  parameters := h.parameters

theorem exists_of_mem_usages {components : List Component} {u : Nat × Nat}
    (h : u ∈ usages components) :
    ∃ c ∈ components, c.number = u.2 ∧ ∃ o ∈ c.instances, ∃ a ∈ o.actions, a.number = u.1 := by
  obtain ⟨c, hc, h⟩ := List.mem_flatMap.mp h
  obtain ⟨n, hn, rfl⟩ := List.mem_map.mp h
  obtain ⟨o, ho, hn⟩ := List.mem_flatMap.mp hn
  obtain ⟨a, ha, rfl⟩ := List.mem_map.mp hn
  exact ⟨c, hc, rfl, o, ho, a, ha, rfl⟩

theorem mem_firstCalls {called : List Nat} {s : Step} {steps : List Step}
    (h : s ∈ firstCalls called steps) : s ∈ steps := by
  induction steps generalizing called with
  | nil => cases h
  | cons first rest ih =>
    rw [firstCalls] at h
    split at h
    next =>
      split at h
      next => exact List.mem_cons_of_mem _ (ih h)
      next =>
        rcases List.mem_cons.mp h with rfl | h
        · exact List.mem_cons_self
        · exact List.mem_cons_of_mem _ (ih h)
    next =>
      rcases List.mem_cons.mp h with rfl | h
      · exact List.mem_cons_self
      · exact List.mem_cons_of_mem _ (ih h)

namespace Document.MadeOf

theorem definedIn_of_mem_instances (h : d.MadeOf config spans own shared) {c : Component}
    (hc : c ∈ d.components)
    {o : Occurrence} (ho : o ∈ c.instances) : o.DefinedIn d := by
  rw [h.components] at hc
  obtain ⟨p, hp, on⟩ := (isOn_of_mem_findComponents hc).2 o ho
  refine ⟨by rw [on.page]; exact Document.defines_page hp, ?_⟩
  exact fun a ha => ⟨p, hp, on.sublist_actions.subset ha⟩

/-- The actions that stand for a component are those of a page. -/
theorem exists_page_of_mem_model (h : d.MadeOf config spans own shared) {c : Component}
    (hc : c ∈ d.components)
    {a : Action} (ha : a ∈ c.model) : ∃ p ∈ d.pages, a ∈ p.actions := by
  unfold Component.model at ha
  cases ho : c.instances.head? with
  | none => simp [ho] at ha
  | some o =>
    simp only [ho, Option.map_some, Option.getD_some] at ha
    exact (h.definedIn_of_mem_instances hc (List.mem_of_head? ho)).actions a ha

theorem defines_of_mem_usages (h : d.MadeOf config spans own shared) {u : Nat × Nat}
    (hu : u ∈ usages d.components) : d.Defines (.action u.1) ∧ d.Defines (.component u.2) := by
  obtain ⟨c, hc, component, o, ho, a, ha, action⟩ := exists_of_mem_usages hu
  obtain ⟨p, hp, hpa⟩ := (h.definedIn_of_mem_instances hc ho).actions a ha
  exact ⟨⟨p, hp, a, hpa, action⟩, c, hc, component⟩

/-- Every listed method refers to what the document has. -/
theorem definedIn_of_mem_listedMethods (h : d.MadeOf config spans own shared) {m : Method}
    (hm : m ∈ d.listedMethods) :
    m.DefinedIn d := by
  rw [h.listedMethods, Document.allMethods, h.methods] at hm
  obtain ⟨entry, he, hm⟩ := List.mem_flatMap.mp hm
  rcases List.mem_append.mp he with he | he
  · obtain ⟨owner, ho, built⟩ := exists_left_of_mem h.suggested.pages he
    obtain ⟨p, hp, next, rfl, behind⟩ := mem_pageOwners ho
    have refers := built.refers
      (fun a ha => h.binds.parameters p hp a (mem_actions_of_mem_items ha)) hm
    refine refers.definedIn (fun i hi => Document.defines_item hp hi) behind ?_
    exact fun u hu => (h.defines_of_mem_usages hu).2
  · obtain ⟨owner, ho, built⟩ := exists_left_of_mem h.suggested.components he
    obtain ⟨c, hc, rfl⟩ := List.mem_map.mp ho
    have model : ∀ i ∈ (componentOwner c).2, ∃ p ∈ d.pages, i ∈ p.items := by
      intro i hi
      obtain ⟨a, ha, rfl⟩ := List.mem_map.mp hi
      obtain ⟨p, hp, hpa⟩ := h.exists_page_of_mem_model hc ha
      exact ⟨p, hp, mem_items_of_mem_actions hpa⟩
    have refers := built.refers (fun a ha => by
      obtain ⟨p, hp, hpa⟩ := model _ ha
      exact h.binds.parameters p hp a (mem_actions_of_mem_items hpa)) hm
    refine refers.definedIn ?_ (by simp [componentOwner]) (by simp)
    intro i hi
    obtain ⟨p, hp, hpi⟩ := model i hi
    exact Document.defines_item hp hpi

theorem mem_listedMethods (h : d.MadeOf config spans own shared) {m : Method}
    (hm : m ∈ pageMethods d.methods) : m ∈ d.listedMethods := by
  obtain ⟨entry, he, hm⟩ := List.mem_flatMap.mp hm
  rw [h.listedMethods]
  exact List.mem_flatMap.mpr ⟨entry, (List.mem_filter.mp he).1, hm⟩

/-- Every action of a page is in a method of that page. -/
theorem exists_pageMethod (h : d.MadeOf config spans own shared) (paged : d.Paged) {p : Page}
    (hp : p ∈ d.pages) {a : Action} (ha : Item.action a ∈ p.items) :
    ∃ m ∈ pageMethods d.methods, a.number ∈ m.actions := by
  obtain ⟨next, ho⟩ := exists_mem_pageOwners hp
  obtain ⟨entry, he, built⟩ := exists_right_of_mem h.suggested.pages ho
  obtain ⟨m, hm, holds⟩ := built.exists_holding (paged.linesIncrease hp (h.binds.all p hp)) ha
  refine ⟨m, List.mem_flatMap.mpr ⟨entry, List.mem_filter.mpr ⟨?_, ?_⟩, hm⟩, holds⟩
  · rw [h.methods]
    exact List.mem_append_left _ he
  · have owner : entry.1 = .page p.number := built.1
    simp [owner]

/-- The step of an action calls a method, so only assertions stand for themselves. -/
theorem stepOf_definedIn (h : d.MadeOf config spans own shared) (paged : d.Paged) {p : Page}
    (hp : p ∈ d.pages) {i : Item} (hi : i ∈ p.items) :
    (stepOf (pageMethods d.methods) p.number i).DefinedIn d := by
  unfold stepOf
  split
  next m hm =>
    have listed := h.mem_listedMethods (List.mem_of_find?_eq_some hm)
    refine ⟨Document.defines_page hp, ?_, fun i hi => nomatch hi⟩
    intro n component target
    obtain ⟨rfl, rfl⟩ := StepTarget.method.inj target
    exact ⟨⟨m, listed, rfl⟩, fun c hc => (h.definedIn_of_mem_listedMethods listed).component c hc⟩
  next unheld =>
    refine ⟨Document.defines_page hp, (fun n c target => nomatch target), ?_⟩
    intro j target
    obtain rfl := StepTarget.item.inj target
    refine ⟨Document.defines_item hp hi, ?_⟩
    cases i with
    | assertion a => exact ⟨a.number, rfl⟩
    | action a =>
      obtain ⟨m, hm, holds⟩ := h.exists_pageMethod paged hp hi
      have misses := List.find?_eq_none.mp unheld m hm
      simp [Item.id, Action.id, Method.holds, holds] at misses

theorem definedIn_of_mem_steps (h : d.MadeOf config spans own shared) (paged : d.Paged)
    {q : Sequence}
    (hq : q ∈ d.sequences) {s : Step} (hs : s ∈ q.steps) : s.DefinedIn d := by
  have found : q ∈ (blocksOf (testsOf d.statements) (allItems d.pages)).map
      (Block.sequence (pageMethods d.methods) d.pages) := by
    rw [h.sequences, sequencesOf] at hq
    split at hq
    next => exact hq
    next => exact (List.mem_filter.mp hq).1
  obtain ⟨b, -, rfl⟩ := List.mem_map.mp found
  obtain ⟨p, hp, hs⟩ := List.mem_flatMap.mp (mem_firstCalls hs)
  obtain ⟨i, hi, rfl⟩ := List.mem_map.mp hs
  exact h.stepOf_definedIn paged hp (List.mem_filter.mp hi).1

/-- The users of an entry of the registry are items. -/
theorem exists_item_of_mem_users (h : d.MadeOf config spans own shared) {e : RegistryEntry}
    (he : e ∈ d.registry)
    {user : Id × Nat} (hu : user ∈ e.users) : ∃ i ∈ allItems d.pages, user.1 = i.id := by
  rw [h.registry] at he
  obtain ⟨i, hi, same⟩ := (Registry.complete_ofItems _).users e he user hu
  exact ⟨i, hi, by rw [same]⟩

theorem defines_of_architectural (h : d.MadeOf config spans own shared) :
    ∀ r ∈ d.architectural, ∀ i ∈ r.related, d.Defines i := by
  have pages : ∀ {chosen : List Page}, chosen ⊆ d.pages →
      ∀ i ∈ (chosen.map Page.number).map Id.page, d.Defines i := by
    intro chosen hs i hi
    rw [List.map_map] at hi
    obtain ⟨p, hp, rfl⟩ := List.mem_map.mp hi
    exact Document.defines_page (hs hp)
  intro r hr i hi
  rw [h.architectural, PageObjects.architecturalAdvice] at hr
  rcases List.mem_append.mp hr with hr | hr
  · rcases List.mem_append.mp hr with hr | hr
    · split at hr
      · rw [List.mem_singleton.mp hr] at hi
        exact pages (List.Subset.refl _) i hi
      · cases hr
    · obtain ⟨pattern, -, hr⟩ := List.mem_filterMap.mp hr
      simp only [sharedPattern?, Option.ite_none_left_eq_some] at hr
      obtain rfl := Option.some.inj hr.2
      exact pages List.filter_sublist.subset i hi
  · obtain ⟨p, hp, rfl⟩ := (sound_chooseComponents config.components d.pages).relates r hr i hi
    exact Document.defines_page hp

theorem defines_of_refactoring (h : d.MadeOf config spans own shared) :
    ∀ r ∈ d.refactoring, ∀ i ∈ r.related, d.Defines i := by
  intro r hr i hi
  rw [h.refactoring, PageObjects.refactoringAdvice] at hr
  rcases List.mem_append.mp hr with hr | hr
  · obtain ⟨m, hm, rfl⟩ := List.mem_map.mp hr
    rw [List.mem_singleton.mp hi]
    refine ⟨m, ?_, rfl⟩
    rw [h.listedMethods]
    exact (List.mem_filter.mp hm).1
  · obtain ⟨e, he, rfl⟩ := List.mem_map.mp hr
    have entry := (List.mem_filter.mp he).1
    rcases List.mem_cons.mp hi with rfl | hi
    · exact ⟨e, entry, rfl⟩
    · obtain ⟨user, hu, rfl⟩ := List.mem_map.mp hi
      obtain ⟨j, hj, same⟩ := h.exists_item_of_mem_users entry hu
      exact same ▸ Document.defines_of_mem_allItems hj

theorem defines_of_itemAdvice {i : Item} (hi : i ∈ allItems d.pages) :
    ∀ r ∈ i.advice, ∀ j ∈ r.related, d.Defines j := by
  intro r hr j hj
  have defined := Document.defines_of_mem_allItems hi
  cases i with
  | action a =>
    rw [Item.advice] at hr
    split at hr
    · rw [List.mem_singleton.mp hr] at hj
      exact List.mem_singleton.mp hj ▸ defined
    · cases hr
  | assertion a =>
    rw [Item.advice] at hr
    split at hr
    · rw [List.mem_singleton.mp hr] at hj
      exact List.mem_singleton.mp hj ▸ defined
    · cases hr

theorem defines_of_quality (h : d.MadeOf config spans own shared) :
    ∀ r ∈ d.quality, ∀ i ∈ r.related, d.Defines i := by
  intro r hr i hi
  rw [h.quality, PageObjects.qualityAdvice] at hr
  simp only [List.mem_append] at hr
  rcases hr with (((hr | hr) | hr) | hr) | hr
  · obtain ⟨e, he, rfl⟩ := List.mem_map.mp hr
    rw [List.mem_singleton.mp hi]
    split at he
    · exact ⟨e, (List.mem_filter.mp he).1, rfl⟩
    · cases he
  · obtain ⟨j, hj, hr⟩ := List.mem_flatMap.mp hr
    exact defines_of_itemAdvice hj r hr i hi
  · obtain ⟨p, hp, rfl⟩ := List.mem_map.mp hr
    rw [List.mem_singleton.mp hi]
    exact Document.defines_page (List.mem_filter.mp hp).1
  · obtain ⟨c, hc, rfl⟩ := List.mem_map.mp hr
    rw [List.mem_singleton.mp hi]
    exact ⟨c, (List.mem_filter.mp hc).1, rfl⟩
  · obtain ⟨m, hm, rfl⟩ := List.mem_map.mp hr
    rw [List.mem_singleton.mp hi]
    refine ⟨m, ?_, rfl⟩
    rw [h.listedMethods]
    exact (List.mem_filter.mp hm).1

end Document.MadeOf

end PageObjects
