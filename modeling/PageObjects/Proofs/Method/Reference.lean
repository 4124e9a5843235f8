import PageObjects.Proofs.Method.Numbering

namespace PageObjects

theorem subset_mergeParameter {numbers : List Nat} {merged : List (Text × Parameter)}
    {p : Parameter} (old : ∀ entry ∈ merged, entry.2.actions ⊆ numbers)
    (own : p.actions ⊆ numbers) : ∀ entry ∈ mergeParameter merged p, entry.2.actions ⊆ numbers := by
  intro entry he
  simp only [mergeParameter] at he
  split at he
  next =>
    rcases List.mem_append.mp he with he | he
    · exact old entry he
    · rw [List.mem_singleton.mp he]
      exact own
  next q hq =>
    rcases eq_or_mem_of_mem_setEntry he with rfl | he
    · have before : q.actions ⊆ numbers := old _ (mem_of_valueAt? hq)
      exact List.append_subset.mpr ⟨before, fun n hn => own (List.filter_sublist.subset hn)⟩
    · exact old entry he

theorem subset_foldl_mergeParameter {numbers : List Nat} {parameters : List Parameter}
    (own : ∀ p ∈ parameters, p.actions ⊆ numbers) {merged : List (Text × Parameter)}
    (old : ∀ entry ∈ merged, entry.2.actions ⊆ numbers) :
    ∀ entry ∈ parameters.foldl mergeParameter merged, entry.2.actions ⊆ numbers := by
  induction parameters generalizing merged with
  | nil => exact old
  | cons p rest ih =>
    exact ih (fun q hq => own q (by simp [hq])) (subset_mergeParameter old (own p (by simp)))

/-- Parameters of actions are used by these actions only. -/
theorem subset_mergeParameters {actions : List Action}
    (own : ∀ a ∈ actions, ∀ p ∈ a.parameters, p.actions = [a.number]) :
    ∀ p ∈ mergeParameters actions, p.actions ⊆ actions.map Action.number := by
  intro p hp
  obtain ⟨entry, he, rfl⟩ := List.mem_map.mp hp
  refine subset_foldl_mergeParameter ?_ (by simp) entry he
  intro q hq n hn
  obtain ⟨a, ha, hq⟩ := List.mem_flatMap.mp hq
  rw [own a ha q hq, List.mem_singleton] at hn
  exact hn ▸ List.mem_map_of_mem ha

/-- What a method refers to, given the items and the next page of its owner and the components that
actions are left to. -/
structure Method.Refers (usages : List (Nat × Nat)) (items : List Item) (next : Option Page)
    (m : Method) : Prop where
  actions : ∀ n ∈ m.actions, ∃ a, Item.action a ∈ items ∧ a.number = n
  assertions : ∀ n ∈ m.assertions, ∃ a, Item.assertion a ∈ items ∧ a.number = n
  returns : ∀ n, m.returnsPage = some n → ∃ p, next = some p ∧ p.number = n
  component : ∀ n, m.component = some n → ∃ k, (k, n) ∈ usages
  parameters : ∀ p ∈ m.parameters, p.actions ⊆ m.actions

namespace Draft

theorem mem_actions {d : Draft} {a : Action} : a ∈ d.actions ↔ Item.action a ∈ d.items := by
  rw [actions, List.mem_filterMap]
  constructor
  · rintro ⟨i, hi, ha⟩
    cases i with
    | action b => rwa [← Option.some.inj ha]
    | assertion b => cases ha
  · exact fun h => ⟨_, h, rfl⟩

theorem mem_assertions {d : Draft} {a : Assertion} :
    a ∈ d.assertions ↔ Item.assertion a ∈ d.items := by
  rw [assertions, List.mem_filterMap]
  constructor
  · rintro ⟨i, hi, ha⟩
    cases i with
    | action b => cases ha
    | assertion b => rwa [← Option.some.inj ha]
  · exact fun h => ⟨_, h, rfl⟩

theorem returnsPage?_eq_some {d : Draft} {page next : Option Page} {n : Nat}
    (h : d.returnsPage? page next = some n) : ∃ p, next = some p ∧ p.number = n := by
  unfold returnsPage? at h
  split at h
  next p q =>
    obtain ⟨-, hn⟩ := Option.ite_none_right_eq_some.mp h
    exact ⟨q, rfl, Option.some.inj hn⟩
  next => cases h

theorem refers {options : MethodOptions} {usages : List (Nat × Nat)} {items : List Item}
    {d : Draft} (h : d ∈ ofItems options usages items)
    (own : ∀ a, Item.action a ∈ items → ∀ p ∈ a.parameters, p.actions = [a.number])
    (owner : Id) (naming : Naming) (page next : Option Page) (n : Nat) :
    ({ d.toMethod owner naming page next with number := n } : Method).Refers usages items next := by
  have seen : ∀ i ∈ d.items, i ∈ items := fun i hi => mem_of_mem_ofItems options usages h hi
  refine ⟨?_, ?_, ?_, ?_, ?_⟩
  · intro k hk
    obtain ⟨a, ha, rfl⟩ := List.mem_map.mp hk
    exact ⟨a, seen _ (mem_actions.mp ha), rfl⟩
  · intro k hk
    obtain ⟨a, ha, rfl⟩ := List.mem_map.mp hk
    exact ⟨a, seen _ (mem_assertions.mp ha), rfl⟩
  · intro k hk
    exact returnsPage?_eq_some hk
  · intro k hk
    have hc : d.component = some k := hk
    rcases mem_ofItems options usages h with ⟨sound, -⟩ | ⟨-, noComponent, -⟩
    · obtain ⟨a, -, hn⟩ := sound.delegates k hc
      exact ⟨a.number, mem_of_valueAt? hn⟩
    · rw [noComponent] at hc
      cases hc
  · exact subset_mergeParameters fun a ha => own a (seen _ (mem_actions.mp ha))

end Draft

/-- The methods of an owner refer to what it has. -/
theorem Owner.Entry.refers {options : MethodOptions} {usages : List (Nat × Nat)}
    {owner : Owner × List Item} {entry : Id × List Method}
    (h : Owner.Entry options usages owner entry)
    (own : ∀ a, Item.action a ∈ owner.2 → ∀ p ∈ a.parameters, p.actions = [a.number]) {m : Method}
    (hm : m ∈ entry.2) : m.Refers usages owner.2 owner.1.next := by
  obtain ⟨d, hd, naming, k, rfl⟩ := h.exists_draft hm
  exact Draft.refers hd own owner.1.id naming owner.1.page owner.1.next k

/-- The methods of an owner whose items are in order have all its actions. -/
theorem Owner.Entry.flatMap_actions {options : MethodOptions} {usages : List (Nat × Nat)}
    {owner : Owner × List Item} {entry : Id × List Method}
    (h : Owner.Entry options usages owner entry) (lines : LinesIncrease owner.2) :
    entry.2.flatMap Method.actions =
      (owner.2.filterMap Item.action?).map fun a => a.number := by
  obtain ⟨-, methods, warnings, n, built, numbered⟩ := h
  rw [← (methodsOf_partition lines built).covers, numbered, List.flatMap_def, List.flatMap_def,
    map_numberMethods fun _ _ => rfl]

theorem Owner.Entry.exists_holding {options : MethodOptions} {usages : List (Nat × Nat)}
    {owner : Owner × List Item} {entry : Id × List Method}
    (h : Owner.Entry options usages owner entry) (lines : LinesIncrease owner.2) {a : Action}
    (ha : Item.action a ∈ owner.2) : ∃ m ∈ entry.2, a.number ∈ m.actions := by
  have there : a.number ∈ entry.2.flatMap Method.actions := by
    rw [h.flatMap_actions lines]
    exact List.mem_map_of_mem (List.mem_filterMap.mpr ⟨_, ha, rfl⟩)
  exact List.mem_flatMap.mp there

end PageObjects
