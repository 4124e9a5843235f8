import Mathlib.Data.List.Perm.Subperm
import PageObjects.Proofs.Method.Numbering
import PageObjects.Proofs.Page.Binding
import PageObjects.Report.Sequence

namespace PageObjects

theorem perm_setEntry {α β : Type} [DecidableEq α] (key : α) (x : β) (entries : List (α × List β)) :
    ((setEntry key ((valueAt? key entries).getD [] ++ [x]) entries).flatMap Prod.snd).Perm
      (entries.flatMap Prod.snd ++ [x]) := by
  induction entries with
  | nil => exact .refl _
  | cons entry rest ih =>
    obtain ⟨k, v⟩ := entry
    by_cases hk : k = key
    · rw [valueAt?, if_pos hk, setEntry, if_pos hk]
      simp only [Option.getD_some, List.flatMap_cons, List.append_assoc]
      exact List.perm_append_comm.append_left v
    · rw [valueAt?, if_neg hk, setEntry, if_neg hk]
      simp only [List.flatMap_cons, List.append_assoc]
      exact ih.append_left v

namespace Grouping

/-- All items that drafts and checks hold. -/
def held (g : Grouping) : List Item := (g.drafts ++ g.checkDrafts).flatMap Draft.items

theorem held_eq (g : Grouping) : g.held =
    g.drafts.flatMap Draft.items ++ (g.checks.flatMap Prod.snd).map Item.assertion := by
  simp only [held, List.flatMap_append, checkDrafts, List.flatMap_map, List.map_flatMap]

/-- An item is held once more at most. -/
theorem held_add (options : MethodOptions) (usages : List (Nat × Nat)) (g : Grouping)
    (item : Item) : (g.add options usages item).held.Subperm (g.held ++ [item]) := by
  have taken : ∀ {g' : Grouping}, Draft.Takes usages item g.drafts g'.drafts →
      g'.checks = g.checks → g'.held.Subperm (g.held ++ [item]) := by
    intro g' takes checks
    rw [held_eq, held_eq, takes.flatMap_items, checks, List.append_assoc, List.append_assoc]
    exact (List.perm_append_comm.append_left _).subperm
  cases item with
  | action a => exact taken (takes_add_action a).1 (takes_add_action a).2
  | assertion a =>
    rcases add_assertion_cases a with ⟨takes, checks⟩ | ⟨drafts, checks | checks⟩
    · exact taken takes checks
    · rw [held_eq, held_eq, drafts, checks]
      exact (List.sublist_append_left _ _).subperm
    · have noted := (perm_setEntry a.shape a g.checks).map Item.assertion
      rw [held_eq, held_eq, drafts, checks, List.append_assoc]
      rw [List.map_append] at noted
      exact (noted.append_left _).subperm

theorem held_foldl (options : MethodOptions) (usages : List (Nat × Nat)) {done : List Item}
    {g : Grouping} (h : g.held.Subperm done) (items : List Item) :
    (items.foldl (Grouping.add options usages) g).held.Subperm (done ++ items) := by
  induction items generalizing g done with
  | nil => rwa [List.append_nil]
  | cons item rest ih =>
    have step := (held_add options usages g item).trans (h.append (.refl [item]))
    have run := ih step
    rwa [List.append_assoc] at run

end Grouping

theorem Draft.subperm_ofItems (options : MethodOptions) (usages : List (Nat × Nat))
    (items : List Item) : ((ofItems options usages items).flatMap Draft.items).Subperm items := by
  have start : ({} : Grouping).held.Subperm [] := .refl []
  have held := Grouping.held_foldl options usages start items
  exact ((Grouping.perm_finish _).flatMap_right _).subperm.trans held

/-- The ids of the items that a method holds. -/
def Method.itemIds (m : Method) : List Id :=
  m.actions.map Id.action ++ m.assertions.map Id.assertion

theorem Method.holds_iff {m : Method} {i : Id} : m.holds i = true ↔ i ∈ m.itemIds := by
  cases i <;> simp [holds, itemIds]

theorem perm_ids (items : List Item) : ((items.filterMap Item.action?).map Action.id ++
    (items.filterMap Item.assertion?).map Assertion.id).Perm (items.map Item.id) := by
  induction items with
  | nil => exact .refl _
  | cons i rest ih =>
    cases i with
    | action a => exact ih.cons a.id
    | assertion a => exact List.perm_middle.trans (ih.cons a.id)

theorem Owner.Entry.subperm_itemIds {options : MethodOptions} {usages : List (Nat × Nat)}
    {owner : Owner × List Item} {entry : Id × List Method}
    (h : Owner.Entry options usages owner entry) :
    (entry.2.flatMap Method.itemIds).Subperm (owner.2.map Item.id) := by
  obtain ⟨-, methods, warnings, n, built, numbered⟩ := h
  have same : entry.2.flatMap Method.itemIds =
      (Draft.ofItems options usages owner.2).flatMap fun d =>
        d.actions.map Action.id ++ d.assertions.map Assertion.id := by
    rw [numbered, List.flatMap_def, List.flatMap_def, map_numberMethods fun _ _ => rfl,
      map_buildMethods built fun d naming => ?_]
    show (d.actions.map Action.number).map Id.action ++
      (d.assertions.map Assertion.number).map Id.assertion = _
    rw [List.map_map, List.map_map]
    rfl
  have drafts := List.Perm.flatMap_left (Draft.ofItems options usages owner.2)
    fun d _ => perm_ids d.items
  rw [← List.map_flatMap] at drafts
  rw [same]
  obtain ⟨kept, perm, sublist⟩ := Draft.subperm_ofItems options usages owner.2
  exact drafts.subperm.trans ⟨kept.map Item.id, perm.map Item.id, sublist.map Item.id⟩

theorem subperm_entries {options : MethodOptions} {usages : List (Nat × Nat)}
    {owners : List (Owner × List Item)} {entries : List (Id × List Method)}
    (h : List.Forall₂ (Owner.Entry options usages) owners entries) :
    ((entries.flatMap Prod.snd).flatMap Method.itemIds).Subperm
      ((owners.flatMap Prod.snd).map Item.id) := by
  induction h with
  | nil => exact .refl []
  | cons first _ ih =>
    rw [List.flatMap_cons, List.flatMap_cons, List.flatMap_append, List.map_append]
    exact first.subperm_itemIds.append ih

theorem flatMap_pageOwners (pages : List Page) :
    (pageOwners pages).flatMap Prod.snd = allItems pages := by
  induction pages with
  | nil => rfl
  | cons p rest ih =>
    rw [pageOwners, List.flatMap_cons, ih, allItems, allItems, List.flatMap_cons]

theorem mem_fst_entries {options : MethodOptions} {usages : List (Nat × Nat)}
    {owners : List (Owner × List Item)} {entries : List (Id × List Method)}
    (h : List.Forall₂ (Owner.Entry options usages) owners entries) {entry : Id × List Method}
    (he : entry ∈ entries) : ∃ owner ∈ owners, entry.1 = owner.1.id := by
  obtain ⟨owner, ho, built⟩ := exists_left_of_mem h he
  exact ⟨owner, ho, built.1⟩

namespace SuggestedMethods

variable {options : MethodOptions} {pages : List Page} {components : List Component}
  {own shared : List (Id × List Method)}

theorem pageMethods_eq (h : SuggestedMethods options pages components own shared) :
    pageMethods (own ++ shared) = own.flatMap Prod.snd := by
  rw [pageMethods, List.filter_append, List.filter_eq_self.mpr ?_, List.filter_eq_nil_iff.mpr ?_,
    List.append_nil]
  · intro entry he
    obtain ⟨owner, ho, same⟩ := mem_fst_entries h.components he
    obtain ⟨c, -, rfl⟩ := List.mem_map.mp ho
    have component : entry.1 = .component c.number := same
    simp [component]
  · intro entry he
    obtain ⟨owner, ho, same⟩ := mem_fst_entries h.pages he
    obtain ⟨p, -, next, rfl, -⟩ := mem_pageOwners ho
    have page : entry.1 = .page p.number := same
    simp [page]

/-- The items that the methods of pages hold are items of pages, each held once at most. -/
theorem subperm_itemIds (h : SuggestedMethods options pages components own shared) :
    ((pageMethods (own ++ shared)).flatMap Method.itemIds).Subperm
      ((allItems pages).map Item.id) := by
  have entries := subperm_entries h.pages
  rwa [flatMap_pageOwners, ← h.pageMethods_eq] at entries

end SuggestedMethods

/-- The items of a document have ids of their own. -/
theorem PagesBind.nodup_ids {spans : List PageSpan} {pages : List Page}
    (h : PagesBind 1 {} spans pages) : ((allItems pages).map Item.id).Nodup := by
  have perm := perm_ids (allItems pages)
  rw [allItems, List.filterMap_flatMap, List.filterMap_flatMap] at perm
  refine perm.nodup_iff.mp (List.nodup_append.mpr ⟨?_, ?_, ?_⟩)
  · exact nodup_of_numbers h.actionNumbers fun a b hab => Id.action.inj hab
  · exact nodup_of_numbers h.assertionNumbers fun a b hab => Id.assertion.inj hab
  · intro i hi j hj
    obtain ⟨a, -, rfl⟩ := List.mem_map.mp hi
    obtain ⟨b, -, rfl⟩ := List.mem_map.mp hj
    exact fun same => nomatch same

end PageObjects
