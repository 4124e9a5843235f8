import Mathlib.Data.List.Nodup
import PageObjects.Method.Suggestion
import PageObjects.Proofs.Method.Grouping
import PageObjects.Proofs.Outcome
import PageObjects.Proofs.Lists

namespace PageObjects

/-- Items in the order of their lines, one on each. -/
def LinesIncrease (items : List Item) : Prop := items.Pairwise fun a b => a.line < b.line

namespace Draft

theorem exists_firstLine {d : Draft} (h : d.items ≠ []) : ∃ i ∈ d.items, d.firstLine = i.line := by
  have hl : d.lines ≠ [] := by simpa [lines] using h
  obtain ⟨n, hn⟩ := Option.ne_none_iff_exists'.mp (mt List.min?_eq_none_iff.mp hl)
  obtain ⟨i, hi, he⟩ := List.mem_map.mp (List.min?_mem hn)
  exact ⟨i, hi, by rw [firstLine, hn, Option.getD_some, he]⟩

theorem pairwise_firstLine {drafts : List Draft} {items : List Item}
    (inOrder : (drafts.flatMap fun d => d.items).Sublist items) (lines : LinesIncrease items)
    (filled : ∀ d ∈ drafts, d.items ≠ []) :
    drafts.Pairwise fun a b => a.firstLine ≤ b.firstLine := by
  have apart := (List.pairwise_flatMap.mp (lines.sublist inOrder)).2
  refine apart.imp_of_mem ?_
  intro a b ha hb before
  obtain ⟨i, hi, hai⟩ := exists_firstLine (filled a ha)
  obtain ⟨j, hj, hbj⟩ := exists_firstLine (filled b hb)
  have := before i hi j hj
  omega

end Draft

namespace Grouping

/-- The drafts of recurring checks. -/
def checkDrafts (g : Grouping) : List Draft :=
  g.checks.map fun entry => { kind := .verification, items := entry.2.map Item.assertion }

theorem finish_eq (g : Grouping) :
    g.finish = (g.drafts ++ g.checkDrafts).mergeSort fun a b => a.firstLine ≤ b.firstLine := by
  simp [finish, close, drafts, checkDrafts]

theorem perm_finish (g : Grouping) : g.finish.Perm (g.drafts ++ g.checkDrafts) := by
  rw [finish_eq]
  exact List.mergeSort_perm _ _

theorem firstLine_trans (a b c : Draft) (hab : decide (a.firstLine ≤ b.firstLine) = true)
    (hbc : decide (b.firstLine ≤ c.firstLine) = true) :
    decide (a.firstLine ≤ c.firstLine) = true := by
  simp only [decide_eq_true_eq] at hab hbc ⊢
  omega

theorem firstLine_total (a b : Draft) :
    (decide (a.firstLine ≤ b.firstLine) || decide (b.firstLine ≤ a.firstLine)) = true := by
  simp only [Bool.or_eq_true, decide_eq_true_eq]
  omega

theorem pairwise_finish (g : Grouping) :
    g.finish.Pairwise fun a b => a.firstLine ≤ b.firstLine := by
  rw [finish_eq]
  exact (List.pairwise_mergeSort firstLine_trans firstLine_total _).imp (by simp)

theorem sublist_finish {g : Grouping}
    (sorted : g.drafts.Pairwise fun a b => a.firstLine ≤ b.firstLine) :
    g.drafts.Sublist g.finish := by
  rw [finish_eq]
  exact List.sublist_mergeSort firstLine_trans firstLine_total (sorted.imp (by simp))
    (List.sublist_append_left _ _)

theorem flatMap_actions_checkDrafts (g : Grouping) :
    g.checkDrafts.flatMap Draft.actions = [] := by
  apply List.flatMap_eq_nil_iff.mpr
  intro d hd
  obtain ⟨entry, -, rfl⟩ := List.mem_map.mp hd
  apply List.filterMap_eq_nil_iff.mpr
  intro i hi
  obtain ⟨a, -, rfl⟩ := List.mem_map.mp hi
  rfl

/-- The actions of sorted drafts stay as they are: sorting keeps the drafts in order and adds only
drafts without actions between them. -/
theorem flatMap_actions_finish {g : Grouping}
    (sorted : g.drafts.Pairwise fun a b => a.firstLine ≤ b.firstLine) :
    g.finish.flatMap Draft.actions = g.drafts.flatMap Draft.actions := by
  have sub := (sublist_finish sorted).flatMap Draft.actions
  have same := (g.perm_finish.flatMap_right Draft.actions).length_eq
  rw [List.flatMap_append, flatMap_actions_checkDrafts, List.append_nil] at same
  exact (sub.eq_of_length same.symm).symm

end Grouping

namespace Draft

variable (options : MethodOptions) (usages : List (Nat × Nat)) {items : List Item}

theorem sound_ofItems (items : List Item) :
    (items.foldl (Grouping.add options usages) {}).Sound usages items :=
  Grouping.sound_start.sound_foldl options items

theorem mem_drafts_or_checkDrafts {d : Draft} (h : d ∈ ofItems options usages items) :
    d ∈ (items.foldl (Grouping.add options usages) {}).drafts ∨
      d ∈ (items.foldl (Grouping.add options usages) {}).checkDrafts :=
  List.mem_append.mp ((Grouping.perm_finish _).mem_iff.mp h)

theorem mem_ofItems {d : Draft} (h : d ∈ ofItems options usages items) :
    d.Sound usages ∧ (∀ i ∈ d.items, i ∈ items) ∨
      d.kind = .verification ∧ d.component = none ∧ d.items ≠ [] ∧
        ∀ i ∈ d.items, ∃ a, i = .assertion a ∧ i ∈ items := by
  have sound := sound_ofItems options usages items
  rcases mem_drafts_or_checkDrafts options usages h with h | h
  · refine .inl ⟨sound.each d h, fun i hi => ?_⟩
    exact sound.inOrder.subset (List.mem_flatMap.mpr ⟨d, h, hi⟩)
  · obtain ⟨entry, he, rfl⟩ := List.mem_map.mp h
    obtain ⟨filled, seen⟩ := sound.checked entry he
    refine .inr ⟨rfl, rfl, by simpa using filled, ?_⟩
    intro i hi
    obtain ⟨a, ha, rfl⟩ := List.mem_map.mp hi
    exact ⟨a, rfl, seen a ha⟩

theorem items_ne_nil_of_mem_ofItems {d : Draft} (h : d ∈ ofItems options usages items) :
    d.items ≠ [] := by
  rcases mem_ofItems options usages h with ⟨sound, -⟩ | ⟨-, -, filled, -⟩
  · exact sound.filled
  · exact filled

theorem mem_of_mem_ofItems {d : Draft} (h : d ∈ ofItems options usages items) {i : Item}
    (hi : i ∈ d.items) : i ∈ items := by
  rcases mem_ofItems options usages h with ⟨-, seen⟩ | ⟨-, -, -, seen⟩
  · exact seen i hi
  · obtain ⟨a, -, ha⟩ := seen i hi
    exact ha

theorem flatMap_actions_ofItems (lines : LinesIncrease items) :
    (ofItems options usages items).flatMap Draft.actions = items.filterMap Item.action? := by
  have sound := sound_ofItems options usages items
  have sorted := pairwise_firstLine sound.inOrder lines fun d hd => (sound.each d hd).filled
  rw [ofItems, Grouping.flatMap_actions_finish sorted, sound.actions]

end Draft

/-- The methods that are built are those of the drafts, in order. -/
theorem forall₂_buildMethods {owner : Owner} {book : NameBook} {drafts : List Draft}
    {methods : List Method} {warnings : List Warning}
    (h : buildMethods owner book drafts = .ok (methods, warnings)) :
    List.Forall₂ (fun d m => ∃ naming, m = d.toMethod owner.id naming owner.page owner.next)
      drafts methods := by
  induction drafts generalizing book methods warnings with
  | nil =>
    cases Except.ok.inj h
    exact .nil
  | cons d rest ih =>
    obtain ⟨⟨naming, next⟩, -, h⟩ := exists_ok_of_bind h
    obtain ⟨⟨others, more⟩, hr, h⟩ := exists_ok_of_bind h
    cases Except.ok.inj h
    exact .cons ⟨naming, rfl⟩ (ih hr)

theorem map_buildMethods {α : Type} {owner : Owner} {book : NameBook} {drafts : List Draft}
    {methods : List Method} {warnings : List Warning} {f : Draft → α} {g : Method → α}
    (h : buildMethods owner book drafts = .ok (methods, warnings))
    (same : ∀ d naming, g (d.toMethod owner.id naming owner.page owner.next) = f d) :
    methods.map g = drafts.map f := by
  have built := forall₂_buildMethods h
  clear h
  induction built with
  | nil => rfl
  | cons hm _ ih =>
    obtain ⟨naming, rfl⟩ := hm
    rw [List.map_cons, List.map_cons, same, ih]

/-- Every method of an owner comes from a draft of its items. -/
theorem exists_draft_of_mem_methodsOf {options : MethodOptions} {usages : List (Nat × Nat)}
    {owner : Owner} {items : List Item} {methods : List Method} {warnings : List Warning}
    {m : Method} (h : methodsOf options usages owner items = .ok (methods, warnings))
    (hm : m ∈ methods) : ∃ d ∈ Draft.ofItems options usages items,
      ∃ naming, m = d.toMethod owner.id naming owner.page owner.next := by
  obtain ⟨d, hd, naming, rfl⟩ := exists_left_of_mem (forall₂_buildMethods h) hm
  exact ⟨d, hd, naming, rfl⟩

/-- What makes methods a partition of actions, given by their numbers: one behind the other they
have them in order, so that each has a stretch of them, none is empty, and they are listed by their
first lines. -/
structure MethodPartition (actions : List Nat) (methods : List Method) : Prop where
  covers : methods.flatMap Method.actions = actions
  consecutive : ∀ m ∈ methods, m.actions <:+: actions
  apart : actions.Nodup → methods.Pairwise fun a b => a.actions.Disjoint b.actions
  filled : ∀ m ∈ methods, m.actions ≠ [] ∨ m.assertions ≠ []
  byFirstLine : methods.Pairwise fun a b => a.firstLine ≤ b.firstLine

/-- Items in the order of their lines have methods that partition their actions. -/
theorem methodsOf_partition {options : MethodOptions} {usages : List (Nat × Nat)} {owner : Owner}
    {items : List Item} {methods : List Method} {warnings : List Warning}
    (lines : LinesIncrease items)
    (h : methodsOf options usages owner items = .ok (methods, warnings)) :
    MethodPartition ((items.filterMap Item.action?).map fun a => a.number) methods := by
  have covers : methods.flatMap Method.actions =
      (items.filterMap Item.action?).map fun a => a.number := by
    rw [← Draft.flatMap_actions_ofItems options usages lines, List.map_flatMap,
      List.flatMap_def, List.flatMap_def, map_buildMethods h fun _ _ => rfl]
  refine ⟨covers, ?_, ?_, ?_, ?_⟩
  · intro m hm
    rw [← covers]
    exact List.infix_of_mem_flatten (List.mem_map_of_mem hm)
  · intro distinct
    rw [← covers] at distinct
    exact (List.nodup_flatMap.mp distinct).2
  · intro m hm
    obtain ⟨d, hd, naming, rfl⟩ := exists_draft_of_mem_methodsOf h hm
    obtain ⟨i, rest, hi⟩ := List.exists_cons_of_ne_nil
      (Draft.items_ne_nil_of_mem_ofItems options usages hd)
    cases i with
    | action a => exact .inl (by simp [Draft.toMethod, Draft.actions, hi, Item.action?])
    | assertion a => exact .inr (by simp [Draft.toMethod, Draft.assertions, hi, Item.assertion?])
  · have sorted := Grouping.pairwise_finish (items.foldl (Grouping.add options usages) {})
    apply List.pairwise_map.mp
    rw [map_buildMethods h fun _ _ => rfl]
    exact List.pairwise_map.mpr sorted

end PageObjects
