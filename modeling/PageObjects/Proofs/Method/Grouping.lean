import Mathlib.Data.List.Flatten
import PageObjects.Method.Draft
import PageObjects.Proofs.Entries

namespace PageObjects

/-- How drafts take an item, given the components that actions are left to. -/
inductive Draft.Takes (usages : List (Nat × Nat)) (item : Item) :
    List Draft → List Draft → Prop
  | opened {before : List Draft} {d : Draft} (items : d.items = [item])
      (navigates : d.kind = .navigation → ∃ a, item = .action a ∧ a.kind = .navigation)
      (checks : d.kind ≠ .verification)
      (delegates : ∀ c, d.component = some c →
        ∃ a, item = .action a ∧ valueAt? a.number usages = some c) :
      Takes usages item before (before ++ [d])
  | extended {before : List Draft} {d d' : Draft} (items : d'.items = d.items ++ [item])
      (kind : d'.kind = d.kind) (component : d'.component = d.component) :
      Takes usages item (before ++ [d]) (before ++ [d'])

/-- What holds of every draft that is not a check. -/
structure Draft.Sound (usages : List (Nat × Nat)) (d : Draft) : Prop where
  filled : d.items ≠ []
  navigates : d.kind = .navigation →
    ∃ a, d.items.head? = some (.action a) ∧ a.kind = .navigation
  checks : d.kind ≠ .verification
  delegates : ∀ c, d.component = some c →
    ∃ a, Item.action a ∈ d.items ∧ valueAt? a.number usages = some c

namespace Draft.Takes

variable {usages : List (Nat × Nat)} {item : Item} {before after : List Draft}

theorem flatMap_items (h : Takes usages item before after) :
    (after.flatMap fun d => d.items) = (before.flatMap fun d => d.items) ++ [item] := by
  cases h with
  | opened items => simp [items]
  | extended items => simp [items]

theorem sound_of_takes (h : Takes usages item before after) (old : ∀ d ∈ before, d.Sound usages) :
    ∀ d ∈ after, d.Sound usages := by
  intro d' hd'
  cases h with
  | @opened _ d items navigates checks delegates =>
    rcases List.mem_append.mp hd' with hd' | hd'
    · exact old d' hd'
    · obtain rfl := List.mem_singleton.mp hd'
      refine ⟨by simp [items], ?_, checks, ?_⟩
      · intro hk
        obtain ⟨a, ha, hn⟩ := navigates hk
        exact ⟨a, by simp [items, ha], hn⟩
      · intro c hc
        obtain ⟨a, ha, hn⟩ := delegates c hc
        exact ⟨a, by simp [items, ha], hn⟩
  | @extended before d _ items kind component =>
    rcases List.mem_append.mp hd' with hd' | hd'
    · exact old d' (List.mem_append_left _ hd')
    · obtain rfl := List.mem_singleton.mp hd'
      obtain ⟨filled, navigates, checks, delegates⟩ := old d (by simp)
      refine ⟨by simp [items], ?_, by rwa [kind], ?_⟩
      · intro hk
        obtain ⟨a, ha, hn⟩ := navigates (kind ▸ hk)
        exact ⟨a, by rw [items, List.head?_append, ha, Option.some_or], hn⟩
      · intro c hc
        obtain ⟨a, ha, hn⟩ := delegates c (component ▸ hc)
        exact ⟨a, by rw [items]; exact List.mem_append_left _ ha, hn⟩

end Draft.Takes

/-- Whether drafts of actions may hold an item: assertions only where these are not kept apart. -/
def Item.IsGrouped (options : MethodOptions) (i : Item) : Prop :=
  options.separateAssertions = true → ∃ a, i = .action a

namespace Grouping

/-- The drafts that are not checks, the open one last. -/
def drafts (g : Grouping) : List Draft := g.closed ++ g.current.toList

@[simp] theorem drafts_close (g : Grouping) : g.close.drafts = g.drafts := by
  simp [drafts, close]

@[simp] theorem checks_close (g : Grouping) : g.close.checks = g.checks := rfl

theorem drafts_start (g : Grouping) (kind : MethodKind) (item : Item) (component : Option Nat) :
    (g.start kind item component).drafts =
      g.drafts ++ [{ kind := kind, items := [item], component := component }] := by
  simp [drafts, start, close]

/-- What an item does to a grouping: it opens a draft or joins the open one, which it may close, or
it is an assertion in no draft, before which the open one closes. -/
inductive Move (options : MethodOptions) (usages : List (Nat × Nat)) (item : Item)
    (g : Grouping) : Grouping → Prop
  | opens {kind : MethodKind} {component : Option Nat} (grouped : item.IsGrouped options)
      (navigates : kind = .navigation → ∃ a, item = .action a ∧ a.kind = .navigation)
      (checks : kind ≠ .verification)
      (delegates : ∀ c, component = some c →
        ∃ a, item = .action a ∧ valueAt? a.number usages = some c) :
      Move options usages item g (g.start kind item component)
  | joins {d d' : Draft} (grouped : item.IsGrouped options) (current : g.current = some d)
      (room : d.items.length < options.maxItems.val) (items : d'.items = d.items)
      (kind : d'.kind = d.kind) (component : d'.component = d.component) :
      Move options usages item g (g.extend d' item)
  | closes {g' : Grouping} (move : Move options usages item g g') :
      Move options usages item g g'.close
  | skips {a : Assertion} {checks : List (Shape × List Assertion)} (assertion : item = .assertion a)
      (noted : checks = g.checks ∨
        checks = setEntry a.shape (((valueAt? a.shape g.checks).getD []) ++ [a]) g.checks) :
      Move options usages item g { g.close with checks := checks }

section Move

variable {options : MethodOptions} {usages : List (Nat × Nat)} {item : Item} {g g' : Grouping}

theorem Move.move_start_actions (grouped : item.IsGrouped options) :
    Move options usages item g (g.start .actions item) :=
  .opens grouped (fun h => nomatch h) (fun h => nomatch h) (fun _ h => nomatch h)

theorem isGrouped_action (a : Action) : (Item.action a).IsGrouped options := fun _ => ⟨a, rfl⟩

theorem open?_eq_some {p : Draft → Bool} {d : Draft} (h : g.open? options p = some d) :
    g.current = some d ∧ d.items.length < options.maxItems.val ∧ p d = true := by
  obtain ⟨hc, hp⟩ := Option.filter_eq_some_iff.mp h
  exact ⟨hc, by simpa using hp⟩

theorem Move.move_extend_of_open {p : Draft → Bool} {d d' : Draft}
    (grouped : item.IsGrouped options)
    (h : g.open? options p = some d)
    (same : d'.items = d.items ∧ d'.kind = d.kind ∧ d'.component = d.component) :
    Move options usages item g (g.extend d' item) := by
  obtain ⟨current, room, -⟩ := open?_eq_some h
  exact .joins grouped current room same.1 same.2.1 same.2.2

theorem move_append (grouped : item.IsGrouped options) :
    Move options usages item g (g.append options item) := by
  unfold append
  split
  next d h => exact .move_extend_of_open grouped h ⟨rfl, rfl, rfl⟩
  next => exact .move_start_actions grouped

theorem move_addAssertion (a : Assertion) :
    Move options usages (.assertion a) g (g.addAssertion options a) := by
  unfold addAssertion
  split
  next together =>
    refine move_append ?_
    intro apart
    simp [apart] at together
  next =>
    split
    next => exact .skips rfl (.inr rfl)
    next => exact .skips rfl (.inl rfl)

theorem move_addDelegated {a : Action} {component : Nat}
    (h : valueAt? a.number usages = some component) :
    Move options usages (.action a) g (g.addDelegated options component a) := by
  unfold addDelegated
  split
  next d hd => exact .move_extend_of_open (isGrouped_action a) hd ⟨rfl, rfl, rfl⟩
  next =>
    refine .opens (isGrouped_action a) (fun h => nomatch h) (fun h => nomatch h) ?_
    intro c hc
    cases Option.some.inj hc
    exact ⟨a, rfl, h⟩

theorem move_addOwn (a : Action) :
    Move options usages (.action a) g (g.addOwn options a) := by
  have grouped : (Item.action a).IsGrouped options := isGrouped_action a
  unfold addOwn
  split
  next hk =>
    split
    next =>
      exact .closes (.opens grouped (fun _ => ⟨a, rfl, hk⟩) (fun h => nomatch h)
        (fun _ h => nomatch h))
    next => exact .move_start_actions grouped
  next =>
    dsimp only
    split
    next => exact .closes (move_append grouped)
    next => exact move_append grouped
  next =>
    split
    next => exact .move_start_actions grouped
    next d hd =>
      split
      next => exact .move_extend_of_open grouped hd ⟨rfl, rfl, rfl⟩
      next => exact .move_extend_of_open grouped hd ⟨rfl, rfl, rfl⟩
      next => exact .move_start_actions grouped

/-- Every item makes one of the moves. -/
theorem move_add (g : Grouping) (item : Item) :
    Move options usages item g (g.add options usages item) := by
  cases item with
  | assertion a => exact move_addAssertion a
  | action a =>
    simp only [add]
    split
    next component h => exact move_addDelegated h
    next => exact move_addOwn a

/-- A move either has the drafts take the item and leaves the checks, or it leaves the drafts and
notes an assertion at most. -/
theorem Move.drafts_cases (h : Move options usages item g g') :
    (Draft.Takes usages item g.drafts g'.drafts ∧ g'.checks = g.checks) ∨
    ∃ a, item = .assertion a ∧ g'.drafts = g.drafts ∧
      (g'.checks = g.checks ∨
        g'.checks = setEntry a.shape (((valueAt? a.shape g.checks).getD []) ++ [a]) g.checks) := by
  induction h with
  | opens _ navigates checks delegates =>
    rw [drafts_start]
    exact .inl ⟨.opened rfl navigates checks delegates, rfl⟩
  | @joins d d' _ current _ items kind component =>
    have before : g.drafts = g.closed ++ [d] := by simp [drafts, current]
    rw [before]
    exact .inl ⟨.extended (congrArg (· ++ [item]) items) kind component, rfl⟩
  | closes _ ih =>
    rw [drafts_close, checks_close]
    exact ih
  | @skips a checks assertion noted =>
    exact .inr ⟨a, assertion, drafts_close g, noted⟩

/-- Every action goes to a draft. -/
theorem takes_add_action (a : Action) :
    Draft.Takes usages (.action a) g.drafts (g.add options usages (.action a)).drafts ∧
      (g.add options usages (.action a)).checks = g.checks := by
  have move : Move options usages (.action a) g (g.add options usages (.action a)) := move_add g _
  rcases move.drafts_cases with taken | ⟨b, hb, -⟩
  · exact taken
  · cases hb

/-- An assertion goes to a draft, or to the checks of its shape, or nowhere. -/
theorem add_assertion_cases (a : Assertion) :
    (Draft.Takes usages (.assertion a) g.drafts (g.add options usages (.assertion a)).drafts ∧
      (g.add options usages (.assertion a)).checks = g.checks) ∨
    (g.add options usages (.assertion a)).drafts = g.drafts ∧
      ((g.add options usages (.assertion a)).checks = g.checks ∨
        (g.add options usages (.assertion a)).checks =
          setEntry a.shape (((valueAt? a.shape g.checks).getD []) ++ [a]) g.checks) := by
  have move : Move options usages (.assertion a) g (g.add options usages (.assertion a)) :=
    move_add g _
  rcases move.drafts_cases with taken | ⟨b, hb, skipped⟩
  · exact .inl taken
  · cases hb
    exact .inr skipped

end Move

end Grouping

/-- What grouping keeps: the drafts that are not checks hold items in order, among them every action
so far, and none is empty; checks are assertions that have been seen. -/
structure Grouping.Sound (usages : List (Nat × Nat)) (done : List Item) (g : Grouping) : Prop where
  inOrder : (g.drafts.flatMap fun d => d.items).Sublist done
  actions : g.drafts.flatMap Draft.actions = done.filterMap Item.action?
  each : ∀ d ∈ g.drafts, d.Sound usages
  checked : ∀ entry ∈ g.checks, entry.2 ≠ [] ∧ ∀ a ∈ entry.2, Item.assertion a ∈ done

theorem Draft.flatMap_actions (drafts : List Draft) :
    drafts.flatMap Draft.actions = (drafts.flatMap fun d => d.items).filterMap Item.action? := by
  rw [List.filterMap_flatMap]
  rfl

namespace Grouping

variable {options : MethodOptions} {usages : List (Nat × Nat)} {done : List Item} {g g' : Grouping}
  {item : Item}

theorem sound_start : ({} : Grouping).Sound usages [] where
  inOrder := by simp [drafts]
  actions := by simp [drafts]
  each := by simp [drafts]
  checked := by simp

namespace Sound

theorem sound_of_takes (h : g.Sound usages done) (ht : Draft.Takes usages item g.drafts g'.drafts)
    (checks : g'.checks = g.checks) : g'.Sound usages (done ++ [item]) := by
  refine ⟨?_, ?_, ht.sound_of_takes h.each, ?_⟩
  · rw [ht.flatMap_items]
    exact h.inOrder.append (List.Sublist.refl _)
  · rw [Draft.flatMap_actions, ht.flatMap_items, List.filterMap_append, List.filterMap_append,
      ← Draft.flatMap_actions, h.actions]
  · rw [checks]
    intro entry he
    obtain ⟨hne, hmem⟩ := h.checked entry he
    exact ⟨hne, fun a ha => List.mem_append_left _ (hmem a ha)⟩

/-- An assertion that no draft takes. -/
theorem sound_of_drafts_eq {a : Assertion} (h : g.Sound usages done) (drafts : g'.drafts = g.drafts)
    (checks : g'.checks = g.checks ∨
      g'.checks = setEntry a.shape (((valueAt? a.shape g.checks).getD []) ++ [a]) g.checks) :
    g'.Sound usages (done ++ [.assertion a]) := by
  refine ⟨?_, ?_, by rw [drafts]; exact h.each, ?_⟩
  · rw [drafts]
    exact h.inOrder.trans (List.sublist_append_left _ _)
  · rw [drafts, h.actions]
    simp [Item.action?]
  · have old : ∀ entry ∈ g.checks, entry.2 ≠ [] ∧
        ∀ b ∈ entry.2, Item.assertion b ∈ done ++ [Item.assertion a] := by
      intro entry he
      obtain ⟨hne, hmem⟩ := h.checked entry he
      exact ⟨hne, fun b hb => List.mem_append_left _ (hmem b hb)⟩
    rcases checks with checks | checks
    · rw [checks]
      exact old
    · rw [checks]
      intro entry he
      rcases eq_or_mem_of_mem_setEntry he with rfl | he
      · refine ⟨by simp, ?_⟩
        intro b hb
        rcases List.mem_append.mp hb with hb | hb
        · cases hv : valueAt? a.shape g.checks with
          | none => simp [hv] at hb
          | some assertions =>
            rw [hv, Option.getD_some] at hb
            exact (old _ (mem_of_valueAt? hv)).2 b hb
        · simp [List.mem_singleton.mp hb]
      · exact old entry he

theorem sound_add (h : g.Sound usages done) (options : MethodOptions) (item : Item) :
    (g.add options usages item).Sound usages (done ++ [item]) := by
  cases item with
  | action a =>
    exact h.sound_of_takes (takes_add_action a).1 (takes_add_action a).2
  | assertion a =>
    rcases add_assertion_cases a with ⟨ht, hc⟩ | ⟨hd, hc⟩
    · exact h.sound_of_takes ht hc
    · exact h.sound_of_drafts_eq hd hc

theorem sound_foldl (h : g.Sound usages done) (options : MethodOptions) (items : List Item) :
    (items.foldl (Grouping.add options usages) g).Sound usages (done ++ items) := by
  induction items generalizing g done with
  | nil => simpa using h
  | cons item rest ih => simpa using ih (h.sound_add options item)

end Sound

end Grouping

end PageObjects
