import PageObjects.Proofs.Method.Delegation

namespace PageObjects

/-- Whether an assertion belongs into a method of its own. -/
def Assertion.isRecurring (a : Assertion) : Bool :=
  match a.placement with
  | .separateMethod .. => true
  | _ => false

/-- The assertions of a shape that recur, in order. -/
def recurringChecks (items : List Item) (shape : Shape) : List Assertion :=
  (items.filterMap Item.assertion?).filter fun a => a.isRecurring && decide (a.shape = shape)

theorem recurringChecks_concat_action (items : List Item) (a : Action) (shape : Shape) :
    recurringChecks (items ++ [.action a]) shape = recurringChecks items shape := by
  simp [recurringChecks, Item.assertion?]

theorem recurringChecks_concat_assertion (items : List Item) (a : Assertion) (shape : Shape) :
    recurringChecks (items ++ [.assertion a]) shape = recurringChecks items shape ++
      if a.isRecurring = true ∧ a.shape = shape then [a] else [] := by
  have last : [Item.assertion a].filterMap Item.assertion? = [a] := rfl
  rw [recurringChecks, List.filterMap_append, last, List.filter_append, ← recurringChecks,
    List.filter_singleton]
  simp only [Bool.and_eq_true, decide_eq_true_eq, Bool.cond_eq_ite]

theorem recurringChecks_sublist (items : List Item) (shape : Shape) :
    ((recurringChecks items shape).map Item.assertion).Sublist items := by
  have all : ((items.filterMap Item.assertion?).map Item.assertion).Sublist items := by
    induction items with
    | nil => exact .slnil
    | cons i rest ih =>
      cases i with
      | action a => exact ih.cons _
      | assertion a => exact ih.cons_cons _
  exact (List.filter_sublist.map Item.assertion).trans all

namespace Grouping

variable {options : MethodOptions} {usages : List (Nat × Nat)} {done : List Item} {g : Grouping}

theorem checks_append (item : Item) : (g.append options item).checks = g.checks := by
  unfold append
  split <;> rfl

/-- An assertion is noted if it is kept apart and recurs. -/
theorem checks_add_assertion (a : Assertion) :
    (g.add options usages (.assertion a)).checks =
      if options.separateAssertions = true ∧ a.isRecurring = true then
        setEntry a.shape (((valueAt? a.shape g.checks).getD []) ++ [a]) g.checks
      else g.checks := by
  show (g.addAssertion options a).checks = _
  unfold addAssertion
  cases options.separateAssertions with
  | false => simp [checks_append]
  | true =>
    cases h : a.placement <;> simp [Assertion.isRecurring, h]

/-- What the checks that are collected are: for each shape those of the items so far that recur, or
none at all if assertions are not kept apart. -/
structure Checked (options : MethodOptions) (done : List Item) (g : Grouping) : Prop where
  together : options.separateAssertions = false → g.checks = []
  distinct : (g.checks.map Prod.fst).Nodup
  each : options.separateAssertions = true →
    ∀ shape, (valueAt? shape g.checks).getD [] = recurringChecks done shape

namespace Checked

theorem checked_nothing : ({} : Grouping).Checked options [] :=
  ⟨fun _ => rfl, List.nodup_nil, fun _ _ => rfl⟩

theorem checked_add_action (h : g.Checked options done) (usages : List (Nat × Nat)) (a : Action) :
    (g.add options usages (.action a)).Checked options (done ++ [.action a]) := by
  have same : (g.add options usages (.action a)).checks = g.checks := (takes_add_action a).2
  refine ⟨?_, ?_, ?_⟩
  · rw [same]
    exact h.together
  · rw [same]
    exact h.distinct
  · intro apart shape
    rw [same, recurringChecks_concat_action]
    exact h.each apart shape

theorem checked_add_assertion (h : g.Checked options done) (usages : List (Nat × Nat))
    (a : Assertion) :
    (g.add options usages (.assertion a)).Checked options (done ++ [.assertion a]) := by
  refine ⟨?_, ?_, ?_⟩
  · intro together
    rw [checks_add_assertion, if_neg (by simp [together])]
    exact h.together together
  · rw [checks_add_assertion]
    split
    next => exact nodup_keys_setEntry h.distinct
    next => exact h.distinct
  · intro apart shape
    rw [checks_add_assertion, recurringChecks_concat_assertion]
    by_cases recurs : a.isRecurring = true
    · rw [if_pos ⟨apart, recurs⟩, valueAt?_setEntry]
      by_cases same : a.shape = shape
      · rw [if_pos same, if_pos ⟨recurs, same⟩, Option.getD_some, same, h.each apart]
      · rw [if_neg same, if_neg fun both => same both.2, List.append_nil, h.each apart]
    · rw [if_neg fun both => recurs both.2, if_neg fun both => recurs both.1, List.append_nil,
        h.each apart]

theorem checked_foldl (h : g.Checked options done) (usages : List (Nat × Nat)) (items : List Item) :
    (items.foldl (Grouping.add options usages) g).Checked options (done ++ items) := by
  induction items generalizing g done with
  | nil => rwa [List.append_nil]
  | cons item rest ih =>
    have step : (g.add options usages item).Checked options (done ++ [item]) := by
      cases item with
      | action a => exact h.checked_add_action usages a
      | assertion a => exact h.checked_add_assertion usages a
    have run := ih step
    rwa [List.append_assoc] at run

end Checked

end Grouping

/-- A draft is an unbroken piece of the items that fits the options, or it has the assertions of a
shape that recur. -/
theorem Draft.piece_or_checks {options : MethodOptions} {usages : List (Nat × Nat)}
    {items : List Item} {d : Draft} (h : d ∈ ofItems options usages items) :
    (d.kind ≠ .verification ∧ d.items <:+: items ∧ options.Fits d.items) ∨
      (d.kind = .verification ∧ options.separateAssertions = true ∧
        ∃ shape, d.items = (recurringChecks items shape).map Item.assertion) := by
  have checked : (items.foldl (Grouping.add options usages) {}).Checked options items :=
    Grouping.Checked.checked_nothing.checked_foldl usages items
  rcases mem_drafts_or_checkDrafts options usages h with h | h
  · obtain ⟨piece, fits⟩ := (Grouping.compact_foldl .compact_nothing usages items).each d h
    exact .inl ⟨((sound_ofItems options usages items).each d h).checks, piece, fits⟩
  · obtain ⟨⟨shape, assertions⟩, he, rfl⟩ := List.mem_map.mp h
    cases apart : options.separateAssertions with
    | false =>
      rw [checked.together apart] at he
      cases he
    | true =>
      have all := checked.each apart shape
      rw [valueAt?_of_mem checked.distinct he, Option.getD_some] at all
      exact .inr ⟨rfl, rfl, shape, by rw [all]⟩

end PageObjects
