import PageObjects.Proofs.Method.Check
import PageObjects.Proofs.Method.Holding
import PageObjects.Proofs.Report.Parts

namespace PageObjects

/-- How many items a method has. -/
def Method.size (m : Method) : Nat := m.actions.length + m.assertions.length

theorem Draft.size_toMethod (d : Draft) (owner : Id) (naming : Naming) (page next : Option Page)
    (n : Nat) :
    ({ d.toMethod owner naming page next with number := n } : Method).size = d.items.length := by
  have count := (perm_ids d.items).length_eq
  rw [List.length_append, List.length_map, List.length_map, List.length_map] at count
  rw [← count]
  show (d.actions.map Action.number).length + (d.assertions.map Assertion.number).length = _
  rw [List.length_map, List.length_map]
  rfl

/-- What holds of the size of a method, given the items of its owner. -/
structure Method.Sized (options : MethodOptions) (items : List Item) (m : Method) : Prop where
  filled : 1 ≤ m.size
  limited : m.kind ≠ .verification → m.size ≤ options.maxItems.val
  checks : m.kind = .verification → options.separateAssertions = true ∧ m.actions = [] ∧
    ∃ shape, m.assertions = (recurringChecks items shape).map Assertion.number

theorem Owner.Entry.sized {options : MethodOptions} {usages : List (Nat × Nat)}
    {owner : Owner × List Item} {entry : Id × List Method}
    (h : Owner.Entry options usages owner entry) {m : Method} (hm : m ∈ entry.2) :
    m.Sized options owner.2 := by
  obtain ⟨d, hd, naming, n, rfl⟩ := h.exists_draft hm
  refine ⟨?_, ?_, ?_⟩
  · rw [Draft.size_toMethod]
    exact List.length_pos_iff.mpr (Draft.items_ne_nil_of_mem_ofItems options usages hd)
  · intro acts
    rw [Draft.size_toMethod]
    rcases Draft.piece_or_checks hd with ⟨-, -, fits⟩ | ⟨check, -⟩
    · exact fits.short
    · exact absurd check acts
  · intro check
    rcases Draft.piece_or_checks hd with ⟨acts, -⟩ | ⟨-, apart, shape, all⟩
    · exact absurd check acts
    · have actions : d.actions = [] := by
        simp [Draft.actions, all, Item.action?]
      have assertions : d.assertions = recurringChecks owner.2 shape := by
        simp [Draft.assertions, all, Item.assertion?, List.filterMap_map, Function.comp_def]
      refine ⟨apart, congrArg (List.map Action.number) actions, shape, ?_⟩
      exact congrArg (List.map Assertion.number) assertions

theorem recurringChecks_actions (actions : List Action) (shape : Shape) :
    recurringChecks (actions.map Item.action) shape = [] := by
  simp [recurringChecks, Item.assertion?]

/-- Every method has an item and no more than the options allow, unless it belongs to a page and
only checks: then it has all assertions of some shape on this page that recur. -/
theorem analyze_sized {config : Config} {name : Option Text} {script : Text} {d : Document}
    (h : analyze config name script = .ok d) :
    (∀ p ∈ d.pages, ∀ m ∈ d.methodsOf p.id, m.Sized config.methods p.items) ∧
    ∀ c ∈ d.components, ∀ m ∈ d.methodsOf c.id,
      1 ≤ m.size ∧ m.size ≤ config.methods.maxItems.val := by
  obtain ⟨-, spans, own, shared, made⟩ := exists_madeOf h
  constructor
  · intro p hp m hm
    obtain ⟨next, entry⟩ := made.exists_pageEntry hp
    exact entry.sized hm
  · intro c hc m hm
    have sized : m.Sized config.methods (componentOwner c).2 := (made.componentEntry hc).sized hm
    refine ⟨sized.filled, sized.limited ?_⟩
    intro check
    -- a component has no assertions, so a method of it that only checks would be empty
    obtain ⟨-, actions, shape, assertions⟩ := sized.checks check
    have filled := sized.filled
    rw [componentOwner, recurringChecks_actions] at assertions
    rw [Method.size, actions, assertions] at filled
    exact absurd filled (by decide)

/-- Methods of a single item. -/
def singleItems : MethodOptions := { maxItems := ⟨1, Nat.one_pos⟩ }

/-- A check that recurs. -/
def repeatedCheck : Text :=
  "await expect(page.locator('#t')).toBeVisible();\nawait expect(page.locator('#t')).toBeVisible();"

theorem analyze_repeatedCheck : ∃ d, analyze { methods := singleItems } none repeatedCheck = .ok d ∧
    ∃ p ∈ d.pages, ∃ m ∈ d.methodsOf p.id, m.kind = .verification ∧ m.size = 2 := by
  have found : (analyze { methods := singleItems } none repeatedCheck).toOption.any (fun d =>
      d.pages.any fun p => (d.methodsOf p.id).any fun m =>
        decide (m.kind = .verification ∧ m.size = 2)) = true := by
    decide +kernel
  obtain ⟨d, h, found⟩ := exists_ok_of_any found
  simp only [List.any_eq_true, decide_eq_true_eq] at found
  exact ⟨d, h, found⟩

theorem analyze_sized_repeatedCheck :
    ∃ d, analyze { methods := singleItems } none repeatedCheck = .ok d ∧
      ∃ p ∈ d.pages, ∃ m ∈ d.methodsOf p.id, m.kind = .verification ∧
        m.Sized singleItems p.items := by
  obtain ⟨d, h, p, hp, m, hm, kind, -⟩ := analyze_repeatedCheck
  exact ⟨d, h, p, hp, m, hm, kind, (analyze_sized h).1 p hp m hm⟩

/-- A method that only checks may have more items than the options allow. -/
theorem check_exceeds_limit :
    ∃ d, analyze { methods := singleItems } none repeatedCheck = .ok d ∧
      ∃ p ∈ d.pages, ∃ m ∈ d.methodsOf p.id, singleItems.maxItems.val < m.size := by
  obtain ⟨d, h, p, hp, m, hm, -, size⟩ := analyze_repeatedCheck
  refine ⟨d, h, p, hp, m, hm, ?_⟩
  rw [size]
  decide

end PageObjects
