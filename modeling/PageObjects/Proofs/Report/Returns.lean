import PageObjects.Proofs.Method.Verification
import PageObjects.Proofs.Page.Leaving
import PageObjects.Proofs.Report.Parts

namespace PageObjects

/-- Whether an action opens a tab. -/
def Action.opensTab (a : Action) : Bool := a.statement.subtype == some .newTab

/-- Whether a page is left for another URL by an action, which waits for it on the line of the
exit. -/
def Page.LeavesBy (p : Page) (a : Action) : Prop :=
  p.exit.kind = .urlChange ∧ p.exit.line = some a.line ∧ a.verbIn ["waitForURL"] = true

/-- What the methods of a page return, given the page behind it. -/
structure Page.Returns (p : Page) (next : Option Page) (methods : List Method) : Prop where
  directly : ∀ m ∈ methods, m.returnsPage = none ∨
    ∃ q, next = some q ∧ m.returnsPage = some q.number
  causes : ∀ m ∈ methods, m.returnsPage ≠ none ↔
    next ≠ none ∧ ∃ a ∈ p.actions, a.number ∈ m.actions ∧ (a.opensTab = true ∨ p.LeavesBy a)
  leaves : p.exit.kind = .urlChange → ∃ q a m, next = some q ∧
    (a ∈ p.actions ∧ p.LeavesBy a ∧ ∀ b ∈ p.actions, p.LeavesBy b → b = a) ∧
    (methods.filter fun m => decide (a.number ∈ m.actions)) = [m] ∧
    m.returnsPage = some q.number ∧
    ∀ other ∈ methods, other ≠ m → other.returnsPage ≠ none →
      ∃ b ∈ p.actions, b.number ∈ other.actions ∧ b.opensTab = true

theorem Draft.returnsPage?_eq_some_iff {d : Draft} {p : Page} {next : Option Page} {n : Nat} :
    d.returnsPage? (some p) next = some n ↔
      (∃ q, next = some q ∧ q.number = n) ∧
        ∃ a ∈ d.actions, a.opensTab = true ∨ p.LeavesBy a := by
  have meets : ∀ a : Action, (some a.line == if p.exit.kind = .urlChange then p.exit.line else none)
      = true ↔ p.exit.kind = .urlChange ∧ p.exit.line = some a.line := by
    intro a
    by_cases left : p.exit.kind = .urlChange
    · rw [if_pos left, beq_iff_eq, eq_comm]
      exact (and_iff_right left).symm
    · rw [if_neg left]
      exact ⟨fun h => (by cases h), fun h => absurd h.1 left⟩
  have leaves : ∀ a : Action, (a.statement.subtype == some .newTab ||
      (a.verbIn ["waitForURL"] && some a.line ==
        if p.exit.kind = .urlChange then p.exit.line else none)) = true ↔
      a.opensTab = true ∨ p.LeavesBy a := by
    intro a
    rw [Bool.or_eq_true, Bool.and_eq_true, meets, and_comm, and_assoc]
    rfl
  cases next with
  | none => simp [returnsPage?]
  | some q =>
    simp only [returnsPage?, Option.ite_none_right_eq_some, List.any_eq_true, leaves,
      Option.some.injEq, exists_eq_left']
    exact and_comm

theorem eq_of_action_line {p : Page} (lines : LinesIncrease p.items) {a b : Action}
    (ha : a ∈ p.actions) (hb : b ∈ p.actions) (same : a.line = b.line) : a = b := by
  have increase : (p.actions.map Item.action).Pairwise fun i j => i.line < j.line :=
    lines.filterMap_action?
  have distinct : (p.actions.map Action.line).Nodup :=
    List.pairwise_map.mpr ((List.pairwise_map.mp increase).imp Nat.ne_of_lt)
  exact List.inj_on_of_nodup_map distinct ha hb same

section Entry

variable {options : MethodOptions} {usages : List (Nat × Nat)} {p : Page} {next : Option Page}
  {entry : Id × List Method}

/-- A method of a page returns the page behind it if it holds an action that leads there. -/
theorem Owner.Entry.returnsPage_iff (distinct : (p.actions.map Action.number).Nodup)
    (h : Owner.Entry options usages (p.owner next, p.items) entry) {m : Method} (hm : m ∈ entry.2)
    (n : Nat) : m.returnsPage = some n ↔ (∃ q, next = some q ∧ q.number = n) ∧
      ∃ a ∈ p.actions, a.number ∈ m.actions ∧ (a.opensTab = true ∨ p.LeavesBy a) := by
  obtain ⟨d, hd, naming, k, rfl⟩ := h.exists_draft hm
  have own : ∀ a ∈ d.actions, a ∈ p.actions := by
    intro a ha
    have inside := Draft.mem_of_mem_ofItems options usages hd (Draft.mem_actions.mp ha)
    exact List.mem_filterMap.mpr ⟨_, inside, rfl⟩
  have returns : d.returnsPage? (some p) next = some n ↔ _ := Draft.returnsPage?_eq_some_iff
  refine returns.trans (and_congr_right fun _ => ⟨?_, ?_⟩)
  · rintro ⟨a, ha, leads⟩
    exact ⟨a, own a ha, List.mem_map_of_mem ha, leads⟩
  · rintro ⟨a, ha, held, leads⟩
    obtain ⟨b, hb, same⟩ := List.mem_map.mp held
    obtain rfl := List.inj_on_of_nodup_map distinct (own b hb) ha same
    exact ⟨b, hb, leads⟩

theorem Owner.Entry.returns (h : Owner.Entry options usages (p.owner next, p.items) entry)
    (lines : LinesIncrease p.items) (distinct : (p.actions.map Action.number).Nodup)
    (left : p.exit.kind = .urlChange → (∃ q, next = some q) ∧ ∃ a ∈ p.actions, p.LeavesBy a) :
    p.Returns next entry.2 := by
  have directly : ∀ m ∈ entry.2, m.returnsPage = none ∨
      ∃ q, next = some q ∧ m.returnsPage = some q.number := by
    intro m hm
    cases returned : m.returnsPage with
    | none => exact .inl rfl
    | some n =>
      obtain ⟨⟨q, hq, rfl⟩, -⟩ := (h.returnsPage_iff distinct hm n).mp returned
      exact .inr ⟨q, hq, rfl⟩
  have causes : ∀ m ∈ entry.2, m.returnsPage ≠ none ↔
      next ≠ none ∧ ∃ a ∈ p.actions, a.number ∈ m.actions ∧ (a.opensTab = true ∨ p.LeavesBy a) := by
    intro m hm
    constructor
    · intro returned
      obtain ⟨n, hn⟩ := Option.ne_none_iff_exists'.mp returned
      obtain ⟨⟨q, hq, -⟩, leads⟩ := (h.returnsPage_iff distinct hm n).mp hn
      exact ⟨Option.ne_none_iff_exists'.mpr ⟨q, hq⟩, leads⟩
    · rintro ⟨follows, leads⟩
      obtain ⟨q, hq⟩ := Option.ne_none_iff_exists'.mp follows
      rw [(h.returnsPage_iff distinct hm q.number).mpr ⟨⟨q, hq, rfl⟩, leads⟩]
      exact nofun
  refine ⟨directly, causes, fun changes => ?_⟩
  obtain ⟨⟨q, hq⟩, a, ha, leaves⟩ := left changes
  have all : entry.2.flatMap Method.actions = p.actions.map Action.number := h.flatMap_actions lines
  obtain ⟨m, only⟩ := exists_filter_eq_singleton (l := entry.2) (f := Method.actions)
    (b := a.number) (all ▸ distinct) (all ▸ List.mem_map_of_mem ha)
  have holds := mem_iff_of_filter_eq_singleton only
  have holder : m ∈ entry.2 ∧ a.number ∈ m.actions := by
    simpa using (holds m).mpr rfl
  -- there is one action on the line of the exit
  have sole : ∀ b ∈ p.actions, p.LeavesBy b → b = a := by
    intro b hb exits
    have sameLine : b.line = a.line := Option.some.inj (exits.2.1.symm.trans leaves.2.1)
    exact eq_of_action_line lines hb ha sameLine
  refine ⟨q, a, m, hq, ⟨ha, leaves, sole⟩, only, ?_, ?_⟩
  · exact (h.returnsPage_iff distinct holder.1 q.number).mpr
      ⟨⟨q, hq, rfl⟩, a, ha, holder.2, .inr leaves⟩
  · intro other ho different returned
    obtain ⟨-, b, hb, held, tab | exits⟩ := (causes other ho).mp returned
    · exact ⟨b, hb, held, tab⟩
    · obtain rfl := sole b hb exits
      exact absurd ((holds other).mp ⟨ho, decide_eq_true held⟩) different

end Entry

namespace Document.MadeOf

variable {config : Config} {d : Document} {spans : List PageSpan}
  {own shared : List (Id × List Method)}

theorem nodup_actionNumbers (h : d.MadeOf config spans own shared) {p : Page} (hp : p ∈ d.pages) :
    (p.actions.map Action.number).Nodup := by
  have all : ((d.pages.flatMap Page.actions).map Action.number).Nodup := by
    rw [h.binds.actionNumbers]
    exact List.nodup_range'
  have inside : p.actions.Sublist (d.pages.flatMap Page.actions) :=
    (List.infix_of_mem_flatten (List.mem_map_of_mem hp)).sublist
  exact all.sublist (inside.map Action.number)

/-- The wait with which a page is left is one of its actions. -/
theorem exists_leavesBy (h : d.MadeOf config spans own shared) {p : Page} (hp : p ∈ d.pages)
    (changes : p.exit.kind = .urlChange) : ∃ a ∈ p.actions, p.LeavesBy a := by
  have span : p.toPageSpan ∈ spans := by
    rw [← h.binds.spans]
    exact List.mem_map_of_mem hp
  obtain ⟨s, last, awaits, line⟩ := PageSpan.leftByWait_of_mem_ofStatements h.found _ span changes
  obtain ⟨wait, verb⟩ := Bool.and_eq_true_iff.mp awaits
  have deed : s.isDeed = true := by
    simp [Content.isDeed, Content.isStructural, beq_iff_eq.mp wait]
  have bound : s ∈ p.actions.map Action.statement := by
    rw [h.binds.actions p hp]
    exact List.mem_filter.mpr ⟨List.mem_of_getLast? last, deed⟩
  obtain ⟨a, ha, rfl⟩ := List.mem_map.mp bound
  exact ⟨a, ha, changes, line, verb⟩

/-- The last page is left at the end of the input. -/
theorem exists_next (h : d.MadeOf config spans own shared)
    (deed : ∃ s ∈ d.statements, s.isStructural = false) {k : Nat} {p : Page}
    (hp : d.pages[k]? = some p) (changes : p.exit.kind = .urlChange) :
    ∃ q, d.pages[k + 1]? = some q := by
  by_contra noNext
  have partition := PageSpan.pagePartition_ofStatements deed h.found
  rw [← h.binds.spans, List.map_map] at partition
  obtain ⟨hk, -⟩ := List.getElem?_eq_some_iff.mp hp
  have ends : d.pages.length ≤ k + 1 := by
    rw [← List.getElem?_eq_none_iff]
    exact Option.eq_none_iff_forall_ne_some.mpr fun q hq => noNext ⟨q, hq⟩
  have last : d.pages.getLast? = some p := by
    rw [List.getLast?_eq_getElem?, ← hp]
    congr 1
    omega
  obtain ⟨q, hq, exit⟩ := partition.last
  rw [List.getLast?_map, last] at hq
  cases Option.some.inj hq
  have kind : p.exit.kind = .endOfInput := congrArg Boundary.kind exit
  rw [changes] at kind
  cases kind

end Document.MadeOf

/-- A method of a page returns the page behind its owner or none. It returns that page exactly if it
opens a tab or leaves the page by waiting for another URL, which is what one method of each page
does that is left so. -/
theorem analyze_returns {config : Config} {name : Option Text} {script : Text} {d : Document}
    (h : analyze config name script = .ok d) :
    (∀ (k : Nat) (p : Page), d.pages[k]? = some p → p.Returns d.pages[k + 1]? (d.methodsOf p.id)) ∧
    (∀ p, d.pages.getLast? = some p → ∀ m ∈ d.methodsOf p.id, m.returnsPage = none) ∧
    ∀ c ∈ d.components, ∀ m ∈ d.methodsOf c.id, m.returnsPage = none := by
  obtain ⟨extracted, spans, own, shared, made⟩ := exists_madeOf h
  have deed := (extract_ordered extracted).2
  have paged := made.paged extracted
  have returns : ∀ (k : Nat) (p : Page), d.pages[k]? = some p →
      p.Returns d.pages[k + 1]? (d.methodsOf p.id) := by
    intro k p hk
    have hp : p ∈ d.pages := List.mem_of_getElem? hk
    exact (made.pageEntry hk).returns (paged.linesIncrease hp (made.binds.all p hp))
      (made.nodup_actionNumbers hp) fun changes =>
        ⟨made.exists_next deed hk changes, made.exists_leavesBy hp changes⟩
  refine ⟨returns, ?_, ?_⟩
  · intro p last m hm
    rw [List.getLast?_eq_getElem?] at last
    obtain ⟨hk, -⟩ := List.getElem?_eq_some_iff.mp last
    rcases (returns _ p last).directly m hm with nothing | ⟨q, hq, -⟩
    · exact nothing
    · obtain ⟨beyond, -⟩ := List.getElem?_eq_some_iff.mp hq
      omega
  · intro c hc m hm
    obtain ⟨e, he, naming, n, rfl⟩ := (made.componentEntry hc).exists_draft hm
    rfl

/-- A form that leads to another page, and a click there. -/
def signedIn : Text :=
  "await page.fill('#name', 'Ann');\nawait page.click('#go');\nawait page.waitForURL('/home');\n" ++
    "await page.click('#out');"

theorem analyze_returns_signedIn :
    ∃ d, analyze {} none signedIn = .ok d ∧
      (d.pages.map fun p => (d.methodsOf p.id).map fun m => (m.actions, m.returnsPage)) =
        [[([1, 2, 3], some 2)], [([4], none)]] ∧
      ∀ (k : Nat) (p : Page), d.pages[k]? = some p →
        p.Returns d.pages[k + 1]? (d.methodsOf p.id) := by
  have found : (analyze {} none signedIn).toOption.any (fun d =>
      (d.pages.map fun p => (d.methodsOf p.id).map fun m => (m.actions, m.returnsPage)) ==
        [[([1, 2, 3], some 2)], [([4], none)]]) = true := by
    decide +kernel
  obtain ⟨d, h, found⟩ := exists_ok_of_any found
  exact ⟨d, h, beq_iff_eq.mp found, (analyze_returns h).1⟩

end PageObjects
