import PageObjects.Proofs.Component.Soundness
import PageObjects.Proofs.Method.Owner

namespace PageObjects

namespace LinesIncrease

variable {items piece : List Item}

/-- A piece has all items between two of its own. -/
theorem mem_of_between (h : LinesIncrease items) (inside : piece <:+: items) {i j k : Item}
    (hi : i ∈ piece) (hk : k ∈ piece) (hj : j ∈ items) (low : i.line ≤ j.line)
    (high : j.line ≤ k.line) : j ∈ piece := by
  obtain ⟨before, behind, rfl⟩ := inside
  obtain ⟨-, -, later⟩ := List.pairwise_append.mp h
  obtain ⟨-, -, sooner⟩ := List.pairwise_append.mp (List.pairwise_append.mp h).1
  rcases List.mem_append.mp hj with hj | hj
  · rcases List.mem_append.mp hj with hj | hj
    · have := sooner j hj i hi
      omega
    · exact hj
  · have := later k (List.mem_append_right _ hk) j hj
    omega

theorem filter_le_append (h : LinesIncrease items) (n : Nat) :
    items.filter (fun i => i.line ≤ n) ++ items.filter (fun i => n < i.line) = items := by
  induction items with
  | nil => rfl
  | cons i rest ih =>
    obtain ⟨first, increase⟩ := List.pairwise_cons.mp h
    by_cases low : i.line ≤ n
    · rw [List.filter_cons_of_pos (by simpa using low),
        List.filter_cons_of_neg (by simpa using low), List.cons_append, ih increase]
    · have later : rest.filter (fun i => i.line ≤ n) = [] := by
        refine List.filter_eq_nil_iff.mpr ?_
        intro j hj
        have := first j hj
        simp only [decide_eq_true_eq]
        omega
      have all : rest.filter (fun i => n < i.line) = rest := by
        refine List.filter_eq_self.mpr ?_
        intro j hj
        have := first j hj
        simp only [decide_eq_true_eq]
        omega
      rw [List.filter_cons_of_neg (by simpa using low),
        List.filter_cons_of_pos (by simpa using low), later, all, List.nil_append]

/-- What is in the lines from one item on starts with this item. -/
theorem filter_between {before later : List Item} {i : Item}
    (h : LinesIncrease (before ++ i :: later)) {n : Nat} (hi : i.line ≤ n) :
    (before ++ i :: later).filter (fun j => i.line ≤ j.line && j.line ≤ n) =
      i :: later.filter fun j => j.line ≤ n := by
  obtain ⟨-, increase, sooner⟩ := List.pairwise_append.mp h
  have after : ∀ j ∈ later, i.line < j.line := (List.pairwise_cons.mp increase).1
  have front : before.filter (fun j => i.line ≤ j.line && j.line ≤ n) = [] := by
    refine List.filter_eq_nil_iff.mpr ?_
    intro j hj
    have := sooner j hj i List.mem_cons_self
    simp only [Bool.and_eq_true, decide_eq_true_eq]
    omega
  have tail : later.filter (fun j => i.line ≤ j.line && j.line ≤ n) =
      later.filter fun j => j.line ≤ n := by
    refine List.filter_congr ?_
    intro j hj
    simp [Nat.le_of_lt (after j hj)]
  rw [List.filter_append, front, List.nil_append, List.filter_cons_of_pos (by simp [hi]), tail]

theorem filterMap_action? (h : LinesIncrease items) :
    LinesIncrease ((items.filterMap Item.action?).map Item.action) :=
  h.sublist (sublist_map_action items)

end LinesIncrease

/-- The line of the last action. -/
def Occurrence.lastLine (o : Occurrence) : Nat := (o.actions.getLast?.map (·.line)).getD 0

/-- The items of a page from the first action of an occurrence to the last. -/
def Page.stretchOf (p : Page) (o : Occurrence) : List Item :=
  p.items.filter fun i => o.firstLine ≤ i.line && i.line ≤ o.lastLine

theorem Page.mem_stretchOf {p : Page} {o : Occurrence} {i : Item} :
    i ∈ p.stretchOf o ↔ i ∈ p.items ∧ o.firstLine ≤ i.line ∧ i.line ≤ o.lastLine := by
  simp [stretchOf]

namespace Occurrence.IsOn

variable {o : Occurrence} {p : Page}

theorem mem_items (h : o.IsOn p) {a : Action} (ha : a ∈ o.actions) : Item.action a ∈ p.items :=
  (sublist_map_action p.items).subset (List.mem_map_of_mem (h.sublist_actions.subset ha))

/-- The first and the last action, with the lines of all others between theirs. -/
theorem exists_ends (h : o.IsOn p) (lines : LinesIncrease p.items) :
    ∃ first ∈ o.actions, ∃ last ∈ o.actions, o.firstLine = first.line ∧ o.lastLine = last.line ∧
      ∀ a ∈ o.actions, first.line ≤ a.line ∧ a.line ≤ last.line := by
  have increase := List.pairwise_map.mp (h.items lines).1
  obtain ⟨first, tail, hf⟩ := List.exists_cons_of_ne_nil h.filled
  obtain ⟨last, hl⟩ : ∃ last, o.actions.getLast? = some last := by
    simp [List.getLast?_eq_some_getLast h.filled]
  obtain ⟨front, hfront⟩ := List.getLast?_eq_some_iff.mp hl
  have firstIn : first ∈ o.actions := by simp [hf]
  have lastIn : last ∈ o.actions := by simp [hfront]
  refine ⟨first, firstIn, last, lastIn, by simp [firstLine, hf], by simp [lastLine, hl], ?_⟩
  intro a ha
  constructor
  · rw [hf] at increase ha
    rcases List.mem_cons.mp ha with rfl | ha
    · exact Nat.le_refl _
    · exact Nat.le_of_lt ((List.pairwise_cons.mp increase).1 a ha)
  · rw [hfront] at increase ha
    rcases List.mem_append.mp ha with ha | ha
    · exact Nat.le_of_lt
        ((List.pairwise_append.mp increase).2.2 a ha last (List.mem_singleton_self last))
    · rw [List.mem_singleton.mp ha]

theorem mem_stretchOf (h : o.IsOn p) (lines : LinesIncrease p.items) {a : Action}
    (ha : a ∈ o.actions) : Item.action a ∈ p.stretchOf o := by
  obtain ⟨first, -, last, -, hf, hl, between⟩ := h.exists_ends lines
  rw [Page.mem_stretchOf, hf, hl]
  exact ⟨h.mem_items ha, between a ha⟩

/-- Between the actions of an occurrence a page has no other actions than waits. -/
theorem mem_or_isTransparent_of_mem_stretchOf (h : o.IsOn p) (lines : LinesIncrease p.items)
    {a : Action} (ha : Item.action a ∈ p.stretchOf o) : a ∈ o.actions ∨ a.isTransparent = true := by
  obtain ⟨first, hfirst, last, hlast, hf, hl, -⟩ := h.exists_ends lines
  obtain ⟨block, inside, unbroken, kept⟩ := h.hasBlock
  obtain ⟨there, low, high⟩ := Page.mem_stretchOf.mp ha
  rw [hf] at low
  rw [hl] at high
  have inBlock : ∀ b ∈ o.actions, Item.action b ∈ block.map Item.action := by
    intro b hb
    rw [kept] at hb
    exact List.mem_map_of_mem (List.mem_filter.mp hb).1
  have acts : Item.action a ∈ p.actions.map Item.action :=
    List.mem_map_of_mem (List.mem_filterMap.mpr ⟨_, there, rfl⟩)
  have own : Item.action a ∈ block.map Item.action := lines.filterMap_action?.mem_of_between
    (inside.map Item.action) (inBlock first hfirst) (inBlock last hlast) acts low high
  obtain ⟨b, hb, same⟩ := List.mem_map.mp own
  cases Item.action.inj same
  rcases unbroken a hb with item | wait
  · rw [kept]
    exact .inl (List.mem_filter.mpr ⟨hb, item⟩)
  · exact .inr wait

/-- The stretch of an occurrence starts with its first action, and divides the items of its page. -/
theorem exists_stretchOf_eq_cons (h : o.IsOn p) (lines : LinesIncrease p.items) :
    ∃ first ∈ o.actions, ∃ before rest behind,
      p.items = before ++ Item.action first :: rest ++ behind ∧
      p.stretchOf o = Item.action first :: rest ∧ ∀ i ∈ before, i.line < o.firstLine := by
  obtain ⟨first, hfirst, last, -, hf, hl, ends⟩ := h.exists_ends lines
  obtain ⟨before, later, whole⟩ := List.append_of_mem (h.mem_items hfirst)
  rw [whole] at lines
  obtain ⟨-, increase, sooner⟩ := List.pairwise_append.mp lines
  have rising : LinesIncrease later := (List.pairwise_cons.mp increase).2
  refine ⟨first, hfirst, before, later.filter fun i => i.line ≤ last.line,
    later.filter fun i => last.line < i.line, ?_, ?_, ?_⟩
  · rw [List.append_assoc, List.cons_append, rising.filter_le_append, whole]
  · rw [Page.stretchOf, whole, hf, hl]
    exact lines.filter_between (ends first hfirst).2
  · intro i hi
    rw [hf]
    exact sooner i hi _ List.mem_cons_self

end Occurrence.IsOn

/-- No two instances of a component are on one page. -/
theorem ComponentDraft.Sound.eq_of_page {options : ComponentOptions} {pages : List Page}
    {d : ComponentDraft} (h : d.Sound options pages) {o o' : Occurrence} (ho : o ∈ d.instances)
    (ho' : o' ∈ d.instances) (same : o.page = o'.page) : o = o' := by
  cases provisional : d.isProvisional with
  | false => exact List.inj_on_of_nodup_map (h.recurs provisional).apart ho ho' same
  | true =>
    obtain ⟨-, only, one, -⟩ := h.provisional provisional
    rw [one] at ho ho'
    rw [List.mem_singleton.mp ho, List.mem_singleton.mp ho']

/-- The number of an action tells the action and its page. -/
theorem PagesApart.eq_of_number {pages : List Page} (h : PagesApart pages) {p q : Page}
    (hp : p ∈ pages) (hq : q ∈ pages) {a b : Action} (ha : a ∈ p.actions) (hb : b ∈ q.actions)
    (same : a.number = b.number) : a = b ∧ p = q := by
  have equal : a = b := List.inj_on_of_nodup_map h.actions
    (List.mem_flatMap.mpr ⟨p, hp, ha⟩) (List.mem_flatMap.mpr ⟨q, hq, hb⟩) same
  refine ⟨equal, ?_⟩
  subst equal
  have apart := (List.nodup_flatMap.mp h.actions.of_map).2
  have symm : Std.Symm (Function.onFun List.Disjoint Page.actions) :=
    ⟨fun _ _ disjoint _ ha hb => disjoint hb ha⟩
  by_contra different
  exact apart.forall hp hq different ha hb

/-- An action that is left to a component is one of its instance on the page. -/
theorem ComponentFindings.Sound.exists_instance {options : ComponentOptions} {pages : List Page}
    {found : ComponentFindings} (h : found.Sound options pages) (apart : PagesApart pages)
    {p : Page} (hp : p ∈ pages) {a : Action} (ha : a ∈ p.actions) {k : Nat}
    (left : valueAt? a.number (usages found.components) = some k) :
    ∃ c ∈ found.components, c.number = k ∧ ∃ o ∈ c.instances, o.page = p.number ∧ o.IsOn p ∧
      a ∈ o.actions := by
  obtain ⟨c, hc, number, hn⟩ := (h.owned a.number k).mp left
  obtain ⟨o, ho, hn⟩ := List.mem_flatMap.mp hn
  obtain ⟨b, hb, same⟩ := List.mem_map.mp hn
  obtain ⟨q, hq, on, -⟩ := (h.sound c hc).occurs o ho
  obtain ⟨rfl, rfl⟩ := apart.eq_of_number hq hp (on.sublist_actions.subset hb) ha same
  exact ⟨c, hc, number, o, ho, on.page, on, hb⟩

end PageObjects
