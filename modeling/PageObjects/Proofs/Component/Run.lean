import Mathlib.Data.List.Flatten
import Mathlib.Data.List.Infix
import PageObjects.Component.Selection

namespace PageObjects

theorem mem_nonEmptyList {α : Type} {x l : List α} (h : x ∈ nonEmptyList l) : x = l ∧ l ≠ [] := by
  cases l with
  | nil => simp [nonEmptyList] at h
  | cons a rest => simpa [nonEmptyList] using h

theorem flatten_nonEmptyList {α : Type} (l : List α) : (nonEmptyList l).flatten = l := by
  cases l with
  | nil => rfl
  | cons a rest => simp [nonEmptyList]

theorem sublist_flatten_runsFrom (cur actions : List Action) :
    (runsFrom cur actions).flatten.Sublist (cur ++ actions) := by
  induction actions generalizing cur with
  | nil => rw [runsFrom, flatten_nonEmptyList, List.append_nil]
  | cons a rest ih =>
    rw [runsFrom]
    split
    next => simpa using ih (cur ++ [a])
    next =>
      have skipped : (cur ++ rest).Sublist (cur ++ a :: rest) :=
        (List.sublist_cons_self a rest).append_left cur
      split
      next => exact (ih cur).trans skipped
      next =>
        rw [List.flatten_append, flatten_nonEmptyList]
        exact ((ih []).append_left cur).trans skipped

theorem sublist_flatten_stretchesFrom {α : Type} (p : α → Bool) (stretch l : List α) :
    (stretchesFrom p stretch l).flatten.Sublist (stretch ++ l) := by
  induction l generalizing stretch with
  | nil => rw [stretchesFrom, flatten_nonEmptyList, List.append_nil]
  | cons x rest ih =>
    rw [stretchesFrom]
    split
    next => simpa using ih (stretch ++ [x])
    next =>
      rw [List.flatten_append, flatten_nonEmptyList]
      exact ((ih []).trans (List.sublist_cons_self x rest)).append_left stretch

theorem mem_stretchesFrom {α : Type} {p : α → Bool} {s stretch l : List α}
    (h : s ∈ stretchesFrom p stretch l) : s <:+: stretch ++ l := by
  induction l generalizing stretch with
  | nil =>
    rw [(mem_nonEmptyList h).1, List.append_nil]
  | cons x rest ih =>
    rw [stretchesFrom] at h
    split at h
    next => simpa using ih h
    next =>
      rcases List.mem_append.mp h with h | h
      · rw [(mem_nonEmptyList h).1]
        exact (List.prefix_append _ _).isInfix
      · obtain ⟨before, after, he⟩ := ih h
        rw [List.nil_append] at he
        exact ⟨stretch ++ x :: before, after, by simp [← he]⟩

/-- A stretch is made of what it is looked for. -/
theorem of_mem_stretchesFrom {α : Type} {p : α → Bool} {s stretch l : List α}
    (h : s ∈ stretchesFrom p stretch l) (old : ∀ x ∈ stretch, p x = true) :
    ∀ x ∈ s, p x = true := by
  induction l generalizing stretch with
  | nil =>
    rw [(mem_nonEmptyList h).1]
    exact old
  | cons x rest ih =>
    rw [stretchesFrom] at h
    split at h
    next hx =>
      refine ih h ?_
      intro y hy
      rcases List.mem_append.mp hy with hy | hy
      · exact old y hy
      · exact List.mem_singleton.mp hy ▸ hx
    next =>
      rcases List.mem_append.mp h with h | h
      · rw [(mem_nonEmptyList h).1]
        exact old
      · exact ih h (by simp)

theorem mem_windows {α : Type} {w l : List α} (h : w ∈ windows l) : w <:+: l ∧ w ≠ [] := by
  obtain ⟨n, hn, hw⟩ := List.mem_flatMap.mp h
  obtain ⟨k, hk, rfl⟩ := List.mem_map.mp hn
  obtain ⟨start, hs, rfl⟩ := List.mem_map.mp hw
  rw [List.mem_range] at hk
  have hs := List.mem_range.mp hs
  refine ⟨(List.take_prefix _ _).isInfix.trans (List.drop_suffix _ _).isInfix, ?_⟩
  apply List.ne_nil_of_length_pos
  rw [List.length_take, List.length_drop]
  omega

theorem length_le_of_mem_windows {α : Type} {w l : List α} (h : w ∈ windows l) :
    w.length ≤ longestPattern := by
  obtain ⟨n, hn, hw⟩ := List.mem_flatMap.mp h
  obtain ⟨k, hk, rfl⟩ := List.mem_map.mp hn
  obtain ⟨start, -, rfl⟩ := List.mem_map.mp hw
  have := List.mem_range.mp hk
  rw [List.length_take]
  omega

/-- Whether all actions of a block are pattern items or waits that do not break up a run. -/
def IsUnbroken (block : List Action) : Prop :=
  ∀ a ∈ block, a.isPatternItem = true ∨ a.isTransparent = true

theorem isUnbroken_nil : IsUnbroken [] := by
  intro a ha
  cases ha

/-- Whether actions are the pattern items of an unbroken block of a page. -/
def Page.HasBlock (p : Page) (kept : List Action) : Prop :=
  ∃ block, block <:+: p.actions ∧ IsUnbroken block ∧ kept = block.filter Action.isPatternItem

/-- A run has all pattern items of an unbroken block; `block` is that of the open run. -/
theorem exists_block_of_mem_runsFrom {run block actions : List Action} (old : IsUnbroken block)
    (h : run ∈ runsFrom (block.filter Action.isPatternItem) actions) :
    ∃ whole, whole <:+: block ++ actions ∧ IsUnbroken whole ∧
      run = whole.filter Action.isPatternItem := by
  induction actions generalizing block with
  | nil => exact ⟨block, (List.prefix_append _ _).isInfix, old, (mem_nonEmptyList h).1⟩
  | cons a rest ih =>
    have grown : a.isPatternItem = true ∨ a.isTransparent = true → IsUnbroken (block ++ [a]) := by
      intro ha b hb
      rcases List.mem_append.mp hb with hb | hb
      · exact old b hb
      · exact List.mem_singleton.mp hb ▸ ha
    have same : block ++ a :: rest = block ++ [a] ++ rest := by simp
    rw [runsFrom] at h
    split at h
    next item =>
      rw [same]
      refine ih (grown (.inl item)) ?_
      rwa [List.filter_append, List.filter_cons_of_pos item, List.filter_nil]
    next other =>
      split at h
      next wait =>
        rw [same]
        refine ih (grown (.inr wait)) ?_
        rwa [List.filter_append, List.filter_cons_of_neg other, List.filter_nil, List.append_nil]
      next =>
        rcases List.mem_append.mp h with h | h
        · exact ⟨block, (List.prefix_append _ _).isInfix, old, (mem_nonEmptyList h).1⟩
        · obtain ⟨whole, inside, unbroken, kept⟩ := @ih [] isUnbroken_nil h
          have later : rest <:+: block ++ a :: rest :=
            ((List.suffix_cons a rest).trans (List.suffix_append block _)).isInfix
          exact ⟨whole, List.IsInfix.trans inside later, unbroken, kept⟩

end PageObjects
