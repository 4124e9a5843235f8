import PageObjects.Proofs.Text.Search
import PageObjects.Proofs.Text.Trim

namespace PageObjects

namespace Text

variable {s gap word : Text}

/-- Whether a text starts with a word does not depend on what stands behind a gap. -/
theorem isPrefixOf_append_gap (own : ∀ c ∈ word, isBlank c = false)
    (blank : ∀ c ∈ gap.head?, isBlank c = true) (s : Text) :
    word.isPrefixOf (s ++ gap) = word.isPrefixOf s := by
  rw [Bool.eq_iff_iff, List.isPrefixOf_iff_prefix, List.isPrefixOf_iff_prefix]
  constructor
  · intro h
    cases gap with
    | nil => exact List.append_nil s ▸ h
    | cons c gap =>
      have other : c ∉ word := by
        intro here
        have : isBlank c = true := blank c rfl
        rw [own c here] at this
        cases this
      exact prefix_of_prefix_append_cons other h
  · exact fun h => h.trans (List.prefix_append s gap)

/-- A word is not found in a gap. -/
theorem includes_gap_append (own : ∀ c ∈ word, isBlank c = false) (filled : word ≠ [])
    (blank : ∀ c ∈ gap, isBlank c = true) (s : Text) :
    includes word (gap ++ s) = includes word s := by
  induction gap with
  | nil => rfl
  | cons c gap ih =>
    have front : word.isPrefixOf ([] ++ c :: (gap ++ s)) = word.isPrefixOf [] := by
      refine isPrefixOf_append_gap own ?_ []
      intro d hd
      obtain rfl := Option.some.inj hd
      exact blank _ List.mem_cons_self
    have nothing : word.isPrefixOf [] = false := by
      rw [Bool.eq_false_iff, ne_eq, List.isPrefixOf_iff_prefix, List.prefix_nil]
      exact filled
    rw [List.nil_append, nothing] at front
    rw [List.cons_append, includes, front, Bool.false_or]
    exact ih fun d hd => blank d (List.mem_cons_of_mem c hd)

theorem includes_append_gap (own : ∀ c ∈ word, isBlank c = false) (filled : word ≠ [])
    (blank : ∀ c ∈ gap, isBlank c = true) (s : Text) :
    includes word (s ++ gap) = includes word s := by
  induction s with
  | nil =>
    have skipped := includes_gap_append own filled blank []
    rw [List.append_nil] at skipped
    exact skipped
  | cons c s ih =>
    have front := isPrefixOf_append_gap own
      (fun d hd => blank d (List.mem_of_mem_head? hd)) (c :: s)
    rw [List.cons_append] at front
    rw [List.cons_append, includes, includes, front, ih]

/-- Trimming takes no word away. -/
theorem includes_trim (own : ∀ c ∈ word, isBlank c = false) (filled : word ≠ []) (t : Text) :
    includes word (trim t) = includes word t := by
  obtain ⟨lead, tail, whole, front, back⟩ := exists_trim_append t
  conv => rhs; rw [whole]
  rw [includes_append_gap own filled back, includes_gap_append own filled front]

theorem trimEnd_append_gap (blank : ∀ c ∈ gap, isBlank c = true)
    (filled : ∀ c ∈ s.getLast?, isBlank c = false) : trimEnd (s ++ gap) = s := by
  have front : ∀ c ∈ s.reverse.head?, isBlank c = false := by
    rw [List.head?_reverse]
    exact filled
  rw [trimEnd, dropEndWhile, List.reverse_append,
    List.dropWhile_append_of_pos fun c hc => blank c (List.mem_reverse.mp hc),
    dropWhile_eq_self front, List.reverse_reverse]

/-- From a text that starts with no blank, trimming takes blanks at the end only. -/
theorem exists_trim_append_of_front (front : ∀ c ∈ s.head?, isBlank c = false) :
    ∃ tail, s = trim s ++ tail ∧ ∀ c ∈ tail, isBlank c = true := by
  obtain ⟨lead, tail, whole, blank, back⟩ := exists_trim_append s
  cases lead with
  | nil => exact ⟨tail, whole, back⟩
  | cons c lead =>
    have first : isBlank c = false := front c (by rw [whole]; rfl)
    rw [blank c List.mem_cons_self] at first
    cases first

/-- If a gap is between two texts, trimming them together only widens it. -/
theorem exists_trim_append_gap_append {t : Text} (written : trim s ≠ []) (filled : trim t ≠ [])
    (front : ∀ c ∈ t.head?, isBlank c = false) (gap : Text) :
    ∃ blanks, (∀ c ∈ blanks, isBlank c = true) ∧
      trim (s ++ gap ++ t) = trim s ++ (blanks ++ gap) ++ trim t := by
  obtain ⟨lead, blanks, whole, before, between⟩ := exists_trim_append s
  obtain ⟨tail, rest, behind⟩ := exists_trim_append_of_front front
  refine ⟨blanks, between, ?_⟩
  have all : s ++ gap ++ t = lead ++ (trim s ++ (blanks ++ gap) ++ trim t) ++ tail := by
    conv => lhs; rw [whole, rest]
    simp only [List.append_assoc]
  rw [all, trim_append_blanks behind, trim_append_of_blank before]
  apply trim_eq_self
  · rw [List.append_assoc, List.head?_append_of_ne_nil _ written]
    exact front_trim s
  · rw [List.getLast?_append_of_ne_nil _ filled]
    exact back_trim t

end Text

end PageObjects
