import PageObjects.Proofs.Script.Joining
import PageObjects.Proofs.Script.Reading
import PageObjects.Proofs.Text.Gap

namespace PageObjects

/-- Whether a character completes the slashes of a comment. -/
def startsComment (region : Region) (back : Text) (slash : Bool) (c : Char) : Bool :=
  !region.covers c && c == '/' && slash && back[1]? != some '\\'

section Scan

variable {region : Region} {back s gap : Text} {slash : Bool} {c : Char}

theorem beforeComment?_cons (region : Region) (back : Text) (slash : Bool) (c : Char) (r : Text) :
    beforeComment? region back slash (c :: r) =
      if startsComment region back slash c then some (Text.trimEnd (back.drop 1).reverse)
      else beforeComment? (region.next c) (c :: back) (!region.covers c && c == '/') r := rfl

/-- A comment that has started goes on to the end of the line. -/
theorem beforeComment?_append_of_some {u : Text} (h : beforeComment? region back slash s = some u)
    (t : Text) : beforeComment? region back slash (s ++ t) = some u := by
  induction s generalizing region back slash with
  | nil => cases h
  | cons c s ih =>
    rw [List.cons_append, beforeComment?_cons]
    rw [beforeComment?_cons] at h
    split at h
    next starts => rw [if_pos starts, h]
    next other => rw [if_neg other, ih h]

theorem exists_beforeComment?_append (h : beforeComment? region back slash s = none) :
    ∃ slash', ∀ t, beforeComment? region back slash (s ++ t) =
      beforeComment? (region.after s) (s.reverse ++ back) slash' t := by
  induction s generalizing region back slash with
  | nil => exact ⟨slash, fun t => rfl⟩
  | cons c s ih =>
    rw [beforeComment?_cons] at h
    split at h
    next => cases h
    next other =>
      obtain ⟨slash', later⟩ := ih h
      refine ⟨slash', fun t => ?_⟩
      rw [List.cons_append, beforeComment?_cons, if_neg other, later, Region.after_cons,
        List.reverse_cons, List.append_assoc]
      rfl

/-- Behind a gap the slashes of a comment have yet to come. -/
theorem beforeComment?_gap_append (filled : gap ≠ []) (blank : ∀ c ∈ gap, isBlank c = true)
    (back : Text) (slash : Bool) (t : Text) :
    beforeComment? .code back slash (gap ++ t) =
      beforeComment? .code (gap.reverse ++ back) false t := by
  induction gap generalizing back slash with
  | nil => exact absurd rfl filled
  | cons c gap ih =>
    obtain ⟨own, later⟩ := List.forall_mem_cons.mp blank
    have plain := isPlain_of_isBlank own
    have stays : Region.code.next c = .code := by simp [Region.next, plain.quote]
    have other : (c == '/') = false := by
      refine beq_false_of_ne ?_
      rintro rfl
      cases own
    rw [List.cons_append, beforeComment?_cons, startsComment, other, Bool.and_false,
      Bool.false_and, Bool.false_and, if_neg Bool.false_ne_true, stays]
    cases gap with
    | nil => rfl
    | cons d gap =>
      rw [ih (List.cons_ne_nil d gap) later, List.reverse_cons (a := c), List.append_assoc]
      rfl

theorem beforeComment?_slashes (space : isBlank c = true) (back t : Text) :
    beforeComment? .code (c :: back) false ('/' :: '/' :: t) =
      some (Text.trimEnd (c :: back).reverse) := by
  have other : c ≠ '\\' := by
    rintro rfl
    cases space
  have starts : startsComment .code ('/' :: c :: back) true '/' = true := by
    have : (some c != some '\\') = true := bne_iff_ne.mpr fun h => other (Option.some.inj h)
    exact this
  have waits : startsComment .code (c :: back) false '/' = false := rfl
  rw [beforeComment?_cons, waits, if_neg Bool.false_ne_true, beforeComment?_cons]
  exact if_pos starts

end Scan

/-- A comment behind a gap is taken away together with the gap. -/
theorem stripComment_append {s gap : Text} (closed : Region.code.after s = .code)
    (filled : ∀ c ∈ s.getLast?, isBlank c = false) (wide : gap ≠ [])
    (blank : ∀ c ∈ gap, isBlank c = true) (note : Text) :
    stripComment (s ++ gap ++ '/' :: '/' :: note) = stripComment s := by
  rw [stripComment, stripComment, List.append_assoc]
  cases found : beforeComment? .code [] false s with
  | some u =>
    rw [beforeComment?_append_of_some found]
    rfl
  | none =>
    obtain ⟨slash, later⟩ := exists_beforeComment?_append found
    have cut : beforeComment? .code [] false (s ++ (gap ++ '/' :: '/' :: note)) =
        some (Text.trimEnd (gap.reverse ++ s.reverse).reverse) := by
      rw [later, closed, beforeComment?_gap_append wide blank, List.append_nil]
      obtain ⟨c, back, hc⟩ := List.exists_cons_of_ne_nil (mt List.reverse_eq_nil_iff.mp wide)
      have space : isBlank c = true := blank c (List.mem_reverse.mp (hc ▸ List.mem_cons_self))
      rw [hc, List.cons_append]
      exact beforeComment?_slashes space _ note
    rw [cut, List.reverse_append, List.reverse_reverse, List.reverse_reverse]
    exact Text.trimEnd_append_gap blank filled

/-- Whether a logical line is a comment. -/
def LogicalLine.isComment (l : LogicalLine) : Bool := Text.startsWithAny ["/*", "//"] l.text

/-- Whether the physical line with the given number belongs to a statement. -/
def InStatement (lines : List Text) (k : Nat) : Prop :=
  ∃ l ∈ logicalLines 1 lines, l.Holds k ∧ l.isComment = false

instance (lines : List Text) (k : Nat) : Decidable (InStatement lines k) :=
  inferInstanceAs (Decidable (∃ l ∈ logicalLines 1 lines,
    (l.first ≤ k ∧ k ≤ l.last) ∧ l.isComment = false))

/-- The statement is the only logical line that holds a line of it, so that no comment does. -/
theorem InStatement.not_comment {line : Text} {before after : List Text}
    (inside : InStatement (before ++ line :: after) (before.length + 1))
    (filled : isBlankLine line = false) :
    ∀ l ∈ logicalLines 1 (before ++ line :: after), l.Holds (before.length + 1) →
      List.isPrefixOf "/*" l.text = false := by
  intro l hl holds
  obtain ⟨own, member, holds', code⟩ := inside
  have here : (before ++ line :: after)[before.length]? = some line := by simp
  have unique := (accountsFor_logicalLines 1 (before ++ line :: after)).once _ _ here filled
  rw [Nat.add_comm] at unique
  rw [unique.unique ⟨hl, holds⟩ ⟨member, holds'⟩]
  exact (Bool.or_eq_false_iff.mp code).1

theorem InStatement.not_opens {line : Text} {before after : List Text}
    (inside : InStatement (before ++ line :: after) (before.length + 1))
    (filled : isBlankLine line = false) (cut : CutsAt 1 before (line :: after)) :
    List.isPrefixOf "/*" (Text.trim line) = false := by
  rw [Bool.eq_false_iff]
  intro opens
  -- otherwise a comment would start here
  obtain ⟨inner, rest, block⟩ := exists_commentLines_cons line after
  obtain ⟨l, whole, first, last, marks⟩ :=
    exists_linesFromComment_eq opens (1 + before.length) inner rest
  rw [CutsAt, logicalLines_comment filled opens, block, whole] at cut
  have hl : l ∈ logicalLines 1 (before ++ line :: after) := by
    rw [cut]
    exact List.mem_append_right _ List.mem_cons_self
  have code := inside.not_comment filled l hl ⟨by omega, by omega⟩
  rw [marks] at code
  cases code

/-- Two lines that say the same within a statement. -/
structure ReadsAlike (line line' : Text) : Prop where
  part : stripComment (Text.trim line') = stripComment (Text.trim line)
  filled : isBlankLine line' = isBlankLine line
  front : ∀ word : Text, (∀ c ∈ word, isBlank c = false) →
    word.isPrefixOf (Text.trim line') = word.isPrefixOf (Text.trim line)

theorem exists_trim_note (note : Text) :
    ∃ note', Text.trim ('/' :: '/' :: note) = '/' :: '/' :: note' := by
  have front : ∀ c ∈ ('/' :: '/' :: note : Text).head?, isBlank c = false := by
    intro c hc
    obtain rfl := Option.some.inj hc
    rfl
  obtain ⟨tail, whole, blank⟩ := Text.exists_trim_append_of_front front
  have marks : ("//" : Text).isPrefixOf (Text.trim ('/' :: '/' :: note) ++ tail) = true := by
    rw [← whole]
    rfl
  rw [Text.isPrefixOf_append_gap (Text.others_of_any rfl) fun c hc => blank c (List.mem_of_mem_head? hc)]
    at marks
  obtain ⟨note', hn⟩ := List.isPrefixOf_iff_prefix.mp marks
  exact ⟨note', hn.symm⟩

/-- A comment behind a line does not change what it says within a statement. -/
theorem readsAlike_note {line : Text} (filled : isBlankLine line = false)
    (closed : ClosesStrings line) (note : Text) :
    ReadsAlike line (line ++ ' ' :: '/' :: '/' :: note) := by
  have written : Text.trim line ≠ [] := by simpa [isBlankLine] using filled
  obtain ⟨note', hn⟩ := exists_trim_note note
  obtain ⟨blanks, between, trimmed⟩ := Text.exists_trim_append_gap_append written
    (by rw [hn]; exact List.cons_ne_nil _ _) (by simp [isBlank]) [' ']
  have space : ∀ c ∈ blanks ++ [' '], isBlank c = true := by
    rw [List.forall_mem_append, List.forall_mem_singleton]
    exact ⟨between, rfl⟩
  rw [List.append_assoc, List.singleton_append, hn] at trimmed
  refine ⟨?_, ?_, ?_⟩
  · rw [trimmed]
    exact stripComment_append (after_trim closed) (Text.back_trim line) (by simp) space note'
  · rw [filled, isBlankLine, trimmed, List.append_assoc, List.isEmpty_eq_false_iff]
    exact List.append_ne_nil_of_left_ne_nil written _
  · intro word own
    rw [trimmed, List.append_assoc]
    refine Text.isPrefixOf_append_gap own ?_ _
    rw [List.head?_append_of_ne_nil _ (by simp)]
    exact fun c hc => space c (List.mem_of_mem_head? hc)

namespace ReadsAlike

variable {line line' : Text}

theorem isIdleLine_eq (alike : ReadsAlike line line') : isIdleLine line' = isIdleLine line := by
  have same : (Text.trim line').isEmpty = (Text.trim line).isEmpty := alike.filled
  rw [isIdleLine, isIdleLine, same, alike.front "//" (Text.others_of_any rfl)]

theorem takes_eq (alike : ReadsAlike line line') (j : Joining) : j.takes line' = j.takes line := by
  have dot := alike.front "." (Text.others_of_any rfl)
  have question := alike.front "?." (Text.others_of_any rfl)
  simp only [Joining.takes, Text.startsWithAny, List.any_cons, List.any_nil, dot, question]

theorem extend_eq (alike : ReadsAlike line line') (j : Joining) (skipped : Nat) :
    j.extend skipped line' = j.extend skipped line := by
  rw [Joining.extend, Joining.extend, alike.part]

theorem startJoining_eq (alike : ReadsAlike line line') (n : Nat) :
    startJoining n line' = startJoining n line := by
  rw [startJoining, startJoining, alike.part]

/-- A line within a statement can be replaced by one that says the same. -/
theorem logicalLines_eq (alike : ReadsAlike line line') {before after : List Text}
    (inside : InStatement (before ++ line :: after) (before.length + 1))
    (filled : isIdleLine line = false) :
    logicalLines 1 (before ++ line' :: after) = logicalLines 1 (before ++ line :: after) := by
  have filled' : isIdleLine line' = false := alike.isIdleLine_eq.trans filled
  obtain ⟨written, -⟩ := Bool.or_eq_false_iff.mp filled
  have starts : CutsAt 1 before (line :: after) → CutsAt 1 before (line' :: after) →
      logicalLines 1 (before ++ line' :: after) = logicalLines 1 (before ++ line :: after) := by
    intro cut cut'
    have other := inside.not_opens written cut
    have other' := (alike.front "/*" (Text.others_of_any rfl)).trans other
    rw [CutsAt] at cut cut'
    rw [cut, cut', logicalLines_code filled other, logicalLines_code filled' other',
      alike.startJoining_eq]
  cases reading_of_lines 1 before with
  | between cut => exact starts (cut _) (cut _)
  | joining done start j idle skips count eq =>
    by_cases goesOn : j.isOpen start = true ∧ j.takes line = true
    · obtain ⟨isOpen, takes⟩ := goesOn
      rw [eq, eq, Joining.run_of_takes isOpen skips filled takes,
        Joining.run_of_takes isOpen skips filled' ((alike.takes_eq j).trans takes),
        alike.extend_eq]
    · have stops : ∀ {next : Text}, isIdleLine next = false → j.takes next = j.takes line →
          CutsAt 1 before (next :: after) := by
        intro next written same
        refine cutsAt_of_stops skips count eq fun isOpen first h => ?_
        rw [List.dropWhile_cons_of_neg (Bool.eq_false_iff.mp written)] at h
        obtain rfl : next = first := Option.some.inj h
        rw [same, Bool.eq_false_iff]
        exact fun takes => goesOn ⟨isOpen, takes⟩
      exact starts (stops filled rfl) (stops filled' (alike.takes_eq j))
  | comment done front first inner whole opens unclosed eq =>
    -- the comment would hold the line
    obtain ⟨l, here, start, last, marks⟩ := exists_linesFromComment_eq opens (1 + front.length)
      (inner ++ (commentLines (line :: after)).1) (commentLines (line :: after)).2
    have hl : l ∈ logicalLines 1 (before ++ line :: after) := by
      rw [eq, List.cons_append, here]
      exact List.mem_append_right _ List.mem_cons_self
    have taken : 0 < (commentLines (line :: after)).1.length := length_commentLines_pos line after
    have size := congrArg List.length whole
    simp only [List.length_append, List.length_cons] at size last
    have code := inside.not_comment written l hl ⟨by omega, by omega⟩
    rw [marks] at code
    cases code

end ReadsAlike

end PageObjects
