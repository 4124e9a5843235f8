import Mathlib.Logic.ExistsUnique
import PageObjects.Proofs.Outcome
import PageObjects.Proofs.Script.Excess

namespace PageObjects

def isBlankLine (line : Text) : Bool := (Text.trim line).isEmpty

/-- Whether the physical line with the given number is one of those of a logical line. -/
def LogicalLine.Holds (l : LogicalLine) (n : Nat) : Prop := l.first ≤ n ∧ n ≤ l.last

/-- Logical lines that account for physical ones, the first of which has number `n`. -/
structure AccountsFor (n : Nat) (lines : List Text) (logical : List LogicalLine) : Prop where
  within : ∀ l ∈ logical, n ≤ l.first ∧ l.first ≤ l.last ∧ l.last < n + lines.length
  ordered : logical.Pairwise fun a b => a.last < b.first
  starts : ∀ l ∈ logical, ∃ i line,
    l.first = n + i ∧ lines[i]? = some line ∧ isBlankLine line = false
  once : ∀ i line, lines[i]? = some line → isBlankLine line = false →
    ∃! l, l ∈ logical ∧ l.Holds (n + i)

namespace AccountsFor

variable {n : Nat} {line : Text} {lines rest : List Text} {logical : List LogicalLine}

theorem nil (n : Nat) : AccountsFor n [] [] := ⟨by simp, .nil, by simp, by simp⟩

/-- A blank line needs no logical one. -/
theorem accountsFor_cons_blank (blank : isBlankLine line = true)
    (h : AccountsFor (n + 1) rest logical) :
    AccountsFor n (line :: rest) logical := by
  refine ⟨?_, h.ordered, ?_, ?_⟩
  · intro l hl
    have := h.within l hl
    simp only [List.length_cons]
    omega
  · intro l hl
    obtain ⟨i, other, first, hi, filled⟩ := h.starts l hl
    exact ⟨i + 1, other, by omega, by simpa using hi, filled⟩
  · intro i other hi filled
    cases i with
    | zero =>
      cases Option.some.inj hi
      rw [blank] at filled
      cases filled
    | succ i =>
      have place : n + (i + 1) = n + 1 + i := by omega
      rw [place]
      exact h.once i other (by simpa using hi) filled

/-- A logical line takes the next `k` physical ones, of which the first is not blank. -/
theorem accountsFor_cons {l : LogicalLine} {k : Nat} (first : l.first = n)
    (last : l.last + 1 = n + k)
    (starts : ∃ line, lines[0]? = some line ∧ isBlankLine line = false) (takes : 0 < k)
    (fits : k ≤ lines.length) (h : AccountsFor (n + k) (lines.drop k) logical) :
    AccountsFor n lines (l :: logical) := by
  have behind : ∀ m ∈ logical, n + k ≤ m.first := fun m hm => (h.within m hm).1
  refine ⟨?_, ?_, ?_, ?_⟩
  · intro m hm
    rcases List.mem_cons.mp hm with rfl | hm
    · omega
    · have := h.within m hm
      simp only [List.length_drop] at this
      omega
  · refine List.pairwise_cons.mpr ⟨?_, h.ordered⟩
    intro m hm
    have := behind m hm
    omega
  · intro m hm
    rcases List.mem_cons.mp hm with rfl | hm
    · obtain ⟨line, head, filled⟩ := starts
      exact ⟨0, line, first, head, filled⟩
    · obtain ⟨i, line, hf, hi, filled⟩ := h.starts m hm
      exact ⟨k + i, line, by omega, by rwa [List.getElem?_drop] at hi, filled⟩
  · intro i line hi filled
    by_cases own : i < k
    · refine ⟨l, ⟨List.mem_cons_self, by omega, by omega⟩, ?_⟩
      rintro m ⟨hm, holds, -⟩
      rcases List.mem_cons.mp hm with rfl | hm
      · rfl
      · have := behind m hm
        omega
    · have place : n + i = n + k + (i - k) := by omega
      have later : (lines.drop k)[i - k]? = .some line := by
        rw [List.getElem?_drop, Nat.add_sub_cancel' (by omega)]
        exact hi
      obtain ⟨m, ⟨hm, holds⟩, only⟩ := h.once (i - k) line later filled
      refine ⟨m, ⟨List.mem_cons_of_mem _ hm, place ▸ holds⟩, ?_⟩
      rintro m' ⟨hm', holds'⟩
      rcases List.mem_cons.mp hm' with rfl | hm'
      · have := holds'.2
        omega
      · exact only m' ⟨hm', place ▸ holds'⟩

end AccountsFor

theorem commentLines_append (lines : List Text) :
    (commentLines lines).1 ++ (commentLines lines).2 = lines := by
  induction lines with
  | nil => rfl
  | cons line rest ih =>
    rw [commentLines]
    split
    next => rfl
    next => exact congrArg (line :: ·) ih

theorem length_commentLines_pos (line : Text) (rest : List Text) :
    0 < (commentLines (line :: rest)).1.length := by
  rw [commentLines]
  split
  next => simp
  next => simp

/-- Joining takes lines from the front, as many as it goes on. -/
theorem Joining.exists_run_eq (start : Nat) (j : Joining) (lines : List Text) :
    ∃ k ≤ lines.length, (run start j lines).1.last = j.last + k ∧
      (run start j lines).2 = lines.drop k := by
  fun_induction run start j lines with
  | case1 => exact ⟨0, by omega, rfl, rfl⟩
  | case2 j lines _ line rest hrest _ ih =>
    obtain ⟨k, fits, last, left⟩ := ih
    have whole : lines.takeWhile isIdleLine ++ line :: rest = lines := by
      rw [← hrest, List.takeWhile_append_dropWhile]
    have size := congrArg List.length whole
    simp only [List.length_append, List.length_cons] at size
    refine ⟨(lines.takeWhile isIdleLine).length + (1 + k), by omega, ?_, ?_⟩
    · rw [last]
      simp only [extend]
      omega
    · have dropped : (lines.takeWhile isIdleLine ++ line :: rest).drop
          ((lines.takeWhile isIdleLine).length + (1 + k)) = rest.drop k := by
        rw [← List.drop_drop, List.drop_left, ← List.drop_drop, List.drop_one, List.tail_cons]
      rw [whole] at dropped
      rw [left, dropped]
  | case3 => exact ⟨0, by omega, rfl, rfl⟩
  | case4 => exact ⟨0, by omega, rfl, rfl⟩

theorem accountsFor_logicalLines (n : Nat) (lines : List Text) :
    AccountsFor n lines (logicalLines n lines) := by
  fun_induction logicalLines n lines with
  | case1 n => exact .nil n
  | case2 n line rest _ blank ih => exact ih.accountsFor_cons_blank blank
  | case3 n line rest _ filled _ block last ih =>
    have whole : block.1 ++ block.2 = line :: rest := commentLines_append (line :: rest)
    have taken : 0 < block.1.length := length_commentLines_pos line rest
    have size := congrArg List.length whole
    have next : n + block.1.length - 1 + 1 = n + block.1.length := by omega
    have left : block.2 = (line :: rest).drop block.1.length := by rw [← whole, List.drop_left]
    refine .accountsFor_cons rfl next ⟨line, rfl, Bool.eq_false_iff.mpr filled⟩ taken ?_ ?_
    · simp only [List.length_append] at size
      omega
    · rw [← left, ← next]
      exact ih
  | case4 n line rest _ filled _ _ ih =>
    exact .accountsFor_cons rfl rfl ⟨line, rfl, Bool.eq_false_iff.mpr filled⟩ Nat.one_pos
      (by simp) ih
  | case5 n line rest _ filled _ _ joined ih =>
    obtain ⟨k, fits, last, left⟩ := Joining.exists_run_eq n (startJoining n line) rest
    have reached : joined.1.last + 1 = n + (k + 1) := by
      have : joined.1.last = n + k := last
      omega
    refine .accountsFor_cons rfl reached ⟨line, rfl, Bool.eq_false_iff.mpr filled⟩ (Nat.succ_pos k)
      (Nat.succ_le_succ fits) ?_
    have same : joined.2 = (line :: rest).drop (k + 1) := left
    rw [← same, ← reached]
    exact ih

/-- Statements have the lines of the logical lines that they are read from. -/
theorem map_lines_statementsFrom (state : Extraction) (lines : List LogicalLine) :
    ((statementsFrom state lines).map fun s => (s.line, s.endLine)) =
      lines.map fun l => (l.first, l.last) := by
  induction lines generalizing state with
  | nil => rfl
  | cons line rest ih =>
    simp only [statementsFrom, List.map_cons, ih]
    rfl

/-- Statements one behind the other: each ends before the next one starts. -/
structure StatementsOrdered (statements : List Statement) : Prop where
  spans : ∀ s ∈ statements, s.line ≤ s.endLine
  ordered : statements.Pairwise fun s t => s.endLine < t.line

theorem statementsOrdered_ofText (t : Text) : StatementsOrdered (Statement.ofText t) := by
  have lines := accountsFor_logicalLines 1 (Text.lines t)
  have same := map_lines_statementsFrom {} (LogicalLine.ofText t)
  constructor
  · intro s hs
    have hm : (s.line, s.endLine) ∈ (LogicalLine.ofText t).map fun l => (l.first, l.last) := by
      rw [← same]
      exact List.mem_map_of_mem hs
    obtain ⟨l, hl, he⟩ := List.mem_map.mp hm
    obtain ⟨hline, hend⟩ := Prod.mk.inj he
    have := lines.within l hl
    omega
  · have apart : ((LogicalLine.ofText t).map fun l => (l.first, l.last)).Pairwise
        fun a b => a.2 < b.1 := List.pairwise_map.mpr lines.ordered
    rw [← same] at apart
    exact List.pairwise_map.mp apart

/-- What is extracted stands on lines of its own, and some of it does something on a page. -/
theorem extract_ordered {script : Text} {statements : List Statement}
    (h : extract script = .ok statements) :
    StatementsOrdered statements ∧ ∃ s ∈ statements, s.isStructural = false := by
  obtain ⟨-, deed, rfl⟩ := extract_eq_ok_iff.mp h
  exact ⟨statementsOrdered_ofText script, deed⟩

/-- The logical lines of every text account for its physical ones, and what is extracted from it is
one statement for each of them, in order and on the same lines. -/
theorem physicalLines_accounted (t : Text) :
    AccountsFor 1 (Text.lines t) (LogicalLine.ofText t) ∧
      ∀ statements, extract t = .ok statements →
        (statements.map fun s => (s.line, s.endLine)) =
          (LogicalLine.ofText t).map fun l => (l.first, l.last) := by
  refine ⟨accountsFor_logicalLines 1 (Text.lines t), ?_⟩
  intro statements h
  rw [eq_ofText_of_extract h]
  exact map_lines_statementsFrom {} (LogicalLine.ofText t)

/-- A comment, a blank line and a call over three lines, one of them a comment. -/
def dividedCall : Text := "/* menu */\n\npage.click(\n  // the first entry\n  'nav a');"

theorem physicalLines_accounted_dividedCall : ∃ statements, extract dividedCall = .ok statements ∧
    (statements.map fun s => (s.line, s.endLine)) = [(1, 1), (3, 5)] ∧
    AccountsFor 1 (Text.lines dividedCall) (LogicalLine.ofText dividedCall) := by
  obtain ⟨accounted, same⟩ := physicalLines_accounted dividedCall
  obtain ⟨statements, extracted, -⟩ :=
    exists_ok_of_any (x := extract dividedCall) (p := fun _ => true) (by decide +kernel)
  refine ⟨statements, extracted, ?_, accounted⟩
  rw [same statements extracted]
  decide +kernel

end PageObjects
