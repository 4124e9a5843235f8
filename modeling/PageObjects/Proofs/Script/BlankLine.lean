import PageObjects.Proofs.Script.Reading

namespace PageObjects

/-- A logical line whose physical lines have moved. -/
def LogicalLine.moved (move : Nat → Nat) (l : LogicalLine) : LogicalLine :=
  { l with first := move l.first, last := move l.last }

/-- Where a line is once another one stands behind the first `k`. -/
def lineBehind (k n : Nat) : Nat := if n ≤ k then n else n + 1

/-- Whether no statement is so long that joining its lines breaks off. -/
def StatementsFit (lines : List Text) : Prop :=
  ∀ l ∈ logicalLines 1 lines, l.last - l.first < maxStatementLines

instance (lines : List Text) : Decidable (StatementsFit lines) :=
  inferInstanceAs (Decidable (∀ l ∈ logicalLines 1 lines, l.last - l.first < maxStatementLines))

/-- Whether a comment that starts within the first `k` lines is not closed there. -/
def InComment (lines : List Text) (k : Nat) : Prop :=
  ∃ l ∈ logicalLines 1 lines, List.isPrefixOf "/*" l.text = true ∧ l.first ≤ k ∧
    ∀ line ∈ (lines.take k).drop (l.first - 1), Text.includes "*/" line = false

instance (lines : List Text) (k : Nat) : Decidable (InComment lines k) :=
  inferInstanceAs (Decidable (∃ l ∈ logicalLines 1 lines, List.isPrefixOf "/*" l.text = true ∧
    l.first ≤ k ∧ ∀ line ∈ (lines.take k).drop (l.first - 1), Text.includes "*/" line = false))

namespace Joining

def delayed (j : Joining) : Joining := { j with last := j.last + 1 }

@[simp] theorem text_delayed (j : Joining) : j.delayed.text = j.text := rfl

@[simp] theorem last_delayed (j : Joining) : j.delayed.last = j.last + 1 := rfl

theorem delayed_extend (j : Joining) (skipped : Nat) (line : Text) :
    (j.extend skipped line).delayed = j.extend (skipped + 1) line := rfl

theorem extend_delayed (j : Joining) (skipped : Nat) (line : Text) :
    j.delayed.extend skipped line = (j.extend skipped line).delayed := by
  rw [extend, delayed_extend, extend]
  simp only [delayed]
  congr 1
  omega

variable {start start' : Nat} {j : Joining} {lines : List Text}

theorem last_le_run (start : Nat) (j : Joining) (lines : List Text) :
    j.last ≤ (run start j lines).1.last := by
  obtain ⟨k, -, last, -⟩ := exists_run_eq start j lines
  omega

/-- Joining takes the same lines if the statement stands one line later, as long as it may go on at
the same times. -/
theorem run_delayed (agree : ∀ i : Joining, i.last ≤ (run start j lines).1.last →
      i.last + 1 ≤ (run start' j.delayed lines).1.last →
      i.delayed.isOpen start' = i.isOpen start) :
    run start' j.delayed lines = ((run start j lines).1.delayed, (run start j lines).2) := by
  have own : j.delayed.isOpen start' = j.isOpen start :=
    agree j (last_le_run start j lines) (last_le_run start' j.delayed lines)
  fun_induction run start j lines with
  | case1 j lines isOpen idle =>
    refine run_of_stops fun _ next h => ?_
    rw [idle] at h
    cases h
  | case2 j lines isOpen next rest more takes ih =>
    obtain ⟨whole, idle, filled⟩ := skips_of_dropWhile more
    have step : run start' j.delayed lines =
        run start' (j.extend (lines.takeWhile isIdleLine).length next).delayed rest := by
      rw [← extend_delayed]
      conv => lhs; rw [whole]
      exact run_of_takes (own.trans isOpen) idle filled takes
    rw [step] at agree ⊢
    exact ih agree (agree _ (last_le_run start _ rest) (last_le_run start' (delayed _) rest))
  | case3 j lines isOpen next rest more refuses =>
    refine run_of_stops fun _ other h => ?_
    rw [more] at h
    obtain rfl : next = other := Option.some.inj h
    exact Bool.eq_false_iff.mpr refuses
  | case4 j lines closed =>
    exact run_of_stops fun isOpen => absurd (own.symm.trans isOpen) closed

theorem run_succ (start : Nat) (j : Joining) (lines : List Text) :
    run (start + 1) j.delayed lines = ((run start j lines).1.delayed, (run start j lines).2) := by
  refine run_delayed fun i _ _ => ?_
  rw [isOpen, isOpen, text_delayed, last_delayed, Nat.add_sub_add_right]

theorem run_delayed_of_fits (fits : (run start j lines).1.last - start < maxStatementLines)
    (fits' : (run start j.delayed lines).1.last - start < maxStatementLines) :
    run start j.delayed lines = ((run start j lines).1.delayed, (run start j lines).2) := by
  refine run_delayed fun i bound bound' => ?_
  have before : i.last - start < maxStatementLines := by omega
  have behind : i.last + 1 - start < maxStatementLines := by omega
  rw [isOpen, isOpen, text_delayed, last_delayed, decide_eq_true before, decide_eq_true behind]

theorem exists_run_insert {idle after : List Text} {blank next : Text}
    (skips : ∀ line ∈ idle, isIdleLine line = true) (empty : isBlankLine blank = true)
    (isOpen : j.isOpen start = true) (first : next ∈ (after.dropWhile isIdleLine).head?)
    (takes : j.takes next = true) :
    ∃ i rest, j.last + idle.length < i.last ∧ run start j (idle ++ after) = run start i rest ∧
      run start j (idle ++ blank :: after) = run start i.delayed rest := by
  obtain ⟨rest, more⟩ := List.head?_eq_some_iff.mp first
  obtain ⟨whole, skipped, filled⟩ := skips_of_dropWhile more
  have all : ∀ line ∈ idle ++ after.takeWhile isIdleLine, isIdleLine line = true :=
    List.forall_mem_append.mpr ⟨skips, skipped⟩
  have more : ∀ line ∈ idle ++ blank :: after.takeWhile isIdleLine, isIdleLine line = true :=
    List.forall_mem_append.mpr
      ⟨skips, List.forall_mem_cons.mpr ⟨Bool.or_eq_true_iff.mpr (.inl empty), skipped⟩⟩
  refine ⟨j.extend (idle ++ after.takeWhile isIdleLine).length next, rest, ?_, ?_, ?_⟩
  · show j.last + idle.length < j.last + (idle ++ after.takeWhile isIdleLine).length + 1
    rw [List.length_append]
    omega
  · conv => lhs; rw [whole, ← List.append_assoc]
    exact run_of_takes isOpen all filled takes
  · conv => lhs; rw [whole, ← List.cons_append, ← List.append_assoc]
    rw [run_of_takes isOpen more filled takes, delayed_extend, List.length_append,
      List.length_append, List.length_cons]
    rfl

end Joining

/-- Logical lines do not depend on where in a script they stand. -/
theorem logicalLines_succ (n : Nat) (lines : List Text) :
    logicalLines (n + 1) lines = (logicalLines n lines).map (LogicalLine.moved (· + 1)) := by
  induction n, lines using logicalLines_induction with
  | nil n =>
    rw [logicalLines, logicalLines]
    rfl
  | blank n line rest empty ih => rw [logicalLines_blank empty, logicalLines_blank empty, ih]
  | comment n line rest filled opens ih =>
    have taken : 0 < (commentLines (line :: rest)).1.length := length_commentLines_pos line rest
    have last : n + 1 + (commentLines (line :: rest)).1.length - 1 =
        n + (commentLines (line :: rest)).1.length - 1 + 1 := by omega
    have next : n + 1 + (commentLines (line :: rest)).1.length =
        n + (commentLines (line :: rest)).1.length + 1 := by omega
    rw [logicalLines_comment filled opens, logicalLines_comment filled opens, linesFromComment,
      linesFromComment, last, next, ih]
    rfl
  | note n line rest filled other slashes ih =>
    rw [logicalLines_note filled other slashes, logicalLines_note filled other slashes, ih]
    rfl
  | code n line rest filled other ih =>
    have later : startJoining (n + 1) line = (startJoining n line).delayed := rfl
    rw [logicalLines_code filled other, logicalLines_code filled other, later, Joining.run_succ,
      linesFromStatement, linesFromStatement, Joining.last_delayed, ih]
    rfl

section Move

variable {k n : Nat} {lines : List Text}

theorem map_moved_of_le {logical : List LogicalLine}
    (h : ∀ l ∈ logical, l.first ≤ k ∧ l.last ≤ k) :
    logical.map (LogicalLine.moved (lineBehind k)) = logical := by
  refine (List.map_congr_left fun l hl => ?_).trans (List.map_id logical)
  obtain ⟨first, last⟩ := h l hl
  rw [LogicalLine.moved, lineBehind, lineBehind, if_pos first, if_pos last]
  rfl

theorem map_moved_of_lt (h : k < n) :
    (logicalLines n lines).map (LogicalLine.moved (lineBehind k)) = logicalLines (n + 1) lines := by
  rw [logicalLines_succ]
  refine List.map_congr_left fun l hl => ?_
  obtain ⟨first, order, -⟩ := (accountsFor_logicalLines n lines).within l hl
  have front : ¬ l.first ≤ k := by omega
  have back : ¬ l.last ≤ k := by omega
  rw [LogicalLine.moved, LogicalLine.moved, lineBehind, lineBehind, if_neg front, if_neg back]

theorem le_length_of_mem {before : List Text} {l : LogicalLine} (h : l ∈ logicalLines 1 before) :
    l.first ≤ before.length ∧ l.last ≤ before.length := by
  obtain ⟨-, order, last⟩ := (accountsFor_logicalLines 1 before).within l h
  omega

/-- A statement that starts in front of the new line and goes on behind it ends one line later, and
all that follows moves on. -/
theorem map_moved_linesFromStatement {start : Nat} {j : Joining} {rest : List Text}
    (begun : start ≤ k) (beyond : k < j.last)
    (fits : (j.run start rest).1.last - start < maxStatementLines)
    (fits' : (j.delayed.run start rest).1.last - start < maxStatementLines) :
    (linesFromStatement start (j.run start rest)).map (LogicalLine.moved (lineBehind k)) =
      linesFromStatement start (j.delayed.run start rest) := by
  have reached := Joining.last_le_run start j rest
  have stays : lineBehind k start = start := if_pos begun
  have moves : lineBehind k (j.run start rest).1.last = (j.run start rest).1.last + 1 :=
    if_neg (by omega)
  rw [Joining.run_delayed_of_fits fits fits', linesFromStatement, linesFromStatement, List.map_cons,
    map_moved_of_lt (by omega), LogicalLine.moved, stays, moves]
  rfl

end Move

/-- A blank line outside of comments changes nothing but the numbers of the lines behind it. -/
theorem logicalLines_insert_blank {before after : List Text} {blank : Text}
    (empty : isBlankLine blank = true) (outside : ¬ InComment (before ++ after) before.length)
    (fits : StatementsFit (before ++ after)) (fits' : StatementsFit (before ++ blank :: after)) :
    logicalLines 1 (before ++ blank :: after) =
      (logicalLines 1 (before ++ after)).map (LogicalLine.moved (lineBehind before.length)) := by
  have starts : CutsAt 1 before after → CutsAt 1 before (blank :: after) →
      logicalLines 1 (before ++ blank :: after) =
        (logicalLines 1 (before ++ after)).map (LogicalLine.moved (lineBehind before.length)) := by
    intro cut cut'
    rw [CutsAt] at cut cut'
    have kept := map_moved_of_le fun l (hl : l ∈ logicalLines 1 before) => le_length_of_mem hl
    rw [cut, cut', logicalLines_blank empty, List.map_append, kept, map_moved_of_lt (by omega)]
  cases reading_of_lines 1 before with
  | between cut => exact starts (cut _) (cut _)
  | joining done start j idle skips count eq =>
    by_cases goesOn : j.isOpen start = true ∧
        ∃ next ∈ (after.dropWhile isIdleLine).head?, j.takes next = true
    · -- both runs take the same line next, one of them a line later
      obtain ⟨isOpen, next, first, takes⟩ := goesOn
      obtain ⟨i, rest, later, run, run'⟩ :=
        Joining.exists_run_insert skips empty isOpen first takes
      have whole := eq after
      have whole' := eq (blank :: after)
      rw [run] at whole
      rw [run'] at whole'
      have span := fits ⟨start, (i.run start rest).1.last, (i.run start rest).1.text⟩
        (by rw [whole]; exact List.mem_append_right _ List.mem_cons_self)
      have span' := fits' ⟨start, (i.delayed.run start rest).1.last, _⟩
        (by rw [whole']; exact List.mem_append_right _ List.mem_cons_self)
      have front : ∀ l ∈ done ++ linesFromStatement start (j.run start (idle ++ [])),
          l.first ≤ before.length ∧ l.last ≤ before.length := by
        rw [← eq, List.append_nil]
        exact fun l hl => le_length_of_mem hl
      obtain ⟨first, own⟩ := List.forall_mem_append.mp front
      have begun : start ≤ before.length := (own _ List.mem_cons_self).1
      rw [whole, whole', List.map_append, map_moved_of_le first,
        map_moved_linesFromStatement begun (by omega) span span']
    · -- the statement has ended, so that the blank line stands between statements
      have stops : j.isOpen start = true →
          ∀ next ∈ (after.dropWhile isIdleLine).head?, j.takes next = false := by
        intro isOpen next first
        rw [Bool.eq_false_iff]
        exact fun takes => goesOn ⟨isOpen, next, first, takes⟩
      have idle : isIdleLine blank = true := Bool.or_eq_true_iff.mpr (.inl empty)
      refine starts (cutsAt_of_stops skips count eq stops) (cutsAt_of_stops skips count eq ?_)
      rw [List.dropWhile_cons_of_pos idle]
      exact stops
  | comment done front line inner whole opens unclosed eq =>
    obtain ⟨l, here, first, -, marks⟩ := exists_linesFromComment_eq opens (1 + front.length)
      (inner ++ (commentLines after).1) (commentLines after).2
    have hl : l ∈ logicalLines 1 (before ++ after) := by
      rw [eq, List.cons_append, here]
      exact List.mem_append_right _ List.mem_cons_self
    have size := congrArg List.length whole
    simp only [List.length_append, List.length_cons] at size
    refine absurd ⟨l, hl, marks, by omega, ?_⟩ outside
    have lead : l.first - 1 = front.length := by omega
    rw [List.take_left, lead, whole, List.drop_left]
    exact unclosed

end PageObjects
