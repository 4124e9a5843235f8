import PageObjects.Proofs.Script.BlankLine
import PageObjects.Proofs.Script.TrailingComment

namespace PageObjects

section Trim

theorem isBlankLine_trim (line : Text) : isBlankLine (Text.trim line) = isBlankLine line := by
  rw [isBlankLine, isBlankLine, Text.trim_trim]

theorem isIdleLine_trim (line : Text) : isIdleLine (Text.trim line) = isIdleLine line := by
  rw [isIdleLine, isIdleLine, Text.trim_trim]

theorem dropWhile_map_trim (lines : List Text) :
    (lines.map Text.trim).dropWhile isIdleLine = (lines.dropWhile isIdleLine).map Text.trim := by
  have same : isIdleLine ∘ Text.trim = isIdleLine := funext isIdleLine_trim
  rw [List.dropWhile_map, same]

namespace Joining

theorem takes_trim (j : Joining) (line : Text) : j.takes (Text.trim line) = j.takes line := by
  rw [takes, takes, Text.trim_trim]

theorem extend_trim (j : Joining) (skipped : Nat) (line : Text) :
    j.extend skipped (Text.trim line) = j.extend skipped line := by
  rw [extend, extend, Text.trim_trim]

theorem run_map_trim (start : Nat) (j : Joining) (lines : List Text) :
    run start j (lines.map Text.trim) =
      ((run start j lines).1, (run start j lines).2.map Text.trim) := by
  fun_induction run start j lines with
  | case1 j lines _ noMore =>
    refine run_of_stops fun _ next h => ?_
    rw [dropWhile_map_trim, noMore] at h
    cases h
  | case2 j lines isOpen next rest more takes ih =>
    obtain ⟨whole, skips, filled⟩ := skips_of_dropWhile more
    rw [← isIdleLine_trim] at filled
    have idle : ∀ line ∈ (lines.takeWhile isIdleLine).map Text.trim, isIdleLine line = true := by
      intro line hl
      obtain ⟨own, member, rfl⟩ := List.mem_map.mp hl
      rw [isIdleLine_trim]
      exact skips own member
    have trimmed : lines.map Text.trim =
        (lines.takeWhile isIdleLine).map Text.trim ++ Text.trim next :: rest.map Text.trim := by
      rw [← List.map_cons, ← List.map_append, ← whole]
    rw [trimmed, run_of_takes isOpen idle filled (by rw [takes_trim, takes]), extend_trim,
      List.length_map]
    exact ih
  | case3 j lines isOpen next rest more refuses =>
    refine run_of_stops fun _ other h => ?_
    rw [dropWhile_map_trim, more] at h
    obtain rfl : Text.trim next = other := Option.some.inj h
    rw [takes_trim]
    exact Bool.eq_false_iff.mpr refuses
  | case4 j lines closed => exact run_of_stops fun isOpen => absurd isOpen closed

end Joining

theorem commentLines_map_trim (lines : List Text) :
    commentLines (lines.map Text.trim) =
      ((commentLines lines).1.map Text.trim, (commentLines lines).2.map Text.trim) := by
  induction lines with
  | nil => rfl
  | cons line rest ih =>
    have same : Text.includes "*/" (Text.trim line) = Text.includes "*/" line :=
      Text.includes_trim (Text.others_of_any rfl) (List.cons_ne_nil _ _) line
    rw [List.map_cons, commentLines, commentLines, same, ih]
    split
    next => rfl
    next => rfl

/-- The logical lines do not depend on the blanks around the physical ones. -/
theorem logicalLines_map_trim (n : Nat) (lines : List Text) :
    logicalLines n (lines.map Text.trim) = logicalLines n lines := by
  induction n, lines using logicalLines_induction with
  | nil n => rw [List.map_nil]
  | blank n line rest empty ih =>
    rw [List.map_cons, logicalLines_blank ((isBlankLine_trim line).trans empty), ih,
      logicalLines_blank empty]
  | comment n line rest filled opens ih =>
    have opens' : List.isPrefixOf "/*" (Text.trim (Text.trim line)) = true := by
      rw [Text.trim_trim]
      exact opens
    have same : ∀ ls : List Text, (ls.map Text.trim).map Text.trim = ls.map Text.trim := by
      intro ls
      rw [List.map_map]
      exact List.map_congr_left fun l _ => Text.trim_trim l
    rw [List.map_cons, logicalLines_comment ((isBlankLine_trim line).trans filled) opens',
      ← List.map_cons, commentLines_map_trim, logicalLines_comment filled opens, linesFromComment,
      linesFromComment, same, List.length_map, ih]
  | note n line rest filled other slashes ih =>
    have other' : List.isPrefixOf "/*" (Text.trim (Text.trim line)) = false := by
      rw [Text.trim_trim]
      exact other
    have slashes' : List.isPrefixOf "//" (Text.trim (Text.trim line)) = true := by
      rw [Text.trim_trim]
      exact slashes
    rw [List.map_cons, logicalLines_note ((isBlankLine_trim line).trans filled) other' slashes',
      logicalLines_note filled other slashes, ih, Text.trim_trim]
  | code n line rest filled other ih =>
    have other' : List.isPrefixOf "/*" (Text.trim (Text.trim line)) = false := by
      rw [Text.trim_trim]
      exact other
    have same : startJoining n (Text.trim line) = startJoining n line := by
      rw [startJoining, startJoining, Text.trim_trim]
    rw [List.map_cons, logicalLines_code ((isIdleLine_trim line).trans filled) other', same,
      Joining.run_map_trim, logicalLines_code filled other, linesFromStatement, linesFromStatement,
      ih]

end Trim

/-- A change of the layout of physical lines, and where each of them stands after it. -/
inductive LayoutEdit : List Text → List Text → (Nat → Nat) → Prop where
  | respace {lines lines' : List Text} (same : lines'.map Text.trim = lines.map Text.trim) :
      LayoutEdit lines lines' id
  | insertBlank {before after : List Text} {blank : Text} (empty : isBlankLine blank = true)
      (outside : ¬ InComment (before ++ after) before.length) :
      LayoutEdit (before ++ after) (before ++ blank :: after) (lineBehind before.length)
  | addNote {before after : List Text} {line : Text} (note : Text)
      (inside : InStatement (before ++ line :: after) (before.length + 1))
      (filled : isIdleLine line = false) (closed : ClosesStrings line) :
      LayoutEdit (before ++ line :: after)
        (before ++ (line ++ ' ' :: '/' :: '/' :: note) :: after) id

theorem LayoutEdit.logicalLines_eq {lines lines' : List Text} {move : Nat → Nat}
    (edit : LayoutEdit lines lines' move) (fits : StatementsFit lines)
    (fits' : StatementsFit lines') :
    logicalLines 1 lines' = (logicalLines 1 lines).map (LogicalLine.moved move) := by
  have stays : ∀ logical : List LogicalLine, logical.map (LogicalLine.moved id) = logical :=
    List.map_id
  cases edit with
  | respace same => rw [stays, ← logicalLines_map_trim, same, logicalLines_map_trim]
  | insertBlank empty outside => exact logicalLines_insert_blank empty outside fits fits'
  | addNote note inside filled closed =>
    obtain ⟨written, -⟩ := Bool.or_eq_false_iff.mp filled
    rw [stays, (readsAlike_note written closed note).logicalLines_eq inside filled]

/-- A statement whose lines have moved. -/
def Statement.moved (move : Nat → Nat) (s : Statement) : Statement :=
  { s with line := move s.line, endLine := move s.endLine }

/-- What a statement does and which blocks are around it does not depend on its lines. -/
theorem Extraction.step_moved (state : Extraction) (move : Nat → Nat) (line : LogicalLine) :
    state.step (line.moved move) = ((state.step line).1.moved move, (state.step line).2) := by
  have same : (line.moved move).text = line.text := rfl
  rw [step, step, same]
  cases classifyLine state.scope line.text
  rfl

theorem statementsFrom_map_moved (move : Nat → Nat) (state : Extraction)
    (lines : List LogicalLine) :
    statementsFrom state (lines.map (LogicalLine.moved move)) =
      (statementsFrom state lines).map (Statement.moved move) := by
  induction lines generalizing state with
  | nil => rfl
  | cons line rest ih =>
    rw [List.map_cons, statementsFrom, statementsFrom, state.step_moved]
    exact congrArg (_ :: ·) (ih _)

/-- A change of layout leaves what is extracted as it is, errors included, but for the numbers of
the lines that it moves. -/
theorem extract_layout {t t' : Text} {move : Nat → Nat}
    (edit : LayoutEdit (Text.lines t) (Text.lines t') move) (fits : StatementsFit (Text.lines t))
    (fits' : StatementsFit (Text.lines t')) :
    extract t' = (extract t).map (List.map (Statement.moved move)) := by
  have statements : Statement.ofText t' = (Statement.ofText t).map (Statement.moved move) := by
    rw [Statement.ofText, LogicalLine.ofText, edit.logicalLines_eq fits fits']
    exact statementsFrom_map_moved move {} (logicalLines 1 (Text.lines t))
  have deeds : ((Statement.ofText t).map (Statement.moved move)).all (fun s => s.isStructural) =
      (Statement.ofText t).all fun s => s.isStructural := List.all_map
  have excess : ((Statement.ofText t).map (Statement.moved move)).findSome? (fun s => s.excess) =
      (Statement.ofText t).findSome? fun s => s.excess := List.findSome?_map
  unfold extract
  dsimp only
  rw [statements, deeds, excess]
  split
  next => rfl
  next =>
    split
    next => rfl
    next => rfl

/-- A click whose chain goes on on the next lines. -/
def wrappedClick : Text := "await page\n  .click(\n'#save');"

def respacedClick : Text := "  await page \n.click(\n    '#save');"

def spacedClick : Text := "await page\n  .click(\n\n'#save');"

def notedClick : Text := "await page\n  .click( // it's the last one\n'#save');"

theorem extract_layout_wrappedClick : ∃ statements, extract wrappedClick = .ok statements ∧
    (statements.map fun s => (s.line, s.endLine)) = [(1, 3)] ∧
    extract respacedClick = .ok (statements.map (Statement.moved id)) ∧
    extract spacedClick = .ok (statements.map (Statement.moved (lineBehind 2))) ∧
    extract notedClick = .ok (statements.map (Statement.moved id)) := by
  obtain ⟨statements, extracted, lines⟩ := exists_ok_of_any (x := extract wrappedClick)
    (p := fun statements => statements.map (fun s => (s.line, s.endLine)) == [(1, 3)])
    (by decide +kernel)
  have fits : StatementsFit (Text.lines wrappedClick) := by decide +kernel
  have respaced : LayoutEdit (Text.lines wrappedClick) (Text.lines respacedClick) id :=
    .respace (by decide +kernel)
  have spaced : LayoutEdit (Text.lines wrappedClick) (Text.lines spacedClick) (lineBehind 2) := by
    have whole : Text.lines wrappedClick =
        (["await page", "  .click("] : List Text) ++ (["'#save');"] : List Text) := by
      decide +kernel
    have whole' : Text.lines spacedClick =
        (["await page", "  .click("] : List Text) ++ ("" : Text) :: (["'#save');"] : List Text) := by
      decide +kernel
    rw [whole, whole']
    exact .insertBlank rfl (by decide +kernel)
  have noted : LayoutEdit (Text.lines wrappedClick) (Text.lines notedClick) id := by
    have whole : Text.lines wrappedClick =
        (["await page"] : List Text) ++ ("  .click(" : Text) :: (["'#save');"] : List Text) := by
      decide +kernel
    have whole' : Text.lines notedClick = (["await page"] : List Text) ++
        (("  .click(" : Text) ++ ' ' :: '/' :: '/' :: (" it's the last one" : Text)) ::
          (["'#save');"] : List Text) := by
      decide +kernel
    rw [whole, whole']
    exact .addNote _ (by decide +kernel) (by decide +kernel) (by decide +kernel)
  refine ⟨statements, extracted, beq_iff_eq.mp lines, ?_, ?_, ?_⟩
  · rw [extract_layout respaced fits (by decide +kernel), extracted]
    rfl
  · rw [extract_layout spaced fits (by decide +kernel), extracted]
    rfl
  · rw [extract_layout noted fits (by decide +kernel), extracted]
    rfl

end PageObjects
