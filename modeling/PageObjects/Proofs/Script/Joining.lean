import PageObjects.Proofs.Script.Balance
import PageObjects.Proofs.Script.Coverage
import PageObjects.Proofs.Text.Spacing

namespace PageObjects

/-- The states that joining goes through, each with what its lines say and with the lines behind. -/
inductive JoiningReach (start : Nat) (line : Text) (lines : List Text) :
    List Text → Joining → List Text → Prop
  | start : JoiningReach start line lines [stripComment (Text.trim line)]
      (startJoining start line) lines
  | next {parts behind rest : List Text} {j : Joining} {next : Text} :
      JoiningReach start line lines parts j behind → j.isOpen start = true →
      behind.dropWhile isIdleLine = next :: rest → j.takes next = true →
      JoiningReach start line lines (parts ++ [stripComment (Text.trim next)])
        (j.extend (behind.takeWhile isIdleLine).length next) rest

/-- Whether all strings that start in a text end in it. -/
def ClosesStrings (t : Text) : Prop := Region.code.after t = .code

instance (t : Text) : Decidable (ClosesStrings t) :=
  inferInstanceAs (Decidable (Region.code.after t = .code))

theorem bracketDelta_append {s : Text} (closed : ClosesStrings s) (t : Text) :
    bracketDelta (s ++ t) = bracketDelta s + bracketDelta t := by
  rw [bracketDelta, sumCode_append, closed]
  rfl

theorem bracketDelta_space (t : Text) : bracketDelta (' ' :: t) = bracketDelta t :=
  (bracketDelta_append (rfl : ClosesStrings [' ']) t).trans (Int.zero_add _)

namespace Joining

@[simp] theorem text_extend (j : Joining) (skipped : Nat) (line : Text) :
    (j.extend skipped line).text = j.text ++ ' ' :: stripComment (Text.trim line) := rfl

@[simp] theorem depth_extend (j : Joining) (skipped : Nat) (line : Text) :
    (j.extend skipped line).depth = j.depth + bracketDelta (stripComment (Text.trim line)) := rfl

end Joining

theorem Text.joinWith_concat (sep p : Text) {ps : List Text} (filled : ps ≠ []) :
    joinWith sep (ps ++ [p]) = joinWith sep ps ++ sep ++ p := by
  induction ps with
  | nil => exact absurd rfl filled
  | cons q ps ih =>
    cases ps with
    | nil => rw [List.singleton_append, joinWith_cons_cons, joinWith_singleton, joinWith_singleton]
    | cons r ps =>
      rw [List.cons_append, List.cons_append, joinWith_cons_cons, joinWith_cons_cons,
        ← List.cons_append, ih (List.cons_ne_nil r ps)]
      simp only [List.append_assoc]

namespace JoiningReach

variable {start : Nat} {line : Text} {lines parts behind : List Text} {j : Joining}

theorem parts_ne_nil (h : JoiningReach start line lines parts j behind) : parts ≠ [] := by
  cases h with
  | start => exact List.cons_ne_nil _ _
  | next => simp

theorem text_eq (h : JoiningReach start line lines parts j behind) :
    j.text = Text.joinWith [' '] parts := by
  induction h with
  | start => exact (Text.joinWith_singleton _ _).symm
  | next h _ _ _ ih =>
    rw [Joining.text_extend, ih, Text.joinWith_concat _ _ h.parts_ne_nil, List.append_assoc]
    rfl

theorem depth_eq_foldl (h : JoiningReach start line lines parts j behind) :
    j.depth = parts.foldl (fun depth part => depth + bracketDelta part) 0 := by
  induction h with
  | start => exact (Int.zero_add _).symm
  | next _ _ _ _ ih => rw [Joining.depth_extend, ih, List.foldl_concat]

/-- Behind parts that close their strings, a scan of the joined text stands in code. -/
theorem closesStrings_text (h : JoiningReach start line lines parts j behind)
    (closed : ∀ part ∈ parts, ClosesStrings part) : ClosesStrings j.text := by
  induction h with
  | start => exact closed _ List.mem_cons_self
  | @next parts _ _ j next _ _ _ _ ih =>
    have before : ClosesStrings j.text := ih fun part hp => closed part (List.mem_append_left _ hp)
    have last : ClosesStrings (stripComment (Text.trim next)) := closed _ (by simp)
    rw [ClosesStrings, Joining.text_extend, Region.after_append, before]
    exact last

theorem depth_eq (h : JoiningReach start line lines parts j behind)
    (closed : ∀ part ∈ parts.dropLast, ClosesStrings part) : j.depth = bracketDelta j.text := by
  induction h with
  | start => rfl
  | @next parts _ _ j next h _ _ _ ih =>
    rw [List.dropLast_concat] at closed
    have before : j.depth = bracketDelta j.text :=
      ih fun part hp => closed part (List.mem_of_mem_dropLast hp)
    rw [Joining.depth_extend, Joining.text_extend, before,
      bracketDelta_append (h.closesStrings_text closed), bracketDelta_space]

theorem joiningReach_second {next : Text} {rest : List Text}
    (isOpen : (startJoining start line).isOpen start = true) (idle : isIdleLine next = false)
    (takes : (startJoining start line).takes next = true) :
    JoiningReach start line (next :: rest)
      [stripComment (Text.trim line), stripComment (Text.trim next)]
      ((startJoining start line).extend 0 next) rest := by
  have more : (next :: rest).dropWhile isIdleLine = next :: rest :=
    List.dropWhile_cons_of_neg (by rw [idle]; decide)
  have noIdle : (next :: rest).takeWhile isIdleLine = [] :=
    List.takeWhile_cons_of_neg (by rw [idle]; decide)
  have reach := JoiningReach.start.next isOpen more takes
  rw [noIdle] at reach
  exact reach

/-- Joining goes on from every state that it reaches to the same end. -/
theorem run_eq (h : JoiningReach start line lines parts j behind) :
    (startJoining start line).run start lines = j.run start behind := by
  induction h with
  | start => rfl
  | next _ isOpen more takes ih =>
    rw [ih, Joining.run, if_pos isOpen]
    split
    next noMore =>
      rw [noMore] at more
      cases more
    next first rest found =>
      obtain ⟨rfl, rfl⟩ := List.cons.inj (found.symm.trans more)
      rw [if_pos takes]

/-- The end of joining is reached. -/
theorem exists_run (h : JoiningReach start line lines parts j behind) :
    ∃ parts, JoiningReach start line lines parts (j.run start behind).1 (j.run start behind).2 := by
  fun_induction Joining.run start j behind generalizing parts with
  | case1 j behind isOpen noMore => exact ⟨parts, h⟩
  | case2 j behind isOpen next rest more takes ih => exact ih (h.next isOpen more takes)
  | case3 j behind isOpen next rest more refuses => exact ⟨parts, h⟩
  | case4 j behind stops => exact ⟨parts, h⟩

end JoiningReach

/-- Whether a line starts with a comment. -/
def isCommentLine (line : Text) : Bool :=
  List.isPrefixOf "/*" (Text.trim line) || List.isPrefixOf "//" (Text.trim line)

/-- A logical line is what stands on a line of its own, or, unless this is a comment, what joining
the lines from there on ends with. -/
def LogicalLine.StartsAt (l : LogicalLine) (line : Text) (rest : List Text) : Prop :=
  isCommentLine line = true ∨
    l.text = ((startJoining l.first line).run l.first rest).1.text ∧
      l.last = ((startJoining l.first line).run l.first rest).1.last

theorem exists_startsAt {n : Nat} {lines : List Text} {l : LogicalLine}
    (h : l ∈ logicalLines n lines) :
    ∃ k line rest, l.first = n + k ∧ lines.drop k = line :: rest ∧ l.StartsAt line rest := by
  fun_induction logicalLines n lines with
  | case1 n => cases h
  | case2 n line rest _ blank ih =>
    obtain ⟨k, other, behind, first, here, starts⟩ := ih h
    exact ⟨k + 1, other, behind, by omega, here, starts⟩
  | case3 n line rest _ filled comment block last ih =>
    rcases List.mem_cons.mp h with rfl | h
    · exact ⟨0, line, rest, rfl, rfl, .inl (by rw [isCommentLine, comment, Bool.true_or])⟩
    · obtain ⟨k, other, behind, first, here, starts⟩ := ih h
      have whole : block.1 ++ block.2 = line :: rest := commentLines_append (line :: rest)
      have taken : 0 < block.1.length := length_commentLines_pos line rest
      refine ⟨block.1.length + k, other, behind, by omega, ?_, starts⟩
      rw [← whole, ← List.drop_drop, List.drop_left]
      exact here
  | case4 n line rest _ filled _ comment ih =>
    rcases List.mem_cons.mp h with rfl | h
    · exact ⟨0, line, rest, rfl, rfl, .inl (by rw [isCommentLine, comment, Bool.or_true])⟩
    · obtain ⟨k, other, behind, first, here, starts⟩ := ih h
      exact ⟨k + 1, other, behind, by omega, here, starts⟩
  | case5 n line rest _ filled _ _ joined ih =>
    rcases List.mem_cons.mp h with rfl | h
    · exact ⟨0, line, rest, rfl, rfl, .inr ⟨rfl, rfl⟩⟩
    · obtain ⟨k, other, behind, first, here, starts⟩ := ih h
      obtain ⟨taken, fits, last, left⟩ := Joining.exists_run_eq n (startJoining n line) rest
      have reached : joined.1.last = n + taken := last
      refine ⟨taken + 1 + k, other, behind, by omega, ?_, starts⟩
      rw [← List.drop_drop, List.drop_succ_cons, ← left]
      exact here

/-- What the depth of a state says about the lines that are joined: it is what they count one by
one. If the strings of all lines but the last close on their line, it is the depth of the joined
text, and a further line is taken exactly if a bracket is open there or it goes on with a chain. -/
structure Joining.Counts (j : Joining) (parts : List Text) : Prop where
  text : j.text = Text.joinWith [' '] parts
  depth : j.depth = parts.foldl (fun depth part => depth + bracketDelta part) 0
  real : (∀ part ∈ parts.dropLast, ClosesStrings part) → j.depth = bracketDelta j.text
  takes : (∀ part ∈ parts.dropLast, ClosesStrings part) → ∀ next, j.takes next = true ↔
    0 < bracketDelta j.text ∨ Text.startsWithAny [".", "?."] (Text.trim next) = true

theorem JoiningReach.joiningReach_counts {start : Nat} {line : Text}
    {lines parts behind : List Text}
    {j : Joining} (h : JoiningReach start line lines parts j behind) : j.Counts parts := by
  have real : (∀ part ∈ parts.dropLast, ClosesStrings part) → j.depth = bracketDelta j.text :=
    h.depth_eq
  refine ⟨h.text_eq, h.depth_eq_foldl, real, ?_⟩
  intro closed next
  rw [← real closed, Joining.takes, Bool.or_eq_true, decide_eq_true_eq]

/-- A logical line that is no comment is the end of joining, and every state on the way there counts
the depth of its lines. -/
theorem joining_counts_depth {t : Text} {l : LogicalLine} (hl : l ∈ LogicalLine.ofText t) :
    ∃ line rest, (Text.lines t).drop (l.first - 1) = line :: rest ∧
      (isCommentLine line = false →
        (∃ parts j behind, JoiningReach l.first line rest parts j behind ∧
          (startJoining l.first line).run l.first rest = (j, behind) ∧
          l.text = j.text ∧ l.last = j.last) ∧
        ∀ parts j behind, JoiningReach l.first line rest parts j behind →
          (startJoining l.first line).run l.first rest = j.run l.first behind ∧
          j.Counts parts) := by
  obtain ⟨k, line, rest, first, here, starts⟩ := exists_startsAt hl
  have place : l.first - 1 = k := by omega
  refine ⟨line, rest, place ▸ here, ?_⟩
  intro noComment
  rcases starts with comment | ⟨text, last⟩
  · rw [noComment] at comment
    cases comment
  · have begun : JoiningReach l.first line rest _ _ rest := .start
    obtain ⟨parts, reached⟩ := begun.exists_run
    exact ⟨⟨parts, _, _, reached, rfl, text, last⟩,
      fun parts j behind reach => ⟨reach.run_eq, reach.joiningReach_counts⟩⟩

/-- A call whose argument stands on a line of its own. -/
def wrappedCall : Text := "page.click(\n  'a'\n);"

theorem joining_counts_depth_wrappedCall :
    (⟨1, 3, "page.click( 'a' );"⟩ : LogicalLine) ∈ LogicalLine.ofText wrappedCall ∧
      ∃ parts j, JoiningReach 1 "page.click(" ["  'a'", ");"] parts j [");"] ∧
        j.depth = bracketDelta "page.click( 'a'" ∧ j.takes ");" = true := by
  have member : (⟨1, 3, "page.click( 'a' );"⟩ : LogicalLine) ∈ LogicalLine.ofText wrappedCall := by
    decide +kernel
  refine ⟨member, ?_⟩
  obtain ⟨line, rest, here, counts⟩ := joining_counts_depth member
  have lines : (Text.lines wrappedCall).drop 0 = ["page.click(", "  'a'", ");"] := by
    decide +kernel
  obtain ⟨rfl, rfl⟩ := List.cons.inj (here.symm.trans lines)
  obtain ⟨-, states⟩ := counts (by decide +kernel)
  have reach : JoiningReach 1 "page.click(" ["  'a'", ");"] _ _ [");"] :=
    .joiningReach_second (by decide +kernel) (by decide +kernel) (by decide +kernel)
  obtain ⟨-, counted⟩ := states _ _ _ reach
  have closed : ∀ part ∈ (["page.click(", "'a'"] : List Text).dropLast, ClosesStrings part := by
    decide +kernel
  exact ⟨_, _, reach, counted.real closed,
    (counted.takes closed ");").mpr (.inl (by decide +kernel))⟩

/-- A call whose template text goes on on the next line, and a click behind it. -/
def templateCall : Text := "page.evaluate(\x60(\n\x60);\npage.click('#a');"

/-- Scanned on its own, the second line opens the string that it closes, and hides the bracket. So
the statement in front takes the click, though it has no bracket open. -/
theorem joining_miscounts_templateCall :
    ∃ l ∈ LogicalLine.ofText templateCall, l.first = 1 ∧ l.last = 3 ∧
      ∃ line second third parts j, Text.lines templateCall = [line, second, third] ∧
        isCommentLine line = false ∧ JoiningReach 1 line [second, third] parts j [third] ∧
        j.depth = 1 ∧ bracketDelta j.text = 0 ∧ j.takes third = true ∧
        Text.startsWithAny [".", "?."] (Text.trim third) = false := by
  have reach : JoiningReach 1 "page.evaluate(\x60(" ["\x60);", "page.click('#a');"] _ _
      ["page.click('#a');"] :=
    .joiningReach_second (by decide +kernel) (by decide +kernel) (by decide +kernel)
  refine ⟨⟨1, 3, "page.evaluate(\x60( \x60); page.click('#a');"⟩, by decide +kernel, rfl, rfl,
    _, _, _, _, _, ?_, ?_, reach, ?_⟩
  all_goals decide +kernel

end PageObjects
