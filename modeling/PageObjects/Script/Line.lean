import PageObjects.Script.Scan
import PageObjects.Text.Search

namespace PageObjects

/-- The words that open a block without brackets before it. -/
def blockWords : List Text := ["else", "try", "do", "finally"]

/-- Whether a text ends by opening a block: a curly bracket behind an arrow, a closing bracket or
one of the block words. -/
def opensBlock (t : Text) : Bool :=
  match (Text.trimEnd t).reverse with
  | '{' :: r =>
    let before := Text.trimEnd r.reverse
    Text.endsWithAny ["=>", ")"] before || Text.endsWithWord blockWords before
  | _ => false

/-- Lines from `first` to `last`, numbered from one, and what they say together. -/
structure LogicalLine where
  first : Nat
  last : Nat
  text : Text
  deriving DecidableEq, Repr

/-- A line that stands between the lines of a statement without belonging to it. -/
def isIdleLine (line : Text) : Bool :=
  let t := Text.trim line
  t.isEmpty || List.isPrefixOf "//" t

/-- The lines of a block comment, and the lines behind it. A comment that is not closed takes all
of them. -/
def commentLines : List Text → List Text × List Text
  | [] => ([], [])
  | line :: rest =>
    if Text.includes "*/" line then ([line], rest)
    else
      let (block, behind) := commentLines rest
      (line :: block, behind)

/-- A statement while its lines are joined: its text so far, the bracket depth counted line by
line, and the number of its last line. -/
structure Joining where
  text : Text
  depth : Int
  last : Nat
  deriving DecidableEq, Repr

/-- A statement spans at most this many lines beyond its first. -/
def maxStatementLines : Nat := 60

namespace Joining

/-- Whether a statement that began on line `start` may go on. -/
def isOpen (start : Nat) (j : Joining) : Bool :=
  !opensBlock j.text && j.last - start < maxStatementLines

/-- Whether the next line that is not idle belongs to the statement. -/
def takes (j : Joining) (line : Text) : Bool :=
  0 < j.depth || Text.startsWithAny [".", "?."] (Text.trim line)

/-- The statement with a further line, which comes after `skipped` idle ones. -/
def extend (j : Joining) (skipped : Nat) (line : Text) : Joining :=
  let part := stripComment (Text.trim line)
  { text := j.text ++ ' ' :: part
    depth := j.depth + bracketDelta part
    last := j.last + skipped + 1 }

/-- Joins lines to a statement for as long as they belong to it; the lines left over follow. -/
def run (start : Nat) (j : Joining) (lines : List Text) : Joining × List Text :=
  if j.isOpen start then
    match _hrest : lines.dropWhile isIdleLine with
    | [] => (j, lines)
    | line :: rest =>
      if j.takes line then run start (j.extend (lines.takeWhile isIdleLine).length line) rest
      else (j, lines)
  else (j, lines)
termination_by lines.length
decreasing_by
  have h := (List.dropWhile_suffix isIdleLine (l := lines)).length_le
  rw [_hrest] at h
  simp only [List.length_cons] at h
  omega

theorem length_run_le (start : Nat) (j : Joining) (lines : List Text) :
    (run start j lines).2.length ≤ lines.length := by
  fun_induction run start j lines with
  | case1 => simp
  | case2 j lines _ line rest hrest _ ih =>
    have h := (List.dropWhile_suffix isIdleLine (l := lines)).length_le
    rw [hrest] at h
    simp only [List.length_cons] at h
    omega
  | case3 => simp
  | case4 => simp

end Joining

theorem length_commentLines_le (lines : List Text) :
    (commentLines lines).2.length ≤ lines.length := by
  induction lines with
  | nil => simp [commentLines]
  | cons line rest ih =>
    rw [commentLines]
    split
    · simp
    · simp only [List.length_cons]
      omega

theorem length_commentLines_lt (line : Text) (rest : List Text) :
    (commentLines (line :: rest)).2.length < (line :: rest).length := by
  rw [commentLines]
  split
  · simp
  · have := length_commentLines_le rest
    simp only [List.length_cons]
    omega

/-- The statement that starts on a line which is neither blank nor a comment. -/
def startJoining (n : Nat) (line : Text) : Joining :=
  let first := stripComment (Text.trim line)
  { text := first, depth := bracketDelta first, last := n }

/-- The logical lines of physical ones, the first of which has number `n`. Blank lines between
statements are dropped. -/
def logicalLines (n : Nat) (lines : List Text) : List LogicalLine :=
  match lines with
  | [] => []
  | line :: rest =>
    let stripped := Text.trim line
    if stripped.isEmpty then logicalLines (n + 1) rest
    else if List.isPrefixOf "/*" stripped then
      let block := commentLines (line :: rest)
      let last := n + block.1.length - 1
      ⟨n, last, Text.joinWith [' '] (block.1.map Text.trim)⟩ :: logicalLines (last + 1) block.2
    else if List.isPrefixOf "//" stripped then
      ⟨n, n, stripped⟩ :: logicalLines (n + 1) rest
    else
      let joined := (startJoining n line).run n rest
      ⟨n, joined.1.last, joined.1.text⟩ :: logicalLines (joined.1.last + 1) joined.2
termination_by lines.length
decreasing_by
  · simp
  · exact length_commentLines_lt line rest
  · simp
  · have := Joining.length_run_le n (startJoining n line) rest
    simp only [List.length_cons]
    omega

/-- The logical lines of a text. -/
def LogicalLine.ofText (t : Text) : List LogicalLine := logicalLines 1 (Text.lines t)

end PageObjects
