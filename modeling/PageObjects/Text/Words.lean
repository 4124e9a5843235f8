import PageObjects.Text.Case
import PageObjects.Text.Digit

namespace PageObjects

/-- The kinds of characters that words are made of. -/
inductive LetterKind where
  | capital | small | digit
  deriving DecidableEq, Repr

def letterKind? (c : Char) : Option LetterKind :=
  if c.isUpper then some .capital
  else if c.isLower then some .small
  else if isDecimal c then some .digit
  else none

/-- Whether `c` and the first character of what follows it stand in one word. A capital before a
small letter starts its word, so that the last of several capitals leaves the others. -/
def joinsNext (c : Char) : Text → Bool
  | [] => false
  | d :: r =>
    match letterKind? c, letterKind? d with
    | some .capital, some .small => true
    | some .capital, some .capital => (r.head?.bind letterKind?) != some .small
    | some .small, some .small => true
    | some .digit, some .digit => true
    | _, _ => false

namespace Text

/-- The words of a text as they are written. -/
def wordRuns : Text → List Text
  | [] => []
  | c :: r =>
    if (letterKind? c).isNone then wordRuns r
    else if joinsNext c r then
      match wordRuns r with
      | [] => [[c]]
      | w :: ws => (c :: w) :: ws
    else [c] :: wordRuns r

/-- The words of a text in small letters. -/
def words (t : Text) : List Text := (wordRuns t).map fun w => w.map Char.toLower

end Text

/-- The words of a text that may be absent. -/
def wordsOf (t : Option Text) : List Text := Text.words (t.getD [])

/-- Names are made of at most this many words. -/
def maxNameWords : Nat := 4

/-- `saveUserData`: the first word in small letters, each further one capitalized. -/
def camel (words : List Text) : Text :=
  match (words.filter fun w => !w.isEmpty).take maxNameWords with
  | [] => []
  | w :: ws => Text.lower w ++ ws.flatMap Text.capitalize

/-- `SaveUserData`: every word capitalized. -/
def pascal (words : List Text) : Text :=
  (words.take maxNameWords).flatMap Text.capitalize

/-- `save-user-data`: the words of the text in small letters with hyphens between them. -/
def kebab (t : Text) : Text :=
  Text.joinWith ['-'] ((Text.words t).take maxNameWords)

end PageObjects
