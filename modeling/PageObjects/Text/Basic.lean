namespace PageObjects

/-- A text is the list of its characters. -/
abbrev Text := List Char

instance : Coe String Text := ⟨String.toList⟩

/-- White space, the four information separators and the next-line character included. -/
def isBlank (c : Char) : Bool :=
  let n := c.toNat
  (9 ≤ n && n ≤ 13) || (28 ≤ n && n ≤ 32) || n == 0x85 || n == 0xA0 || n == 0x1680 ||
    (0x2000 ≤ n && n ≤ 0x200A) || n == 0x2028 || n == 0x2029 || n == 0x202F || n == 0x205F ||
    n == 0x3000

/-- Characters that end a line. -/
def isLineBreak (c : Char) : Bool :=
  let n := c.toNat
  (10 ≤ n && n ≤ 13) || (28 ≤ n && n ≤ 30) || n == 0x85 || n == 0x2028 || n == 0x2029

namespace Text

/-- The pieces between the characters at which `sep` holds; neighbouring separators leave an empty
piece between them. -/
def pieces (sep : Char → Bool) : Text → List Text
  | [] => [[]]
  | c :: r =>
    if sep c then [] :: pieces sep r
    else match pieces sep r with
      | [] => [[c]]
      | p :: ps => (c :: p) :: ps

/-- The maximal runs of characters that are not blank. -/
def splitBlank (t : Text) : List Text :=
  (pieces isBlank t).filter fun p => !p.isEmpty

/-- Drops the end of `t` on which `p` holds. -/
def dropEndWhile (p : Char → Bool) (t : Text) : Text :=
  (t.reverse.dropWhile p).reverse

/-- Drops both ends of `t` on which `p` holds. -/
def stripWhile (p : Char → Bool) (t : Text) : Text :=
  dropEndWhile p (t.dropWhile p)

def trimStart (t : Text) : Text := t.dropWhile isBlank

def trimEnd (t : Text) : Text := dropEndWhile isBlank t

def trim (t : Text) : Text := stripWhile isBlank t

/-- Every run of blanks becomes one space, and the ends lose theirs. -/
def squeeze (t : Text) : Text := List.intercalate [' '] (splitBlank t)

def joinWith (sep : Text) (parts : List Text) : Text := List.intercalate sep parts

/-- Whether `needle` occurs in the text. -/
def includes (needle : Text) : Text → Bool
  | [] => needle.isEmpty
  | c :: r => needle.isPrefixOf (c :: r) || includes needle r

/-- The text with each occurrence of `a` followed by `b`, read from the left, written as `new`. -/
def replacePair (a b : Char) (new : Text) : Text → Text
  | x :: y :: r =>
    if x = a ∧ y = b then new ++ replacePair a b new r else x :: replacePair a b new (y :: r)
  | t => t

/-- What follows `lead`, if the text starts with it. -/
def dropPrefix? (lead t : Text) : Option Text :=
  if lead.isPrefixOf t then some (t.drop lead.length) else none

/-- What follows `lead`, or the whole text. -/
def dropPrefix (lead t : Text) : Text := (dropPrefix? lead t).getD t

/-- What follows the first of the words in `leads` that the text starts with. -/
def dropAnyPrefix? (leads : List Text) (t : Text) : Option Text :=
  leads.findSome? fun lead => dropPrefix? lead t

def startsWithAny (leads : List Text) (t : Text) : Bool := leads.any fun lead => lead.isPrefixOf t

def endsWithAny (tails : List Text) (t : Text) : Bool := tails.any fun tail => tail.isSuffixOf t

/-- A carriage return with its line feed counts as one line feed. -/
def unifyBreaks : Text → Text
  | '\r' :: '\n' :: r => '\n' :: unifyBreaks r
  | c :: r => c :: unifyBreaks r
  | [] => []

/-- A carriage return, alone or with its line feed, counts as a line feed. -/
def readBreaks (t : Text) : Text := (unifyBreaks t).map fun c => if c = '\r' then '\n' else c

/-- The lines of a text without their breaks; a break at the very end opens no further line. -/
def lines (t : Text) : List Text :=
  let ps := pieces isLineBreak (unifyBreaks t)
  if ps.getLast? = some [] then ps.dropLast else ps

/-- What stands before the first `c` and, if there is one, what stands after it. -/
def cutAt (c : Char) : Text → Text × Option Text
  | [] => ([], none)
  | x :: r => if x = c then ([], some r) else let (a, b) := cutAt c r; (x :: a, b)

/-- All ends of a text, from the whole of it to the empty one. -/
def suffixes : Text → List Text
  | [] => [[]]
  | c :: r => (c :: r) :: suffixes r

/-- Order by code point, a text before its extensions. -/
def precedesOrEq : Text → Text → Bool
  | [], _ => true
  | _ :: _, [] => false
  | a :: r, b :: s => if a = b then precedesOrEq r s else a.toNat < b.toNat

/-- Decimal digits of a number. -/
def ofNat (n : Nat) : Text := Nat.toDigits 10 n

def ofInt (n : Int) : Text := if n < 0 then '-' :: ofNat n.natAbs else ofNat n.natAbs

end Text

/-- ASCII letters. -/
def isLetter (c : Char) : Bool := c.isAlpha

/-- A range of code points, both ends included. -/
abbrev CodeRange := Nat × Nat

/-- Whether a code point lies in one of the ranges. -/
def inRanges (ranges : List CodeRange) (n : Nat) : Bool :=
  ranges.any fun r => r.1 ≤ n && n ≤ r.2

end PageObjects
