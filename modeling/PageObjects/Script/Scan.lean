import PageObjects.Text.Basic

namespace PageObjects

/-- Where a scan stands between two characters. -/
inductive Region where
  | code
  | string (quote : Char)
  | escape (quote : Char)
  deriving DecidableEq, Repr

def isQuote (c : Char) : Bool := c == '\'' || c == '"' || c == '`'

def isOpener (c : Char) : Bool := c == '(' || c == '[' || c == '{'

def isCloser (c : Char) : Bool := c == ')' || c == ']' || c == '}'

namespace Region

/-- Where the scan stands after a character. -/
def next : Region → Char → Region
  | code, c => if isQuote c then string c else code
  | string q, c => if c = '\\' then escape q else if c = q then code else string q
  | escape q, _ => string q

/-- Whether a character, quotes included, belongs to a string. -/
def covers : Region → Char → Bool
  | code, c => isQuote c
  | _, _ => true

/-- Where the scan stands after a text. -/
def after (region : Region) (t : Text) : Region := t.foldl next region

end Region

/-- How a character changes the bracket depth. -/
def bracketStep (c : Char) : Int := if isOpener c then 1 else if isCloser c then -1 else 0

def braceStep (c : Char) : Int := if c = '{' then 1 else if c = '}' then -1 else 0

/-- The sum of `step` over the characters outside strings. -/
def sumCode (step : Char → Int) : Region → Text → Int
  | _, [] => 0
  | region, c :: r =>
    (if region.covers c then 0 else step c) + sumCode step (region.next c) r

/-- Opened less closed brackets of any kind outside strings. -/
def bracketDelta (t : Text) : Int := sumCode bracketStep .code t

/-- Opened less closed curly brackets outside strings. -/
def braceDelta (t : Text) : Int := sumCode braceStep .code t

/-- The first index from `start` on at which a closing bracket brings the depth to zero. The depth
counts from `start` on; `index` is that of the first character of the text. -/
def closingIndex (start : Int) (region : Region) (depth : Int) (index : Nat) : Text → Option Nat
  | [] => none
  | c :: r =>
    if (index : Int) < start || region.covers c then
      closingIndex start (region.next c) depth (index + 1) r
    else if isCloser c && depth == 1 then some index
    else closingIndex start (region.next c) (depth + bracketStep c) (index + 1) r

/-- The index of the bracket that closes the one at `start`. -/
def matchingIndex? (t : Text) (start : Int) : Option Nat := closingIndex start .code 0 0 t

/-- Cuts a text at the bracket that closes `depth` open ones: what stands before and behind it. -/
def cutAtCloser (region : Region) (depth : Nat) : Text → Option (Text × Text)
  | [] => none
  | c :: r =>
    if !region.covers c && isCloser c && depth == 1 then some ([], r)
    else
      let depth := if region.covers c then depth
        else if isOpener c then depth + 1
        else if isCloser c then depth - 1
        else depth
      (cutAtCloser (region.next c) depth r).map fun (inner, rest) => (c :: inner, rest)

/-- The text before a `//` comment that starts outside strings. `back` holds the characters before
the text, the last one first, and `slash` tells whether the last one was a slash in code. A slash
pair behind a backslash is no comment. -/
def beforeComment? (region : Region) (back : Text) (slash : Bool) : Text → Option Text
  | [] => none
  | c :: r =>
    let isCode := !region.covers c
    if isCode && c == '/' && slash && back[1]? != some '\\' then
      some (Text.trimEnd (back.drop 1).reverse)
    else beforeComment? (region.next c) (c :: back) (isCode && c == '/') r

/-- A line without the comment at its end. -/
def stripComment (line : Text) : Text := (beforeComment? .code [] false line).getD line

/-- Whether a text is blank or a comment only. -/
def isIdleTail (t : Text) : Bool :=
  let rest := Text.trim t
  rest.isEmpty || List.isPrefixOf "//" rest

/-- Whether a semicolon outside brackets is followed by more code. -/
def hasSecondStatement (region : Region) (depth : Int) : Text → Bool
  | [] => false
  | c :: r =>
    if region.covers c then hasSecondStatement (region.next c) depth r
    else if c = ';' ∧ depth = 0 ∧ isIdleTail r = false then true
    else hasSecondStatement (region.next c) (depth + bracketStep c) r

/-- Whether a text holds several statements on its outermost level. -/
def hasMultipleStatements (t : Text) : Bool := hasSecondStatement .code 0 t

/-- How a character in a region changes the bracket depth. -/
def codeStep (region : Region) (c : Char) : Int := if region.covers c then 0 else bracketStep c

/-- Whether a character outside strings and brackets separates. -/
def separates (sep : Char → Bool) (region : Region) (depth : Int) (c : Char) : Bool :=
  !region.covers c && bracketStep c == 0 && depth == 0 && sep c

/-- The pieces between the separators that stand outside strings and brackets, as they are. -/
def topLevelPieces (sep : Char → Bool) (region : Region) (depth : Int) : Text → List Text
  | [] => [[]]
  | c :: r =>
    if separates sep region depth c then [] :: topLevelPieces sep (region.next c) depth r
    else match topLevelPieces sep (region.next c) (depth + codeStep region c) r with
      | [] => [[c]]
      | p :: ps => (c :: p) :: ps

/-- The arguments that separators outside strings and brackets cut apart, trimmed, without the
blank ones. -/
def splitTopLevel (sep : Char → Bool) (t : Text) : List Text :=
  ((topLevelPieces sep .code 0 t).map Text.trim).filter fun p => !p.isEmpty

def isComma (c : Char) : Bool := c == ','

def isColon (c : Char) : Bool := c == ':'

/-- The arguments of a call. -/
def splitArguments (t : Text) : List Text := splitTopLevel isComma t

end PageObjects
