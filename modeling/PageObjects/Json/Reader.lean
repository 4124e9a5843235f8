import PageObjects.Json.Basic
import PageObjects.Text.Digit

namespace PageObjects

namespace Json

inductive Problem where
  | expectingValue
  | expectingName
  | expectingColon
  | expectingComma
  | extraData
  | controlCharacter
  | unterminatedString
  | invalidEscape
  | invalidUnicodeEscape
  | byteOrderMark
  deriving DecidableEq, Repr

def Problem.message : Problem → Text
  | expectingValue => "Expecting value"
  | expectingName => "Expecting property name enclosed in double quotes"
  | expectingColon => "Expecting ':' delimiter"
  | expectingComma => "Expecting ',' delimiter"
  | extraData => "Extra data"
  | controlCharacter => "Invalid control character at"
  | unterminatedString => "Unterminated string starting at"
  | invalidEscape => "Invalid \\escape"
  | invalidUnicodeEscape => "Invalid \\uXXXX escape"
  | byteOrderMark => "Unexpected UTF-8 BOM (decode using utf-8-sig)"

/-- A fault, and what remains of the text from the place where it is. -/
structure Fault where
  problem : Problem
  rest : Text
  deriving Repr

/-- Why a text is not read: there is a fault in it, or something in it is too much. -/
inductive ReadError where
  | fault (fault : Fault)
  | excess (error : Excess)
  deriving Repr

/-- What a reader returns: a value and the text behind it. -/
abbrev Reading (α : Type) := Except ReadError (α × Text)

/-- A fault where `rest` remains of the text. -/
def fail {α : Type} (problem : Problem) (rest : Text) : Except ReadError α :=
  .error (.fault ⟨problem, rest⟩)

def isSpace (c : Char) : Bool := c == ' ' || c == '\t' || c == '\n' || c == '\r'

def skipSpace (t : Text) : Text := t.dropWhile isSpace

def hexValue? (c : Char) : Option Nat :=
  if c.isDigit then some (c.toNat - '0'.toNat)
  else if 'a' ≤ c ∧ c ≤ 'f' then some (c.toNat - 'a'.toNat + 10)
  else if 'A' ≤ c ∧ c ≤ 'F' then some (c.toNat - 'A'.toNat + 10)
  else none

def hexUnit? (a b c d : Char) : Option Nat := do
  return ((← hexValue? a) * 16 + (← hexValue? b)) * 256 + (← hexValue? c) * 16 + (← hexValue? d)

def shortEscape? : Char → Option Char
  | '"' => some '"'
  | '\\' => some '\\'
  | '/' => some '/'
  | 'b' => some (Char.ofNat 8)
  | 'f' => some (Char.ofNat 12)
  | 'n' => some '\n'
  | 'r' => some '\r'
  | 't' => some '\t'
  | _ => none

/-- A unit of a surrogate pair that stands alone. -/
def loneUnit : Char := Char.ofNat 0xFFFD

/-- The character of an escaped unit and the text behind it; a high surrogate takes a low one that
follows it. At least one character has to follow the digits. -/
def readUnicode (escape : Text) : Text → Reading Char
  | a :: b :: c :: d :: x :: r =>
    match hexUnit? a b c d with
    | none => fail .invalidUnicodeEscape escape
    | some n =>
      if 0xD800 ≤ n ∧ n < 0xDC00 then
        match x :: r with
        | '\\' :: 'u' :: e :: f :: g :: h :: y :: s =>
          match hexUnit? e f g h with
          | none => fail .invalidUnicodeEscape ((x :: r).drop 1)
          | some m =>
            if 0xDC00 ≤ m ∧ m < 0xE000 then
              .ok (Char.ofNat (0x10000 + (n - 0xD800) * 0x400 + (m - 0xDC00)), y :: s)
            else .ok (loneUnit, x :: r)
        | _ => .ok (loneUnit, x :: r)
      else if 0xDC00 ≤ n ∧ n < 0xE000 then .ok (loneUnit, x :: r)
      else .ok (Char.ofNat n, x :: r)
  | _ => fail .invalidUnicodeEscape escape

/-- The rest of a string whose opening quote begins `start`; `done` holds the characters read so
far, the last one first. -/
def readString (start : Text) : Nat → Text → Text → Reading Text
  | 0, _, _ => fail .unterminatedString start
  | fuel + 1, done, t =>
    match t with
    | [] => fail .unterminatedString start
    | '"' :: r => .ok (done.reverse, r)
    | '\\' :: [] => fail .unterminatedString start
    | '\\' :: 'u' :: r =>
      match readUnicode ('u' :: r) r with
      | .error e => .error e
      | .ok (c, s) => readString start fuel (c :: done) s
    | '\\' :: c :: r =>
      match shortEscape? c with
      | none => fail .invalidEscape ('\\' :: c :: r)
      | some x => readString start fuel (x :: done) r
    | c :: r =>
      if c.toNat ≤ 0x1F then fail .controlCharacter (c :: r)
      else readString start fuel (c :: done) r

/-- Digits at the start of a text and what follows them. -/
def digitRun (t : Text) : Text × Text := (t.takeWhile Char.isDigit, t.dropWhile Char.isDigit)

def digitsValue (ds : Text) : Nat := ds.foldl (fun n c => 10 * n + (c.toNat - '0'.toNat)) 0

/-- The fraction behind the digits of a number. -/
def fractionRun : Text → Text × Text
  | '.' :: c :: r => if c.isDigit then digitRun (c :: r) else ([], '.' :: c :: r)
  | t => ([], t)

/-- The exponent of a number, if one is written. -/
def exponentRun (t : Text) : Option Int × Text :=
  match t with
  | e :: r =>
    if e = 'e' ∨ e = 'E' then
      let (negative, r') := match r with
        | '-' :: s => (true, s)
        | '+' :: s => (false, s)
        | s => (false, s)
      let (ds, s) := digitRun r'
      if ds.isEmpty then (none, t)
      else (some (if negative then -(digitsValue ds : Int) else digitsValue ds), s)
    else (none, t)
  | [] => (none, t)

/-- A number; it is an integer unless it has a fraction or an exponent. Only the digits of an
integer can be too many. -/
def readNumber (t : Text) : Reading Json :=
  let (negative, body) := match t with
    | '-' :: r => (true, r)
    | r => (false, r)
  let (whole, r) := match body with
    | '0' :: r => (['0'], r)
    | r => digitRun r
  if whole.isEmpty then fail .expectingValue t
  else
    let (fraction, r) := fractionRun r
    let (exponent, r) := exponentRun r
    if fraction.isEmpty && exponent.isNone then
      match Text.digitExcess? whole with
      | some e => .error (.excess e)
      | none =>
        let n : Int := digitsValue whole
        .ok (.int (if negative then -n else n), r)
    else
      let digits := digitsValue (whole ++ fraction)
      .ok (.real (Binary64.ofDecimal negative digits (exponent.getD 0 - fraction.length)), r)

/-- The words that stand for values. -/
def namedValues : List (Text × Json) := [
  ("null", .null), ("true", .bool true), ("false", .bool false), ("NaN", .real .nan),
  ("Infinity", .real (.infinite false)), ("-Infinity", .real (.infinite true))]

mutual

/-- A value at the start of a text, with room for so many values within each other. A nested value
takes two units of fuel and at least one character. -/
def readValue : Nat → Nat → Text → Reading Json
  | 0, _, t => fail .expectingValue t
  | fuel + 1, room, t =>
    match t with
    | '"' :: r =>
      match readString t (r.length + 1) [] r with
      | .error e => .error e
      | .ok (s, r) => .ok (.text s, r)
    | '{' :: r =>
      match room, skipSpace r with
      | 0, _ => .error (.excess .nesting)
      | _ + 1, '}' :: s => .ok (.object [], s)
      | room + 1, s => readFields fuel room [] s
    | '[' :: r =>
      match room, skipSpace r with
      | 0, _ => .error (.excess .nesting)
      | _ + 1, ']' :: s => .ok (.list [], s)
      | room + 1, s => readItems fuel room [] s
    | _ =>
      match namedValues.findSome? fun (word, value) =>
          (Text.dropPrefix? word t).map fun r => (value, r) with
      | some reading => .ok reading
      | none => readNumber t

/-- The rest of an object, the fields before it given. A repeated name keeps its first place. -/
def readFields : Nat → Nat → List (Text × Json) → Text → Reading Json
  | 0, _, _, t => fail .expectingName t
  | fuel + 1, room, fields, t =>
    match t with
    | '"' :: r =>
      match readString t (r.length + 1) [] r with
      | .error e => .error e
      | .ok (key, r) =>
        match skipSpace r with
        | ':' :: r =>
          match readValue fuel room (skipSpace r) with
          | .error e => .error e
          | .ok (value, r) =>
            let fields := setEntry key value fields
            match skipSpace r with
            | '}' :: s => .ok (.object fields, s)
            | ',' :: s => readFields fuel room fields (skipSpace s)
            | s => fail .expectingComma s
        | r => fail .expectingColon r
    | _ => fail .expectingName t

/-- The rest of a list, the items before it given with the last one first. -/
def readItems : Nat → Nat → List Json → Text → Reading Json
  | 0, _, _, t => fail .expectingValue t
  | fuel + 1, room, items, t =>
    match readValue fuel room t with
    | .error e => .error e
    | .ok (item, r) =>
      match skipSpace r with
      | ']' :: s => .ok (.list (item :: items).reverse, s)
      | ',' :: s => readItems fuel room (item :: items) (skipSpace s)
      | s => fail .expectingComma s

end

/-- Line, column and index of the place at which `rest` remains of `whole`. -/
def place (whole rest : Text) : Nat × Nat × Nat :=
  let before := whole.take (whole.length - rest.length)
  let column := (before.reverse.takeWhile (· != '\n')).length + 1
  (before.count '\n' + 1, column, before.length)

/-- What is wrong with a text, and where. -/
def Fault.message (whole : Text) (fault : Fault) : Text :=
  let (line, column, index) := place whole fault.rest
  fault.problem.message ++ ": line " ++ Text.ofNat line ++ " column " ++ Text.ofNat column ++
    " (char " ++ Text.ofNat index ++ [')']

/-- The value that a whole text writes. -/
def read (t : Text) : Except ReadError Json :=
  if t.head? = some (Char.ofNat 0xFEFF) then fail .byteOrderMark t
  else
    match readValue (2 * t.length + 2) stackRoom (skipSpace t) with
    | .error e => .error e
    | .ok (value, r) =>
      match skipSpace r with
      | [] => .ok value
      | s => fail .extraData s

end Json

end PageObjects
