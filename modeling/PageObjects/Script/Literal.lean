import PageObjects.Script.Size
import PageObjects.Json.Basic
import PageObjects.Text.Digit
import PageObjects.Decimal.Binary64

namespace PageObjects

/-- The value of a literal. A regular expression is kept as its source text. -/
inductive Literal where
  | null
  | bool (value : Bool)
  | int (value : Int)
  | real (value : Binary64)
  | text (value : Text)
  | list (items : List Literal)
  deriving Repr, Inhabited

/-- A text as a string literal in single quotes. -/
def quote (t : Text) : Text :=
  '\'' :: t.flatMap (fun c =>
    if c = '\\' then ['\\', '\\']
    else if c = '\'' then ['\\', '\'']
    else if c = '\n' then ['\\', 'n']
    else [c]) ++ ['\'']

namespace Literal

/-- Whether the string whose inside starts a text ends exactly where the text does. `quote` is its
quotation mark and `region` tells where the scan of the inside stands. -/
def closesAtEnd (quote : Char) (region : Region) : Text → Bool
  | [] => false
  | [c] => region.covers c && c == quote
  | c :: r => region.covers c && closesAtEnd quote (region.next c) r

/-- Whether a text is one quoted string and nothing else. -/
def isSingleString : Text → Bool
  | [] => false
  | c :: r => isQuote c && closesAtEnd c (.string c) r

/-- The characters that the escapes of a string stand for. The escapes are undone one kind after
the other: quotes, the line feed, and the backslash last. -/
def unescape (t : Text) : Text :=
  Text.replacePair '\\' '\\' ['\\'] <| Text.replacePair '\\' 'n' ['\n'] <|
    Text.replacePair '\\' '`' ['`'] <| Text.replacePair '\\' '"' ['"'] <|
      Text.replacePair '\\' '\'' ['\''] t

/-- The number that a text writes: decimal digits with an optional sign and fraction. A whole
number with too many digits is none. -/
def number? (t : Text) : Option Literal :=
  let (negative, body) := match t with
    | '-' :: r => (true, r)
    | r => (false, r)
  let whole := body.takeWhile isDecimal
  if whole.isEmpty then none
  else match body.dropWhile isDecimal with
    | [] => (Text.natural? whole).map fun (n : Nat) => .int (if negative then -n else n)
    | '.' :: fraction =>
      if !fraction.isEmpty && fraction.all isDecimal then
        some (.real (Binary64.ofDecimal negative (Text.toNat (whole ++ fraction))
          (-(fraction.length : Int))))
      else none
    | _ => none

/-- What is too much about a text that is a whole number. -/
def numberExcess? (t : Text) : Option Excess :=
  let digits := Text.dropPrefix ['-'] t
  if digits.all isDecimal then Text.digitExcess? digits else none

/-- The letters that may follow a regular expression. -/
def isPatternFlag (c : Char) : Bool := List.elem c ("dgimsuy" : Text)

/-- The body and the flags of a regular expression literal: the body ends at the last slash that
only flags follow, is not empty and stays on one line. -/
def patternParts? : Text → Option (Text × Text)
  | '/' :: r =>
    let flags := (r.reverse.takeWhile isPatternFlag).reverse
    match r.reverse.dropWhile isPatternFlag with
    | '/' :: b => if b.isEmpty || List.elem '\n' b then none else some (b.reverse, flags)
    | _ => none
  | _ => none

/-- The items within the brackets of an array. -/
def arrayItems? : Text → Option (List Text)
  | '[' :: r => if r.getLast? = some ']' then some (splitArguments r.dropLast) else none
  | _ => none

theorem length_lt_of_mem_arrayItems {t p : Text} {items : List Text}
    (h : arrayItems? t = some items) (hp : p ∈ items) : p.length < t.length := by
  rw [arrayItems?.eq_def] at h
  split at h
  · rename_i r
    split at h
    · obtain rfl := Option.some.inj h
      have := length_le_of_mem_splitTopLevel hp
      simp only [List.length_dropLast, List.length_cons] at *
      omega
    · simp at h
  · simp at h

/-- The literal that a trimmed text writes, arrays aside. -/
def scalar? (t : Text) : Option Literal :=
  if isSingleString t then
    if t.head? = some '`' ∧ Text.includes "$\x7b" t then none
    else some (.text (unescape (t.drop 1).dropLast))
  else if let some n := number? t then some n
  else if t = "true" then some (.bool true)
  else if t = "false" then some (.bool false)
  else if t = "null" ∨ t = "undefined" then some .null
  else if (patternParts? t).isSome then some (.text t)
  else none

/-- The value that an argument writes, if it is a literal. A template with a substitution is none,
and an array is one if all its items are. -/
def read? (arg : Text) : Option Literal :=
  let t := Text.trim arg
  if isSingleString t then scalar? t
  else match scalar? t with
    | some value => some value
    | none =>
      match _hitems : arrayItems? t with
      | none => none
      | some items =>
        (items.attach.mapM fun (item : { p // p ∈ items }) => read? item.val).map .list
termination_by arg.length
decreasing_by
  have h1 : item.val.length < (Text.trim arg).length :=
    length_lt_of_mem_arrayItems _hitems item.property
  have h2 := Text.length_trim_le arg
  omega

/-- The first of some items that is too much for `excess?`. Items behind one that is no literal are
not read. -/
def firstExcess? (excess? : Text → Option Excess) : List Text → Option Excess
  | [] => none
  | item :: rest =>
    match excess? item with
    | some e => some e
    | none => if (read? item).isSome then firstExcess? excess? rest else none

/-- What is too much about an argument where arrays can be read `room` deep. -/
def excess? : Nat → Text → Option Excess
  | 0, _ => some .nesting
  | room + 1, arg =>
    let t := Text.trim arg
    (numberExcess? t).or <|
      if (scalar? t).isSome then none
      else (arrayItems? t).bind (firstExcess? (excess? room))

/-- What is too much about the first of some arguments for which that is so. -/
def excessAmong? (args : List Text) : Option Excess := args.findSome? (excess? stackRoom)

/-- The value of a string literal, or the source of a regular expression. -/
def string? (arg : Text) : Option Text :=
  match read? arg with
  | some (.text t) => some t
  | _ => none

/-- A quotation mark that may stand around a key. -/
def isKeyQuote (c : Char) : Bool := c == '\'' || c == '"'

/-- Key and value text of an entry `key: value`. -/
def entryParts? (entry : Text) : Option (Text × Text) :=
  match splitTopLevel isColon entry with
  | key :: v :: vs =>
    some (Text.stripWhile isKeyQuote (Text.trim key), Text.trim (Text.joinWith [':'] (v :: vs)))
  | _ => none

/-- The entries of a flat object literal. A value that is no literal is kept as its source text,
and a repeated key keeps its first place and its last value. -/
def objectEntries (t : Text) : List (Text × Literal) :=
  match Text.trim t with
  | '{' :: r =>
    if r.getLast? = some '}' then
      (splitArguments r.dropLast).foldl (fun entries entry =>
        match entryParts? entry with
        | none => entries
        | some (key, raw) =>
          setEntry key ((read? raw).getD (.text raw)) entries) []
    else []
  | _ => []

end Literal

end PageObjects
