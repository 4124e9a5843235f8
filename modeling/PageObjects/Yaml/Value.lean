import PageObjects.Yaml.Node

namespace PageObjects

/-- Why a text in YAML is not read: it is malformed, which may be told in detail, or reading it
breaks off for another reason. -/
inductive YamlError where
  | malformed (detail : Option Text)
  | broken (message : Text)
  deriving DecidableEq, Repr

/-- A reader of YAML. -/
abbrev YamlReader := Text → Except YamlError Json

def yamlTrueWords : List Text :=
  ["yes", "Yes", "YES", "true", "True", "TRUE", "on", "On", "ON"]

def yamlFalseWords : List Text :=
  ["no", "No", "NO", "false", "False", "FALSE", "off", "Off", "OFF"]

def yamlNullWords : List Text := ["", "~", "null", "Null", "NULL"]

/-- A numeral without its sign, and whether that is a minus. -/
def splitSign : Text → Bool × Text
  | '-' :: r => (true, r)
  | '+' :: r => (false, r)
  | t => (false, t)

/-- The value of digits to a base, low lines passed over; nothing if there is another character. -/
def digitsValue? (base : Nat) (t : Text) : Option Nat :=
  (t.filter (· != '_')).foldlM (fun n c => do
    let d ← Json.hexValue? c
    if d < base then return base * n + d else none) 0

def isDigitOrLowLine (c : Char) : Bool := c.isDigit || c == '_'

/-- The value of parts to the base sixty, each but the first of at most two digits. -/
def sixtiesValue? (parts : List Text) : Option Nat :=
  match parts with
  | first :: rest =>
    if first.head?.any Char.isDigit && first.all isDigitOrLowLine && rest.all fun p =>
        (p.length == 1 || (p.length == 2 && p.head?.any fun c => '0' ≤ c && c ≤ '5')) &&
          p.all Char.isDigit then
      parts.foldlM (fun n p => (digitsValue? 10 p).map fun d => 60 * n + d) 0
    else none
  | [] => none

/-- The number that an unsigned numeral writes: in binary, hexadecimal, octal or decimal digits, or
to the base sixty. -/
def yamlNat? : Text → Option Nat
  | ['0'] => some 0
  | '0' :: 'b' :: r => if r.isEmpty then none else digitsValue? 2 r
  | '0' :: 'x' :: r => if r.isEmpty then none else digitsValue? 16 r
  | '0' :: r => digitsValue? 8 r
  | t =>
    if !(t.head?.any Char.isDigit) then none
    else if t.all isDigitOrLowLine then digitsValue? 10 t
    else
      let parts := Text.pieces (· == ':') t
      if parts.length < 2 then none else sixtiesValue? parts

def yamlInt? (t : Text) : Option Int :=
  let (negative, r) := splitSign t
  (yamlNat? r).map fun n => if negative then -(n : Int) else n

/-- The exponent behind the digits of a number; it has a sign. -/
def yamlExponent? : Text → Option Int
  | [] => some 0
  | e :: sign :: r =>
    if (e = 'e' ∨ e = 'E') ∧ (sign = '+' ∨ sign = '-') ∧ !r.isEmpty ∧ r.all Char.isDigit then
      (digitsValue? 10 r).map fun n => if sign = '-' then -(n : Int) else n
    else none
  | _ => none

/-- A number with a point: digits, to the base sixty where there are colons, or a fraction alone
without a sign. -/
def yamlReal? (t : Text) : Option Binary64 :=
  let (negative, r) := splitSign t
  let isSigned := r.length != t.length
  if [".inf", ".Inf", ".INF"].contains (String.ofList r) then some (.infinite negative)
  else if [".nan", ".NaN", ".NAN"].contains (String.ofList t) then some .nan
  else match Text.cutAt '.' r with
    | (_, none) => none
    | (whole, some behind) =>
      let fraction := behind.takeWhile isDigitOrLowLine
      let digits := fraction.filter (· != '_')
      let parts := Text.pieces (· == ':') whole
      let isSimple := parts.length < 2
      let start := if whole.isEmpty then
          if isSigned || !(fraction.head?.any Char.isDigit) then none else some 0
        else sixtiesValue? parts
      match start, yamlExponent? (behind.dropWhile isDigitOrLowLine), digitsValue? 10 digits with
      | some n, some e, some f =>
        if !isSimple && !(behind.dropWhile isDigitOrLowLine).isEmpty then none
        else some (.ofDecimal negative (n * Nat.pow 10 digits.length + f) (e - digits.length))
      | _, _, _ => none

/-- Digits at the start of a text, at least and at most so many, and what follows them. -/
def takeDigits? (least most : Nat) (t : Text) : Option Text :=
  let n := min (t.takeWhile Char.isDigit).length most
  if least ≤ n then some (t.drop n) else none

/-- The rest of a text behind a character. -/
def behind? (c : Char) : Text → Option Text
  | x :: r => if x = c then some r else none
  | [] => none

def isInnerBlank (c : Char) : Bool := c == ' ' || c == '\t'

/-- Whether a text is the zone of a time. -/
def isZone (t : Text) : Bool :=
  match t.dropWhile isInnerBlank with
  | [] => t.isEmpty
  | ['Z'] => true
  | sign :: r =>
    (sign == '+' || sign == '-') && (match takeDigits? 1 2 r with
      | some [] => true
      | some (':' :: m) => takeDigits? 2 2 m == some []
      | _ => false)

/-- What follows the time of a day up to its seconds. -/
def clock? (t : Text) : Option Text := do
  let t ← takeDigits? 1 2 t
  let t ← behind? ':' t
  let t ← takeDigits? 2 2 t
  let t ← behind? ':' t
  takeDigits? 2 2 t

/-- What follows a date with parts of at least so many digits. -/
def date? (least : Nat) (t : Text) : Option Text := do
  let t ← takeDigits? 4 4 t
  let t ← behind? '-' t
  let t ← takeDigits? least 2 t
  let t ← behind? '-' t
  takeDigits? least 2 t

/-- Whether a text is a date or a date with a time. -/
def isTime (t : Text) : Bool :=
  date? 2 t == some [] ||
    (match date? 1 t with
      | some (c :: r) =>
        let time := if c = 'T' ∨ c = 't' then some r
          else if isInnerBlank c then some (r.dropWhile isInnerBlank)
          else none
        match time.bind clock? with
        | some ('.' :: fraction) => isZone (fraction.dropWhile Char.isDigit)
        | some zone => isZone zone
        | none => false
      | _ => false)

/-- The value of a scalar without a tag. A time is no value of any option. -/
def plainValue (t : Text) : Json :=
  if yamlTrueWords.contains t then .bool true
  else if yamlFalseWords.contains t then .bool false
  else if yamlNullWords.contains t then .null
  else match yamlReal? t, yamlInt? t with
    | some x, _ => .real x
    | none, some n => .int n
    | none, none => if isTime t then .null else .text t

/-- Plain scalars that have no value by themselves. -/
def hasNoValue (t : Text) : Bool := t == "<<".toList || t == "=".toList

/-- The value of a scalar; a tag asks for one kind of value. -/
def scalarValue? (tag : Option Text) (content : Text) (isPlain : Bool) : Option Json :=
  let plain := plainValue content
  match tag.map String.ofList with
  | none => if !isPlain then some (.text content) else if hasNoValue content then none else some plain
  | some "!" => if hasNoValue content then none else some plain
  | some "!!str" => some (.text content)
  | some "!!null" => some .null
  | some "!!bool" => match plain with
    | .bool b => some (.bool b)
    | _ => none
  | some "!!int" => (yamlInt? content).map Json.int
  | some "!!float" => match plain with
    | .real x => some (.real x)
    | .int n => some (.real (.ofDecimal (n < 0) n.natAbs 0))
    | _ => none
  | _ => none

/-- Whether a tag is missing or the given one. -/
def tagFits (tag : Option Text) (name : Text) : Bool := tag.all fun t => t == ['!'] || t == name

/-- The name that a key gives to its value. Keys of another kind are no names, and collections are
no keys. -/
def keyName? : YamlNode → Option (Option Text)
  | .scalar tag content isPlain =>
    if content == "=".toList then some (some content)
    else (scalarValue? tag content isPlain).map fun v =>
      match v with
      | .text t => some t
      | _ => none
  | _ => none

mutual

/-- The value of a node. -/
def YamlNode.value? : YamlNode → Option Json
  | .scalar tag content isPlain => scalarValue? tag content isPlain
  | .list tag items =>
    if tagFits tag "!!seq" then (YamlNode.itemValues? items).map Json.list else none
  | .mapping tag pairs =>
    if tagFits tag "!!map" then (YamlNode.pairValues? [] pairs).map Json.object else none

def YamlNode.itemValues? : List YamlNode → Option (List Json)
  | [] => some []
  | n :: rest => do
    let v ← n.value?
    return v :: (← YamlNode.itemValues? rest)

/-- Fields with the values of further pairs; a name that comes again gets the later value. -/
def YamlNode.pairValues? (fields : List (Text × Json)) :
    List (YamlNode × YamlNode) → Option (List (Text × Json))
  | [] => some fields
  | (k, n) :: rest => do
    let name ← keyName? k
    let v ← n.value?
    YamlNode.pairValues? (match name with
      | some key => setEntry key v fields
      | none => fields) rest

end

/-- The value of a YAML text: null for one without a document. A time by itself counts as text. -/
def Yaml.value? (t : Text) : Option Json :=
  match YamlNode.ofText? t with
  | none => none
  | some none => some .null
  | some (some (.scalar none content true)) =>
    if hasNoValue content then none
    else some (if isTime content then .text content else plainValue content)
  | some (some n) => n.value?

/-- A reader of YAML that finds nothing but malformed texts in its way. -/
def Yaml.read : YamlReader := fun t =>
  match Yaml.value? t with
  | some v => .ok v
  | none => .error (.malformed none)

end PageObjects
