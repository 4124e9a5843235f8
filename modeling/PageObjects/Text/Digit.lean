import PageObjects.Text.Basic

namespace PageObjects

/-- Code points of the digits zero; the nine code points after each are the digits one to nine. -/
def digitZeros : List Nat := [
  0x30, 0x660, 0x6F0, 0x7C0, 0x966, 0x9E6, 0xA66, 0xAE6, 0xB66, 0xBE6, 0xC66, 0xCE6, 0xD66,
  0xDE6, 0xE50, 0xED0, 0xF20, 0x1040, 0x1090, 0x17E0, 0x1810, 0x1946, 0x19D0, 0x1A80, 0x1A90,
  0x1B50, 0x1BB0, 0x1C40, 0x1C50, 0xA620, 0xA8D0, 0xA900, 0xA9D0, 0xA9F0, 0xAA50, 0xABF0, 0xFF10,
  0x104A0, 0x10D30, 0x11066, 0x110F0, 0x11136, 0x111D0, 0x112F0, 0x11450, 0x114D0, 0x11650,
  0x116C0, 0x11730, 0x118E0, 0x11950, 0x11C50, 0x11D50, 0x11DA0, 0x16A60, 0x16AC0, 0x16B50,
  0x1D7CE, 0x1D7D8, 0x1D7E2, 0x1D7EC, 0x1D7F6, 0x1E140, 0x1E2F0, 0x1E950, 0x1FBF0
]

/-- The value of a decimal digit. -/
def decimalValue? (c : Char) : Option Nat :=
  (digitZeros.find? fun z => z ≤ c.toNat && c.toNat ≤ z + 9).map fun z => c.toNat - z

/-- Decimal digits of any script. -/
def isDecimal (c : Char) : Bool :=
  if c.toNat < 128 then c.isDigit else (decimalValue? c).isSome

/-- Digit signs that are no decimal digits: raised, lowered and encircled ones. -/
def digitSignRanges : List CodeRange := [
  (0xB2, 0xB3), (0xB9, 0xB9), (0x1369, 0x1371), (0x19DA, 0x19DA), (0x2070, 0x2070),
  (0x2074, 0x2079), (0x2080, 0x2089), (0x2460, 0x2468), (0x2474, 0x247C), (0x2488, 0x2490),
  (0x24EA, 0x24EA), (0x24F5, 0x24FD), (0x24FF, 0x24FF), (0x2776, 0x277E), (0x2780, 0x2788),
  (0x278A, 0x2792), (0x10A40, 0x10A43), (0x10E60, 0x10E68), (0x11052, 0x1105A),
  (0x1F100, 0x1F10A)
]

/-- Decimal digits and other digit signs. -/
def isDigitSign (c : Char) : Bool :=
  if c.toNat < 128 then c.isDigit
  else (decimalValue? c).isSome || inRanges digitSignRanges c.toNat

/-- The number that a run of decimal digits writes; other characters are passed over. -/
def Text.toNat (t : Text) : Nat :=
  t.foldl (fun n c => match decimalValue? c with | some d => 10 * n + d | none => n) 0

/-- Longer numerals are refused. -/
def longestNumeral : Nat := 4300

/-- How deep readings can stand within each other before the stack is used up. The rest of its
thousand places goes to what has called them. -/
def stackRoom : Nat := 990

/-- What is too much for a reader: a numeral of so many digits, or readings within readings. -/
inductive Excess where
  | digits (count : Nat)
  | nesting
  deriving DecidableEq, Repr

def Excess.message : Excess → Text
  | digits count =>
    "Exceeds the limit (" ++ Text.ofNat longestNumeral ++
      " digits) for integer string conversion: value has " ++ Text.ofNat count ++
      " digits; use sys.set_int_max_str_digits() to increase the limit"
  | nesting => "maximum recursion depth exceeded"

/-- What is too much about a run of digits. Zeros in front count. -/
def Text.digitExcess? (digits : Text) : Option Excess :=
  if longestNumeral < digits.length then some (.digits digits.length) else none

/-- The number that a run of decimal digits writes, unless the run is too long. -/
def Text.natural? (digits : Text) : Option Nat :=
  if longestNumeral < digits.length then none else some (Text.toNat digits)

end PageObjects
