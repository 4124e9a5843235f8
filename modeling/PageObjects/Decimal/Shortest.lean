import PageObjects.Decimal.Binary64

namespace PageObjects

namespace Binary64

/-- The fractions that bound the values nearest to `m * 2 ^ e`, over one common denominator:
the lower bound, the value itself and the upper bound. -/
def rounding (m : Nat) (e : Int) : Nat × Nat × Nat × Nat :=
  let down := if m = Nat.pow 2 52 ∧ smallestExponent < e then 1 else 2
  let scale := Nat.pow 2 (e - 2).natAbs
  if e < 2 then (4 * m - down, 4 * m, 4 * m + 2, scale)
  else ((4 * m - down) * scale, 4 * m * scale, (4 * m + 2) * scale, 1)

/-- `value / den` in units of `10 ^ place`, as a fraction. -/
def inPlaces (value den : Nat) (place : Int) : Nat × Nat :=
  let power := Nat.pow 10 place.natAbs
  if place < 0 then (value * power, den) else (value, den * power)

/-- The multiple of `10 ^ place` nearest to the value, if one rounds to it. -/
def digitsAt? (m : Nat) (e : Int) (place : Int) : Option Nat :=
  let (low, value, high, den) := rounding m e
  let inside (k : Nat) : Bool :=
    let (l, d) := inPlaces low den place
    let (h, _) := inPlaces high den place
    if m % 2 = 0 then l ≤ k * d && k * d ≤ h else l < k * d && k * d < h
  let (v, d) := inPlaces value den place
  let near := roundDiv v d
  let other := if near * d < v then near + 1 else near - 1
  if near ≠ 0 && inside near then some near
  else if other ≠ 0 && inside other then some other
  else none

/-- The largest power of ten not above the value. -/
def leadingPlace (m : Nat) (e : Int) : Int :=
  let (_, value, _, den) := rounding m e
  let guess : Int := (Nat.toDigits 10 value).length - (Nat.toDigits 10 den).length
  let (v, d) := inPlaces value den guess
  if d ≤ v then guess else guess - 1

/-- Digits and place of the shortest decimal that rounds to the number, the nearest one among
those of its length. Seventeen digits always suffice. -/
def shortest (m : Nat) (e : Int) : Nat × Int :=
  let lead := leadingPlace m e
  ((List.range 17).findSome? fun (k : Nat) =>
    let place := lead - (k : Int)
    (digitsAt? m e place).map fun digits => (digits, place)).getD (m, e)

/-- Positional text while the leading digit stands between the fourth place after the point and
the sixteenth before it, else with an exponent of at least two digits. -/
def digitsText (digits : Nat) (place : Int) : Text :=
  let ds := Text.dropEndWhile (· == '0') (Nat.toDigits 10 digits)
  let lead : Int := place + (Nat.toDigits 10 digits).length - 1
  if lead < -4 ∨ 16 ≤ lead then
    let mantissa := match ds with
      | [] => []
      | [d] => [d]
      | d :: r => d :: '.' :: r
    let power := Text.ofNat lead.natAbs
    let power := if power.length < 2 then '0' :: power else power
    mantissa ++ 'e' :: (if lead < 0 then '-' else '+') :: power
  else if lead < 0 then
    "0." ++ List.replicate (lead.natAbs - 1) '0' ++ ds
  else
    let whole := lead.natAbs + 1
    let padded := ds ++ List.replicate (whole - ds.length) '0'
    let fraction := padded.drop whole
    padded.take whole ++ '.' :: (if fraction.isEmpty then ['0'] else fraction)

/-- The text of a number; `infinity` and `notANumber` are the words for those without digits. -/
def text (infinity notANumber : Text) : Binary64 → Text
  | nan => notANumber
  | infinite negative => (if negative then ['-'] else []) ++ infinity
  | finite negative m e =>
    (if negative then ['-'] else []) ++
      (if m = 0 then ("0.0" : Text) else let (digits, place) := shortest m e; digitsText digits place)

end Binary64

end PageObjects
