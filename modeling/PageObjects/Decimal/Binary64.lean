import PageObjects.Text.Basic

namespace PageObjects

/-- A double precision number. A finite one is `significand * 2 ^ exponent`; its significand is
below `2 ^ 53`, and at least `2 ^ 52` unless the exponent is the smallest. -/
inductive Binary64 where
  | nan
  | infinite (negative : Bool)
  | finite (negative : Bool) (significand : Nat) (exponent : Int)
  deriving DecidableEq, Repr, Inhabited

namespace Binary64

def smallestExponent : Int := -1074

def largestExponent : Int := 971

/-- The quotient rounded to the nearest integer, a half to the even one. -/
def roundDiv (num den : Nat) : Nat :=
  let q := num / den
  let twice := 2 * (num % den)
  if twice < den then q
  else if den < twice then q + 1
  else if q % 2 = 0 then q else q + 1

/-- `num / den` in units of `2 ^ e`, as a fraction. -/
def inUnits (num den : Nat) (e : Int) : Nat × Nat :=
  let power := Nat.pow 2 e.natAbs
  if e < 0 then (num * power, den) else (num, den * power)

/-- The number nearest to a positive fraction. -/
def ofFraction (negative : Bool) (num den : Nat) : Binary64 :=
  let guess : Int := (Nat.log2 num : Int) - (Nat.log2 den : Int) - 53
  let (n, d) := inUnits num den guess
  let e := max (if Nat.pow 2 53 ≤ n / d then guess + 1 else guess) smallestExponent
  let (n, d) := inUnits num den e
  let m := roundDiv n d
  let (m, e) := if m = Nat.pow 2 53 then (Nat.pow 2 52, e + 1) else (m, e)
  if largestExponent < e then .infinite negative else .finite negative m e

/-- The number nearest to `digits * 10 ^ scale`. Scales that are out of all bounds are settled
before any power is formed. -/
def ofDecimal (negative : Bool) (digits : Nat) (scale : Int) : Binary64 :=
  if digits = 0 then .finite negative 0 smallestExponent
  else
    let magnitude : Int := (Nat.toDigits 10 digits).length + scale
    if 400 < magnitude then .infinite negative
    else if magnitude < -400 then .finite negative 0 smallestExponent
    else if scale < 0 then ofFraction negative digits (Nat.pow 10 scale.natAbs)
    else ofFraction negative (digits * Nat.pow 10 scale.natAbs) 1

/-- The integer that a number equals, if it is one. -/
def toInt? : Binary64 → Option Int
  | nan => none
  | infinite _ => none
  | finite negative m e =>
    let signed (n : Nat) : Int := if negative then -(n : Int) else n
    let power := Nat.pow 2 e.natAbs
    if 0 ≤ e then some (signed (m * power))
    else if m % power = 0 then some (signed (m / power))
    else none

def isFinite : Binary64 → Bool
  | finite .. => true
  | _ => false

end Binary64

end PageObjects
