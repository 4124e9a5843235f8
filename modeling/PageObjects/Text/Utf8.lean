import PageObjects.Text.Printable

namespace PageObjects

inductive Utf8Problem where
  | start | continuation | truncated
  deriving DecidableEq, Repr

def Utf8Problem.message : Utf8Problem → Text
  | start => "invalid start byte"
  | continuation => "invalid continuation byte"
  | truncated => "unexpected end of data"

/-- The first bytes of a text that are no character. -/
structure Utf8Fault where
  first : UInt8
  place : Nat
  length : Nat
  problem : Utf8Problem
  deriving DecidableEq, Repr

def Utf8Fault.message (f : Utf8Fault) : Text :=
  let bytes : Text := if f.length ≤ 1 then
      "byte 0x" ++ hexDigits 2 f.first.toNat ++ " in position " ++ Text.ofNat f.place
    else "bytes in position " ++ Text.ofNat f.place ++ "-" ++ Text.ofNat (f.place + f.length - 1)
  "'utf-8' codec can't decode " ++ bytes ++ ": " ++ f.problem.message

/-- How many bytes follow a start byte, the bounds of the first of them, and what the start byte
itself stands for. No shorter form of a character, no half of a pair and nothing beyond the last
code point is left open. -/
def utf8Start? (b : Nat) : Option (Nat × Nat × Nat × Nat) :=
  if b < 0x80 then some (0, 0x80, 0xBF, b)
  else if 0xC2 ≤ b ∧ b ≤ 0xDF then some (1, 0x80, 0xBF, b - 0xC0)
  else if 0xE0 ≤ b ∧ b ≤ 0xEF then
    some (2, if b = 0xE0 then 0xA0 else 0x80, if b = 0xED then 0x9F else 0xBF, b - 0xE0)
  else if 0xF0 ≤ b ∧ b ≤ 0xF4 then
    some (3, if b = 0xF0 then 0x90 else 0x80, if b = 0xF4 then 0x8F else 0xBF, b - 0xF0)
  else none

/-- The code point that `count` bytes complete, or what is wrong with them and how many of them
are right. -/
def utf8Tail (count low high value : Nat) : List UInt8 → Except (Utf8Problem × Nat) Nat
  | [] => if count = 0 then .ok value else .error (.truncated, 0)
  | b :: rest =>
    match count with
    | 0 => .ok value
    | n + 1 =>
      if low ≤ b.toNat ∧ b.toNat ≤ high then
        (utf8Tail n 0x80 0xBF (64 * value + (b.toNat - 0x80)) rest).mapError fun e => (e.1, e.2 + 1)
      else .error (.continuation, 0)

/-- The text of some bytes, the first of which has the given place. -/
def utf8From (place : Nat) : List UInt8 → Except Utf8Fault Text
  | [] => .ok []
  | b :: rest =>
    match utf8Start? b.toNat with
    | none => .error ⟨b, place, 1, .start⟩
    | some (count, low, high, value) =>
      match utf8Tail count low high value rest with
      | .error (problem, right) => .error ⟨b, place, right + 1, problem⟩
      | .ok code => (utf8From (place + count + 1) (rest.drop count)).map (Char.ofNat code :: ·)
termination_by bytes => bytes.length
decreasing_by simp only [List.length_drop, List.length_cons]; omega

/-- The text that bytes write. -/
def Text.ofUtf8 (bytes : List UInt8) : Except Utf8Fault Text := utf8From 0 bytes

end PageObjects
