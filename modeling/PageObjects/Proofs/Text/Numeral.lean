import PageObjects.Proofs.Text.Ascii
import PageObjects.Text.Basic

namespace PageObjects

theorem decimalValue?_of_isDigit {c : Char} (h : c.isDigit = true) :
    decimalValue? c = some (c.toNat - '0'.toNat) := by
  obtain ⟨low, high⟩ := toNat_of_isDigit h
  have front : digitZeros = '0'.toNat :: digitZeros.tail := rfl
  have own : (decide ('0'.toNat ≤ c.toNat) && decide (c.toNat ≤ '0'.toNat + 9)) = true := by
    rw [Bool.and_eq_true, decide_eq_true_eq, decide_eq_true_eq]
    exact ⟨low, high⟩
  rw [decimalValue?, front, List.find?_cons, own]
  rfl

namespace Text

variable {n : Nat} {c : Char}

theorem isDigit_of_mem_ofNat (h : c ∈ ofNat n) : c.isDigit = true :=
  Nat.isDigit_of_mem_toDigits (by decide) (by decide) h

theorem isDecimal_of_mem_ofNat (h : c ∈ ofNat n) : isDecimal c = true :=
  isDecimal_of_isDigit (isDigit_of_mem_ofNat h)

theorem ofNat_ne_nil (n : Nat) : ofNat n ≠ [] := Nat.toDigits_ne_nil

/-- Digits of ASCII are read as they are written. -/
theorem foldl_decimalValue? {t : Text} (digits : ∀ c ∈ t, c.isDigit = true) (n : Nat) :
    t.foldl (fun n c => match decimalValue? c with | some d => 10 * n + d | none => n) n =
      Nat.ofDigitChars 10 t n := by
  induction t generalizing n with
  | nil => rfl
  | cons c r ih =>
    obtain ⟨first, digits⟩ := List.forall_mem_cons.mp digits
    rw [List.foldl_cons, decimalValue?_of_isDigit first, ih digits]
    rfl

@[simp] theorem toNat_ofNat (n : Nat) : toNat (ofNat n) = n :=
  (foldl_decimalValue? (fun _ => isDigit_of_mem_ofNat) 0).trans
    (Nat.ofDigitChars_toDigits (by decide) (by decide))

theorem natural?_of_length_le {t : Text} (short : t.length ≤ longestNumeral) :
    natural? t = some (toNat t) := if_neg (Nat.not_lt.mpr short)

theorem digitExcess?_of_length_le {t : Text} (short : t.length ≤ longestNumeral) :
    digitExcess? t = none := if_neg (Nat.not_lt.mpr short)

end Text

end PageObjects
