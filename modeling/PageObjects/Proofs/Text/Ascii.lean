import PageObjects.Text.Digit
import PageObjects.Text.Word

namespace PageObjects

theorem toNat_of_isAlpha {c : Char} (h : c.isAlpha = true) :
    (65 ≤ c.toNat ∧ c.toNat ≤ 90) ∨ (97 ≤ c.toNat ∧ c.toNat ≤ 122) := by
  have cases : (c.isUpper || c.isLower) = true := h
  rcases Bool.or_eq_true_iff.mp cases with upper | lower
  · have range : c.val ≥ 'A'.val ∧ c.val ≤ 'Z'.val := of_decide_eq_true upper
    exact .inl ⟨UInt32.le_iff_toNat_le.mp range.1, UInt32.le_iff_toNat_le.mp range.2⟩
  · have range : (decide (c.val ≥ 'a'.val) && decide (c.val ≤ 'z'.val)) = true := lower
    obtain ⟨low, high⟩ := Bool.and_eq_true_iff.mp range
    exact .inr ⟨UInt32.le_iff_toNat_le.mp (of_decide_eq_true low),
      UInt32.le_iff_toNat_le.mp (of_decide_eq_true high)⟩

theorem toNat_lt_of_isAlpha {c : Char} (h : c.isAlpha = true) : c.toNat < 128 := by
  have range := toNat_of_isAlpha h
  omega

theorem toNat_of_isDigit {c : Char} (h : c.isDigit = true) : 48 ≤ c.toNat ∧ c.toNat ≤ 57 := by
  have range : (decide (c.val ≥ '0'.val) && decide (c.val ≤ '9'.val)) = true := h
  obtain ⟨low, high⟩ := Bool.and_eq_true_iff.mp range
  exact ⟨UInt32.le_iff_toNat_le.mp (of_decide_eq_true low),
    UInt32.le_iff_toNat_le.mp (of_decide_eq_true high)⟩

theorem isWord_of_isAlpha {c : Char} (h : c.isAlpha = true) : isWord c = true := by
  have word : c.isAlphanum = true := by
    show (c.isAlpha || c.isDigit) = true
    rw [h, Bool.true_or]
  rw [isWord, if_pos (toNat_lt_of_isAlpha h), word, Bool.true_or]

theorem isWord_of_isDigit {c : Char} (h : c.isDigit = true) : isWord c = true := by
  have range := toNat_of_isDigit h
  have word : c.isAlphanum = true := by
    show (c.isAlpha || c.isDigit) = true
    rw [h, Bool.or_true]
  rw [isWord, if_pos (by omega), word, Bool.true_or]

theorem isDecimal_of_isDigit {c : Char} (h : c.isDigit = true) : isDecimal c = true := by
  have range := toNat_of_isDigit h
  rwa [isDecimal, if_pos (by omega)]

theorem not_isAlpha_of_isDecimal {c : Char} (h : isDecimal c = true) : ¬c.isAlpha = true := by
  intro letter
  rw [isDecimal, if_pos (toNat_lt_of_isAlpha letter)] at h
  have digits := toNat_of_isDigit h
  have letters := toNat_of_isAlpha letter
  omega

theorem isAlpha_of_isUpper {c : Char} (h : c.isUpper = true) : c.isAlpha = true := by
  show (c.isUpper || c.isLower) = true
  rw [h, Bool.true_or]

theorem isAlpha_of_isLower {c : Char} (h : c.isLower = true) : c.isAlpha = true := by
  show (c.isUpper || c.isLower) = true
  rw [h, Bool.or_true]

end PageObjects
