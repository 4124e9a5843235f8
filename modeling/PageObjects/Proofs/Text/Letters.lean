import Mathlib
import PageObjects.Proofs.Text.Ascii
import PageObjects.Text.Words

namespace PageObjects

/-- The characters that names are made of: ASCII letters, and decimal digits of every script. -/
def isNameChar (c : Char) : Bool := c.isAlpha || isDecimal c

theorem isNameChar_iff {c : Char} :
    isNameChar c = true ↔ c.isAlpha = true ∨ isDecimal c = true := by
  rw [isNameChar, Bool.or_eq_true]

theorem toUpper_of_isDecimal {c : Char} (h : isDecimal c = true) : c.toUpper = c :=
  Char.toUpper_eq_of_not_isLower fun small => not_isAlpha_of_isDecimal h (isAlpha_of_isLower small)

theorem toLower_of_isDecimal {c : Char} (h : isDecimal c = true) : c.toLower = c :=
  Char.toLower_eq_of_not_isUpper fun big => not_isAlpha_of_isDecimal h (isAlpha_of_isUpper big)

theorem isNameChar_toUpper {c : Char} (h : isNameChar c = true) : isNameChar c.toUpper = true := by
  rcases isNameChar_iff.mp h with letter | digit
  · exact isNameChar_iff.mpr (.inl (c.isAlpha_toUpper_eq_isAlpha.trans letter))
  · rwa [toUpper_of_isDecimal digit]

theorem isNameChar_toLower {c : Char} (h : isNameChar c = true) : isNameChar c.toLower = true := by
  rcases isNameChar_iff.mp h with letter | digit
  · exact isNameChar_iff.mpr (.inl (c.isAlpha_toLower_eq_isAlpha.trans letter))
  · rwa [toLower_of_isDecimal digit]

theorem isDigitSign_of_isDecimal {c : Char} (h : isDecimal c = true) : isDigitSign c = true := by
  by_cases ascii : c.toNat < 128
  · rw [isDecimal, if_pos ascii] at h
    rwa [isDigitSign, if_pos ascii]
  · rw [isDecimal, if_neg ascii] at h
    rw [isDigitSign, if_neg ascii, h, Bool.true_or]

section Caseless

/-- The code points that have another case beyond ASCII, as ranges of a table. -/
def casedTable : List CodeRange :=
  (lowerRows ++ titleRows).map (fun row => (row.1, row.2.1)) ++
    longTitles.map (fun entry => (entry.1, entry.1)) ++ [(0x130, 0x130), (0x3A3, 0x3A3)]

/-- Whether no rule of case is about a code point. -/
def IsCaseless (n : Nat) : Prop := ∀ r ∈ casedTable, n < r.1 ∨ r.2 < n

set_option maxRecDepth 10000 in
theorem casedTable_apart : (casedTable.all fun r => digitZeros.all fun z =>
    Nat.blt (z + 9) r.1 || Nat.blt r.2 z) = true := by
  decide +kernel

theorem isCaseless_of_isDecimal {c : Char} (h : isDecimal c = true) (wide : ¬c.toNat < 128) :
    IsCaseless c.toNat := by
  intro r hr
  rw [isDecimal, if_neg wide, decimalValue?, Option.isSome_map] at h
  obtain ⟨z, hz⟩ := Option.isSome_iff_exists.mp h
  have range := List.find?_some hz
  rw [Bool.and_eq_true, decide_eq_true_eq, decide_eq_true_eq] at range
  have apart := List.all_eq_true.mp (List.all_eq_true.mp casedTable_apart r hr) z
    (List.mem_of_find?_eq_some hz)
  rw [Bool.or_eq_true, Nat.blt_eq, Nat.blt_eq] at apart
  omega

namespace IsCaseless

variable {n : Nat}

theorem shift?_eq_none (h : IsCaseless n) {row : CaseRow} (hr : row ∈ lowerRows ++ titleRows) :
    row.shift? n = none := by
  obtain ⟨first, last, step, shift⟩ := row
  have apart : n < first ∨ last < n := h (first, last)
    (List.mem_append_left _ (List.mem_append_left _ (List.mem_map_of_mem hr)))
  refine if_neg fun inside => ?_
  omega

theorem lookup_longTitles (h : IsCaseless n) : longTitles.lookup n = none := by
  refine List.lookup_eq_none_iff.mpr fun entry he => ?_
  have apart : n < entry.1 ∨ entry.1 < n := h (entry.1, entry.1)
    (List.mem_append_left _ (List.mem_append_right _ (List.mem_map_of_mem he)))
  rw [bne_iff_ne]
  omega

theorem findSome?_lowerRows (h : IsCaseless n) :
    (lowerRows.findSome? fun row => row.shift? n) = none :=
  List.findSome?_eq_none_iff.mpr fun _ hr => h.shift?_eq_none (List.mem_append_left _ hr)

theorem findSome?_titleRows (h : IsCaseless n) :
    (titleRows.findSome? fun row => row.shift? n) = none :=
  List.findSome?_eq_none_iff.mpr fun _ hr => h.shift?_eq_none (List.mem_append_right _ hr)

theorem ne_of_mem (h : IsCaseless n) {m : Nat} (hm : (m, m) ∈ casedTable) : n ≠ m := by
  have apart := h (m, m) hm
  omega

end IsCaseless

end Caseless

theorem titleChar_of_isNameChar {c : Char} (h : isNameChar c = true) :
    titleChar c = [c.toUpper] := by
  by_cases ascii : c.toNat < 128
  · rw [titleChar, if_pos ascii]
  · have digit : isDecimal c = true := (isNameChar_iff.mp h).resolve_left
      fun letter => ascii (toNat_lt_of_isAlpha letter)
    have caseless := isCaseless_of_isDecimal digit ascii
    rw [titleChar, if_neg ascii, caseless.lookup_longTitles, caseless.findSome?_titleRows,
      toUpper_of_isDecimal digit]

namespace Text

theorem lowerAfter_of_isNameChar {t : Text} (h : ∀ c ∈ t, isNameChar c = true) (before : Text) :
    lowerAfter before t = t.map Char.toLower := by
  induction t generalizing before with
  | nil => rfl
  | cons c r ih =>
    have rest := ih (fun d hd => h d (List.mem_cons_of_mem c hd)) (c :: before)
    by_cases ascii : c.toNat < 128
    · rw [lowerAfter, if_pos ascii, rest]
      rfl
    · have digit : isDecimal c = true := (isNameChar_iff.mp (h c List.mem_cons_self)).resolve_left
        fun letter => ascii (toNat_lt_of_isAlpha letter)
      have caseless := isCaseless_of_isDecimal digit ascii
      have sigma := caseless.ne_of_mem (List.mem_append_right _ (by simp) : (0x3A3, 0x3A3) ∈ _)
      have dotted := caseless.ne_of_mem (List.mem_append_right _ (by simp) : (0x130, 0x130) ∈ _)
      rw [lowerAfter, if_neg ascii, if_neg sigma, if_neg dotted, rest, lowerChar, if_neg ascii,
        caseless.findSome?_lowerRows, List.map_cons, toLower_of_isDecimal digit]
      rfl

/-- A name is capitalized as in ASCII. -/
theorem capitalize_of_isNameChar {c : Char} {r : Text} (h : ∀ d ∈ c :: r, isNameChar d = true) :
    capitalize (c :: r) = c.toUpper :: r.map Char.toLower := by
  rw [capitalize, titleChar_of_isNameChar (h c List.mem_cons_self),
    lowerAfter_of_isNameChar fun d hd => h d (List.mem_cons_of_mem c hd)]
  rfl

end Text

end PageObjects
