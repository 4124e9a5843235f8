import PageObjects.Proofs.Name.Unique
import PageObjects.Proofs.Name.Word
import PageObjects.Proofs.Text.Numeral

namespace PageObjects

/-- A letter, then letters and decimal digits. -/
structure IsIdentifier (t : Text) : Prop where
  leads : t.startsWithLetter = true
  made : ∀ c ∈ t, isNameChar c = true

structure IsMethodName (t : Text) : Prop extends IsIdentifier t where
  free : t ∉ reservedWords

instance (t : Text) : Decidable (IsIdentifier t) :=
  decidable_of_iff ((t.startsWithLetter && t.all isNameChar) = true) (by
    rw [Bool.and_eq_true, List.all_eq_true]
    exact ⟨fun h => ⟨h.1, h.2⟩, fun h => ⟨h.leads, h.made⟩⟩)

instance (t : Text) : Decidable (IsMethodName t) :=
  decidable_of_iff (IsIdentifier t ∧ t ∉ reservedWords)
    ⟨fun h => ⟨h.1, h.2⟩, fun h => ⟨h.toIsIdentifier, h.free⟩⟩

theorem reservedWords_isLower : (reservedWords.all fun t => t.all Char.isLower) = true := by
  decide +kernel

/-- A name with a character that is no small letter is not reserved. -/
theorem notMem_reservedWords {t : Text} {c : Char} (hc : c ∈ t) (h : c.isLower = false) :
    t ∉ reservedWords := by
  intro reserved
  have small := List.all_eq_true.mp (List.all_eq_true.mp reservedWords_isLower t reserved) c hc
  rw [h] at small
  cases small

namespace Text

theorem startsWithLetter_append {a : Text} (h : a ≠ []) (b : Text) :
    (a ++ b).startsWithLetter = a.startsWithLetter := by
  obtain ⟨c, r, rfl⟩ := List.exists_cons_of_ne_nil h
  rfl

theorem ne_nil_of_startsWithLetter {t : Text} (h : t.startsWithLetter = true) : t ≠ [] := by
  rintro rfl
  cases h

section Words

variable {w v : Text} {ws : List Text}

theorem IsWord.capitalize (h : w.IsWord) :
    (capitalize w).IsWord ∧ (capitalize w).startsWithLetter = w.startsWithLetter := by
  obtain ⟨c, r, rfl⟩ := List.exists_cons_of_ne_nil h.filled
  rw [capitalize_of_isNameChar fun d hd => h.isNameChar hd]
  refine ⟨h.of_map (fun d letter => ?_) (fun d digit => ?_), c.isAlpha_toUpper_eq_isAlpha⟩
  · rw [Char.isAlpha_toUpper_eq_isAlpha, Char.isAlpha_toLower_eq_isAlpha]
    exact ⟨letter, letter⟩
  · exact ⟨toUpper_of_isDecimal digit, toLower_of_isDecimal digit⟩

/-- Capitalized words begin with a character that is no small letter. -/
theorem IsWord.exists_mem_capitalize (h : w.IsWord) :
    ∃ c ∈ Text.capitalize w, c.isLower = false := by
  obtain ⟨c, r, rfl⟩ := List.exists_cons_of_ne_nil h.filled
  rw [capitalize_of_isNameChar fun d hd => h.isNameChar hd]
  exact ⟨c.toUpper, List.mem_cons_self, c.isLower_toUpper_eq_false⟩

theorem isNameChar_of_mem_capitalize (h : ∀ w ∈ ws, w.IsWord) {c : Char}
    (hc : c ∈ ws.flatMap Text.capitalize) : isNameChar c = true := by
  obtain ⟨w, hw, hc⟩ := List.mem_flatMap.mp hc
  exact (h w hw).capitalize.1.isNameChar hc

theorem isNameChar_of_mem_pascal (h : ∀ w ∈ ws, w.IsWord) {c : Char} (hc : c ∈ pascal ws) :
    isNameChar c = true :=
  isNameChar_of_mem_capitalize (fun w hw => h w (List.mem_of_mem_take hw)) hc

theorem pascal_cons (h : w.IsWord) (ws : List Text) :
    pascal (w :: ws) ≠ [] ∧ (pascal (w :: ws)).startsWithLetter = w.startsWithLetter := by
  have filled : Text.capitalize w ≠ [] := h.capitalize.1.filled
  have name : pascal (w :: ws) = Text.capitalize w ++ (ws.take 3).flatMap Text.capitalize := rfl
  rw [name, startsWithLetter_append filled]
  exact ⟨List.append_ne_nil_of_left_ne_nil filled _, h.capitalize.2⟩

theorem camel_cons (h : ∀ v ∈ w :: ws, v.IsWord) :
    camel (w :: ws) = w.map Char.toLower ++ (ws.take 3).flatMap Text.capitalize := by
  have all : (w :: ws).filter (fun v => !v.isEmpty) = w :: ws := by
    refine List.filter_eq_self.mpr fun v hv => ?_
    rw [List.isEmpty_eq_false_iff.mpr (h v hv).filled]
    rfl
  have small : lower w = w.map Char.toLower :=
    lowerAfter_of_isNameChar (fun c hc => (h w List.mem_cons_self).isNameChar hc) []
  rw [camel, all, ← small]
  rfl

end Words

end Text

open Text

section Camel

variable {w v : Text} {ws : List Text}

theorem isNameChar_of_mem_camel (h : ∀ v ∈ ws, v.IsWord) {c : Char} (hc : c ∈ camel ws) :
    isNameChar c = true := by
  cases ws with
  | nil => cases hc
  | cons w ws =>
    rw [camel_cons h] at hc
    rcases List.mem_append.mp hc with first | others
    · obtain ⟨d, hd, rfl⟩ := List.mem_map.mp first
      exact isNameChar_toLower ((h w List.mem_cons_self).isNameChar hd)
    · have words : ∀ v ∈ ws.take 3, v.IsWord :=
        fun v hv => h v (List.mem_cons_of_mem _ (List.mem_of_mem_take hv))
      exact isNameChar_of_mem_capitalize words others

theorem IsIdentifier.camel (h : ∀ v ∈ w :: ws, v.IsWord) (lead : w.startsWithLetter = true) :
    IsIdentifier (camel (w :: ws)) := by
  refine ⟨?_, fun d hd => isNameChar_of_mem_camel h hd⟩
  rw [camel_cons h]
  obtain ⟨c, r, rfl⟩ := List.exists_cons_of_ne_nil (ne_nil_of_startsWithLetter lead)
  exact c.isAlpha_toLower_eq_isAlpha.trans lead

/-- Two words make a name for a method, as the second one is capitalized. -/
theorem IsMethodName.camel (h : ∀ u ∈ w :: v :: ws, u.IsWord) (lead : w.startsWithLetter = true) :
    IsMethodName (camel (w :: v :: ws)) := by
  refine ⟨.camel h lead, ?_⟩
  rw [camel_cons h]
  obtain ⟨c, hc, big⟩ := (h v (by simp)).exists_mem_capitalize
  refine notMem_reservedWords (List.mem_append_right _ ?_) big
  exact List.mem_flatMap.mpr ⟨v, List.mem_cons_self, hc⟩

end Camel

/-- What a reserved name or one that starts with a digit is put behind makes it usable. -/
theorem isMethodName_safeMethodName {name lead : Text} (made : ∀ c ∈ name, isNameChar c = true)
    (safe : IsMethodName lead) : IsMethodName (safeMethodName name lead) := by
  unfold safeMethodName
  split
  next =>
    cases name with
    | nil =>
      rw [upperFirst, List.append_nil]
      exact safe
    | cons c r =>
      have big : c.toUpper ∈ lead ++ c.toUpper :: r := by simp
      refine ⟨⟨?_, ?_⟩, notMem_reservedWords big c.isLower_toUpper_eq_false⟩
      · exact (startsWithLetter_append (ne_nil_of_startsWithLetter safe.leads) _).trans safe.leads
      · intro d hd
        rw [upperFirst] at hd
        rcases List.mem_append.mp hd with first | rest
        · exact safe.made d first
        · rcases List.mem_cons.mp rest with rfl | rest
          · exact isNameChar_toUpper (made c List.mem_cons_self)
          · exact made d (List.mem_cons_of_mem c rest)
  next usable =>
    simp only [Bool.or_eq_true, not_or] at usable
    obtain ⟨⟨filled, free⟩, noSign⟩ := usable
    cases name with
    | nil => exact absurd rfl filled
    | cons c r =>
      have noDigit : ¬isDecimal c = true := fun digit => noSign (isDigitSign_of_isDecimal digit)
      refine ⟨⟨?_, made⟩, fun reserved => free (List.contains_iff_mem.mpr reserved)⟩
      exact (isNameChar_iff.mp (made c List.mem_cons_self)).resolve_right noDigit

section Variant

variable {name variant : Text}

theorem isNameChar_of_mem_numbered (made : ∀ c ∈ name, isNameChar c = true) {k : Nat} {c : Char}
    (h : c ∈ numbered name k) : isNameChar c = true := by
  rcases List.mem_append.mp h with own | digit
  · exact made c own
  · exact isNameChar_iff.mpr (.inr (Text.isDecimal_of_mem_ofNat digit))

theorem IsVariant.isNameChar (h : IsVariant name variant) (made : ∀ c ∈ name, isNameChar c = true) :
    ∀ c ∈ variant, isNameChar c = true := by
  obtain rfl | ⟨k, -, rfl⟩ := h
  · exact made
  · exact fun c hc => isNameChar_of_mem_numbered made hc

theorem IsVariant.startsWithLetter_eq (h : IsVariant name variant) (filled : name ≠ []) :
    variant.startsWithLetter = name.startsWithLetter := by
  obtain rfl | ⟨k, -, rfl⟩ := h
  · rfl
  · exact startsWithLetter_append filled _

theorem IsMethodName.numbered (h : IsMethodName name) (k : Nat) :
    IsMethodName (numbered name k) := by
  refine ⟨⟨?_, fun c hc => ?_⟩, ?_⟩
  · exact (startsWithLetter_append (ne_nil_of_startsWithLetter h.leads) _).trans h.leads
  · exact isNameChar_of_mem_numbered h.made hc
  · obtain ⟨c, hc⟩ := List.exists_mem_of_ne_nil (Text.ofNat k) (Text.ofNat_ne_nil k)
    have digit := Text.isDecimal_of_mem_ofNat hc
    refine notMem_reservedWords (List.mem_append_right name hc) (Bool.eq_false_iff.mpr ?_)
    exact fun small => not_isAlpha_of_isDecimal digit (isAlpha_of_isLower small)

theorem IsMethodName.of_isVariant (h : IsMethodName name) (same : IsVariant name variant) :
    IsMethodName variant := by
  obtain rfl | ⟨k, -, rfl⟩ := same
  · exact h
  · exact h.numbered k

end Variant

end PageObjects
