import PageObjects.Proofs.Text.Letters

namespace PageObjects

namespace Text

/-- A run of letters or a number. -/
structure IsWord (w : Text) : Prop where
  filled : w ≠ []
  uniform : (∀ c ∈ w, c.isAlpha = true) ∨ ∀ c ∈ w, isDecimal c = true

def startsWithLetter (t : Text) : Bool := t.head?.any Char.isAlpha

def isNumber (t : Text) : Bool := t.all isDecimal

namespace IsWord

variable {w : Text}

theorem isNameChar (h : w.IsWord) {c : Char} (hc : c ∈ w) : isNameChar c = true := by
  rcases h.uniform with letters | digits
  · exact isNameChar_iff.mpr (.inl (letters c hc))
  · exact isNameChar_iff.mpr (.inr (digits c hc))

/-- A word that is no number starts with a letter. -/
theorem startsWithLetter_eq (h : w.IsWord) : w.startsWithLetter = !w.isNumber := by
  obtain ⟨c, r, rfl⟩ := List.exists_cons_of_ne_nil h.filled
  rw [startsWithLetter, List.head?_cons, Option.any_some]
  rcases h.uniform with letters | digits
  · have letter := letters c List.mem_cons_self
    have noDigit : ¬isDecimal c = true := fun digit => not_isAlpha_of_isDecimal digit letter
    rw [isNumber, List.all_cons, letter, Bool.eq_false_iff.mpr noDigit]
    rfl
  · have noLetter := not_isAlpha_of_isDecimal (digits c List.mem_cons_self)
    rw [isNumber, List.all_eq_true.mpr digits, Bool.eq_false_iff.mpr noLetter]
    rfl

theorem of_isAlpha (filled : w ≠ []) (letters : w.all Char.isAlpha = true) : w.IsWord :=
  ⟨filled, .inl (List.all_eq_true.mp letters)⟩

theorem singleton {c : Char} (h : PageObjects.isNameChar c = true) : IsWord [c] := by
  refine ⟨List.cons_ne_nil c [], ?_⟩
  rcases isNameChar_iff.mp h with letter | digit
  · exact .inl fun d hd => List.mem_singleton.mp hd ▸ letter
  · exact .inr fun d hd => List.mem_singleton.mp hd ▸ digit

/-- A map that keeps letters letters, and leaves digits alone, keeps words words. -/
theorem of_map {first : Char → Char} {others : Char → Char} {c : Char} {r : Text}
    (h : IsWord (c :: r)) (letters : ∀ d, d.isAlpha = true → (first d).isAlpha = true ∧
      (others d).isAlpha = true) (digits : ∀ d, isDecimal d = true → first d = d ∧ others d = d) :
    IsWord (first c :: r.map others) := by
  refine ⟨List.cons_ne_nil _ _, ?_⟩
  rcases h.uniform with word | number
  · refine .inl (List.forall_mem_cons.mpr ⟨(letters c (word c List.mem_cons_self)).1, ?_⟩)
    intro d hd
    obtain ⟨e, he, rfl⟩ := List.mem_map.mp hd
    exact (letters e (word e (List.mem_cons_of_mem c he))).2
  · refine .inr (List.forall_mem_cons.mpr ⟨?_, ?_⟩)
    · have digit := number c List.mem_cons_self
      rwa [(digits c digit).1]
    · intro d hd
      obtain ⟨e, he, rfl⟩ := List.mem_map.mp hd
      have digit := number e (List.mem_cons_of_mem c he)
      rwa [(digits e digit).2]

end IsWord

/-- A character of a kind starts a run. -/
theorem exists_wordRuns_cons {c : Char} {r : Text} (kind : ¬(letterKind? c).isNone = true) :
    ∃ w ws, wordRuns (c :: r) = (c :: w) :: ws := by
  rw [wordRuns, if_neg kind]
  split
  next =>
    split
    next => exact ⟨_, _, rfl⟩
    next => exact ⟨_, _, rfl⟩
  next => exact ⟨_, _, rfl⟩

end Text

theorem letterKind?_eq_some {c : Char} {kind : LetterKind} (h : letterKind? c = some kind) :
    if kind = .digit then isDecimal c = true else c.isAlpha = true := by
  unfold letterKind? at h
  split at h
  next big =>
    cases h
    exact isAlpha_of_isUpper big
  next =>
    split at h
    next small =>
      cases h
      exact isAlpha_of_isLower small
    next =>
      split at h
      next digit =>
        cases h
        exact digit
      next => cases h

theorem isNameChar_of_letterKind? {c : Char} (hasKind : ¬(letterKind? c).isNone = true) :
    isNameChar c = true := by
  obtain ⟨kind, hk⟩ := Option.ne_none_iff_exists'.mp (mt Option.isNone_iff_eq_none.mpr hasKind)
  have kinds := letterKind?_eq_some hk
  split at kinds
  next => exact isNameChar_iff.mpr (.inr kinds)
  next => exact isNameChar_iff.mpr (.inl kinds)

theorem letterKind?_of_isNameChar {c : Char} (h : isNameChar c = true) :
    ¬(letterKind? c).isNone = true := by
  unfold letterKind?
  split
  next => exact Bool.false_ne_true
  next big =>
    split
    next => exact Bool.false_ne_true
    next small =>
      rcases isNameChar_iff.mp h with letter | digit
      · rw [Char.isAlpha, Bool.or_eq_true] at letter
        exact absurd letter (not_or.mpr ⟨big, small⟩)
      · rw [if_pos digit]
        exact Bool.false_ne_true

/-- Only a letter is joined to a letter and a digit to a digit. -/
theorem kinds_of_joinsNext {c d : Char} {r : Text} (joins : joinsNext c (d :: r) = true) :
    (c.isAlpha = true ∧ d.isAlpha = true) ∨ (isDecimal c = true ∧ isDecimal d = true) := by
  simp only [joinsNext] at joins
  split at joins
  next big small => exact .inl ⟨letterKind?_eq_some big, letterKind?_eq_some small⟩
  next big big' => exact .inl ⟨letterKind?_eq_some big, letterKind?_eq_some big'⟩
  next small small' => exact .inl ⟨letterKind?_eq_some small, letterKind?_eq_some small'⟩
  next digit digit' => exact .inr ⟨letterKind?_eq_some digit, letterKind?_eq_some digit'⟩
  next => cases joins

namespace Text

theorem IsWord.cons {c d : Char} {r : Text} (h : IsWord (d :: r))
    (kinds : (c.isAlpha = true ∧ d.isAlpha = true) ∨ (isDecimal c = true ∧ isDecimal d = true)) :
    IsWord (c :: d :: r) := by
  refine ⟨List.cons_ne_nil _ _, ?_⟩
  rcases h.uniform with letters | digits
  · rcases kinds with ⟨letter, -⟩ | ⟨-, digit⟩
    · exact .inl (List.forall_mem_cons.mpr ⟨letter, letters⟩)
    · exact absurd (letters d List.mem_cons_self) (not_isAlpha_of_isDecimal digit)
  · rcases kinds with ⟨-, letter⟩ | ⟨digit, -⟩
    · exact absurd letter (not_isAlpha_of_isDecimal (digits d List.mem_cons_self))
    · exact .inr (List.forall_mem_cons.mpr ⟨digit, digits⟩)

theorem isWord_of_mem_wordRuns {t w : Text} (h : w ∈ wordRuns t) : w.IsWord := by
  induction t generalizing w with
  | nil => cases h
  | cons c r ih =>
    rw [wordRuns] at h
    split at h
    next => exact ih h
    next kind =>
      split at h
      next joins =>
        -- the next character is of a kind as well, and its run goes on to the left
        cases r with
        | nil => cases joins
        | cons d r =>
          have kinds := kinds_of_joinsNext joins
          obtain ⟨v, vs, runs⟩ : ∃ v vs, wordRuns (d :: r) = (d :: v) :: vs := by
            refine exists_wordRuns_cons fun kindless => ?_
            rw [joinsNext, Option.isNone_iff_eq_none.mp kindless] at joins
            simp at joins
          rw [runs] at h ih
          rcases List.mem_cons.mp h with rfl | h
          · exact (ih List.mem_cons_self).cons kinds
          · exact ih (List.mem_cons_of_mem _ h)
      next =>
        rcases List.mem_cons.mp h with rfl | h
        · exact .singleton (isNameChar_of_letterKind? kind)
        · exact ih h

theorem isWord_of_mem_words {t w : Text} (h : w ∈ words t) : w.IsWord := by
  obtain ⟨run, hr, rfl⟩ := List.mem_map.mp h
  have word := isWord_of_mem_wordRuns hr
  obtain ⟨c, r, rfl⟩ := List.exists_cons_of_ne_nil word.filled
  refine word.of_map (fun d letter => ?_) (fun d digit => ?_)
  · rw [Char.isAlpha_toLower_eq_isAlpha]
    exact ⟨letter, letter⟩
  · exact ⟨toLower_of_isDecimal digit, toLower_of_isDecimal digit⟩

theorem isWord_of_getLast? (segments : List Text) :
    ∀ w ∈ (segments.getLast?.map words).getD [], w.IsWord := by
  intro w hw
  cases last : segments.getLast? with
  | none =>
    rw [last] at hw
    cases hw
  | some t =>
    rw [last] at hw
    exact isWord_of_mem_words hw

theorem isWord_of_mem_wordsOf {t : Option Text} {w : Text} (h : w ∈ wordsOf t) : w.IsWord :=
  isWord_of_mem_words h

end Text

end PageObjects
