import PageObjects.Proofs.Name.Identifier

namespace PageObjects

open Text

/-- A name of letters and digits that starts with the given word, or with a letter if there is none:
it starts with a digit if that word is a number. -/
structure IsTitleOf (lead : Option Text) (t : Text) : Prop where
  filled : t ≠ []
  made : ∀ c ∈ t, isNameChar c = true
  leads : t.startsWithLetter = !lead.any Text.isNumber

namespace IsTitleOf

variable {lead : Option Text} {t : Text}

theorem of_isIdentifier (h : IsIdentifier t) : IsTitleOf none t :=
  ⟨ne_nil_of_startsWithLetter h.leads, h.made, h.leads⟩

theorem pascal {words : List Text} (h : ∀ w ∈ words, w.IsWord) (filled : words ≠ []) :
    IsTitleOf words.head? (pascal words) := by
  obtain ⟨w, ws, rfl⟩ := List.exists_cons_of_ne_nil filled
  have word := h w List.mem_cons_self
  obtain ⟨filled, leads⟩ := pascal_cons word ws
  exact ⟨filled, fun c hc => isNameChar_of_mem_pascal h hc, leads.trans word.startsWithLetter_eq⟩

theorem pascal_or {words : List Text} (h : ∀ w ∈ words, w.IsWord) {fixed : Text}
    (name : IsIdentifier fixed) :
    IsTitleOf words.head? (if words.isEmpty then fixed else PageObjects.pascal words) := by
  cases words with
  | nil => exact .of_isIdentifier name
  | cons w ws => exact .pascal h (List.cons_ne_nil w ws)

theorem append (h : IsTitleOf lead t) {kind : Text} (made : kind.all isNameChar = true) :
    IsTitleOf lead (t ++ kind) := by
  refine ⟨List.append_ne_nil_of_left_ne_nil h.filled kind, fun c hc => ?_, ?_⟩
  · rcases List.mem_append.mp hc with own | last
    · exact h.made c own
    · exact List.all_eq_true.mp made c last
  · exact (startsWithLetter_append h.filled kind).trans h.leads

theorem of_isVariant (h : IsTitleOf lead t) {name : Text} (same : IsVariant t name) :
    IsTitleOf lead name := by
  refine ⟨?_, same.isNameChar h.made, (same.startsWithLetter_eq h.filled).trans h.leads⟩
  obtain rfl | ⟨k, -, rfl⟩ := same
  · exact h.filled
  · exact List.append_ne_nil_of_left_ne_nil h.filled _

/-- A title starts with the first of its own words. -/
theorem of_title (h : IsTitleOf lead t) : IsTitleOf (Text.words t).head? t := by
  refine ⟨h.filled, h.made, ?_⟩
  obtain ⟨c, r, rfl⟩ := List.exists_cons_of_ne_nil h.filled
  have kind := letterKind?_of_isNameChar (h.made c List.mem_cons_self)
  obtain ⟨w, ws, runs⟩ : ∃ w ws, wordRuns (c :: r) = (c :: w) :: ws := exists_wordRuns_cons kind
  have first : (Text.words (c :: r)).head? = some (c.toLower :: w.map Char.toLower) := by
    rw [Text.words, runs]
    rfl
  have word : IsWord (c.toLower :: w.map Char.toLower) :=
    isWord_of_mem_words (List.mem_of_head? first)
  rw [first, Option.any_some, ← word.startsWithLetter_eq]
  exact c.isAlpha_toLower_eq_isAlpha.symm

end IsTitleOf

end PageObjects
