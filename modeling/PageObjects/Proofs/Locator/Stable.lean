import PageObjects.Proofs.Locator.Value

namespace PageObjects

open Text

theorem normalizeValue_objectText {es : List Text} (entries : ∀ e ∈ es, IsPart isComma e ∧ Neat e)
    (stable : ∀ e ∈ es, normalizeEntry e = e) : normalizeValue (objectText es) = objectText es := by
  have neat := neat_objectText fun e he => (entries e he).2
  have hi : bracedInside? (squeeze (objectText es)) = some (objectInside es) := by
    rw [neat.squeeze_eq]
    exact bracedInside?_braces _
  rw [normalizeValue_of_braced hi, splitArguments_objectInside fun e he => (entries e he).1,
    List.map_congr_left stable, List.map_id']

/-- A spaced text that is read as it was is quoted in the same way again. -/
theorem normalizeValue_quote {v : Text} (spaced : IsSpaced v)
    (read : Literal.string? (quote v) = some v) : normalizeValue (quote v) = quote v := by
  have neat := neat_quote spaced
  rw [← neat.squeeze_eq] at read
  refine normalizeValue_of_string ?_ read ?_
  · rw [neat.squeeze_eq]
    rfl
  · rw [neat.squeeze_eq, quote_eq]
    exact nofun

section Colons

variable {key value : Text} {values : List Text}

theorem isPart_quote {sep : Char → Bool} {v : Text} (neat : Neat (quote v)) :
    IsPart sep (quote v) :=
  ⟨⟨settled_quote v, avoids_quote _ 0 v⟩, neat.trim_eq, neat.filled⟩

/-- Between the parts of the normal form of a value there are colons and nothing else. -/
theorem joinWith_splitTopLevel_normalizeValue
    (parts : ∀ v ∈ values, IsPart isColon v) (joined : IsValue (joinWith [':'] values))
    (free : FreeKeys (joinWith [':'] values)) :
    joinWith [':'] (splitTopLevel isColon (normalizeValue (joinWith [':'] values))) =
      normalizeValue (joinWith [':'] values) := by
  have neat := neat_normalizeValue free joined
  cases hi : bracedInside? (squeeze (joinWith [':'] values)) with
  | none =>
    rcases normalizeValue_of_open joined.toNeat hi with same | quoted
    · have again : splitTopLevel isColon (joinWith [':'] values) = values :=
        splitTopLevel_joinWith rfl isPlain_colon nofun nofun parts
      rw [same, again]
    · rw [quoted] at neat ⊢
      rw [(isPart_quote neat).splitTopLevel_eq, joinWith_singleton]
  | some inside =>
    obtain ⟨whole, -, settled⟩ := joined.within hi
    obtain ⟨keys, later⟩ := free
    -- colons at the depth of the value stand within closing and opening brackets of its inside
    have snug := snug_joinWith parts '{'
    rw [whole, snug_braced (Int.le_refl 0) settled] at snug
    obtain ⟨settled, snug⟩ := (partwise_snug 0).entries (Int.le_refl 1) joined keys hi snug
      fun key values own value =>
        (partwise_snug 0).normalize (later key values own) (Int.le_refl 1) value
    have snug : Snug 0 .code 0 '{' (objectText ((splitArguments inside).map normalizeEntry)) :=
      (snug_braced (Int.le_refl 0) settled).mpr snug
    rw [normalizeValue_of_braced hi] at neat ⊢
    refine joinWith_splitTopLevel_of_snug (settled.bracketed rfl rfl) neat.filled ?_ ?_ snug
    · intro c hc
      obtain rfl := Option.some.inj hc
      rfl
    · intro c hc
      rw [objectText, List.getLast?_concat] at hc
      obtain rfl := Option.some.inj hc
      rfl

/-- An option in normal form is cut into its key and what its value is cut into. -/
theorem normalizeEntry_option (part : IsPart isColon key) (bare : bareKey key = key)
    (filled : value ≠ []) (joined : joinWith [':'] (splitTopLevel isColon value) = value)
    (stable : normalizeValue value = value) :
    normalizeEntry (key ++ ':' :: ' ' :: value) = key ++ ':' :: ' ' :: value := by
  have parts : splitTopLevel isColon value ≠ [] := by
    intro empty
    rw [empty] at joined
    exact filled joined.symm
  obtain ⟨v, vs, cut⟩ := List.exists_cons_of_ne_nil parts
  have space : ' ' :: value = [' '] ++ value := rfl
  rw [normalizeEntry, part.splitTopLevel_append rfl isPlain_colon, space,
    splitTopLevel_blanks isBlank_of_mem_space isColon_of_mem_space, cut]
  rw [cut] at joined
  dsimp only
  rw [joined, stable, bare]
  rfl

/-- So is one whose key is gone, if its value is not cut. -/
theorem normalizeEntry_keyless (part : IsPart isColon value) (neat : Neat value) :
    normalizeEntry (':' :: ' ' :: value) = ':' :: ' ' :: value := by
  have colon : Neat [':'] := .singleton rfl
  have whole : Neat (':' :: ' ' :: value) := colon.spaced neat
  have space : ' ' :: value = [' '] ++ value := rfl
  have first : splitTopLevel isColon ([] ++ ':' :: ' ' :: value) =
      splitTopLevel isColon (' ' :: value) := splitTopLevel_append .nil rfl isPlain_colon
  rw [List.nil_append, space, splitTopLevel_blanks isBlank_of_mem_space isColon_of_mem_space,
    part.splitTopLevel_eq] at first
  rw [normalizeEntry, space, first]
  exact whole.trim_eq

end Colons

theorem isPart_normalizeEntry {t inside e : Text} (value : IsValue t) (free : FreeKeys t)
    (hi : bracedInside? (squeeze t) = some inside) (he : e ∈ splitArguments inside) :
    IsPart isComma (normalizeEntry e) ∧ Neat (normalizeEntry e) := by
  obtain ⟨keys, later⟩ := free
  obtain ⟨-, -, settled⟩ := value.within hi
  have entry := isPart_of_mem_splitTopLevel settled he
  have parts := partwise_solid IsInert.comma
  obtain ⟨settled, solid⟩ := parts.entry (Int.le_refl 0) value keys hi he entry.whole
    fun key values own value => parts.normalize (later key values own) (Int.le_refl 0) value
  have neat := neat_normalizeEntry value keys hi he fun key values own value =>
    neat_normalizeValue (later key values own) value
  exact ⟨⟨⟨settled, solid⟩, neat.trim_eq, neat.filled⟩, neat⟩

/-- The normal form of an entry is its own normal form if that is so of the value of an option. -/
theorem normalizeEntry_normalizeEntry {t inside e : Text} (value : IsValue t) (free : FreeKeys t)
    (hi : bracedInside? (squeeze t) = some inside) (he : e ∈ splitArguments inside)
    (stable : ∀ key values, HasOption t key values → IsValue (joinWith [':'] values) →
      normalizeValue (normalizeValue (joinWith [':'] values)) =
        normalizeValue (joinWith [':'] values)) :
    normalizeEntry (normalizeEntry e) = normalizeEntry e := by
  obtain ⟨keys, later⟩ := free
  obtain ⟨-, -, settled⟩ := value.within hi
  rcases normalizeEntry_cases e with kept | ⟨key, values, braced, cut, same⟩
  · have entry := isPart_of_mem_splitTopLevel settled he
    rw [entry.trimmed] at kept
    rw [kept, kept]
  · have option : HasOption t key values := ⟨braced, inside, e, hi, he, cut⟩
    obtain ⟨⟨partKey, -⟩, partValues, joined⟩ := value.option option
    have free := keys key values option
    have inner := later key values option
    have neat := neat_normalizeValue inner joined
    rw [same]
    by_cases empty : bareKey key = []
    · -- then the value is in one part, so that the colon before it is the only one
      obtain ⟨v, rfl⟩ := List.length_eq_one_iff.mp (free.single empty)
      have own : IsPart isColon v := partValues v (List.mem_singleton_self v)
      rw [joinWith_singleton] at inner joined neat ⊢
      rw [empty]
      exact normalizeEntry_keyless (isPart_normalizeValue IsInert.colon inner joined own) neat
    · exact normalizeEntry_option (free.isPart partKey empty) free.bareKey_bareKey neat.filled
        (joinWith_splitTopLevel_normalizeValue partValues joined inner)
        (stable key values option joined)

/-- The normal form of a value is its own normal form. -/
theorem normalizeValue_normalizeValue {t : Text} (free : FreeKeys t) (value : IsValue t) :
    normalizeValue (normalizeValue t) = normalizeValue t := by
  induction free with
  | @intro t keys later ih =>
    cases hi : bracedInside? (squeeze t) with
    | none =>
      rcases normalizeValue_of_open value.toNeat hi with same | quoted
      · rw [same, same]
      · rw [quoted]
        exact normalizeValue_quote (isSpaced_unescape (value.toTidy.mono (infix_inside t)))
          (Literal.string?_quote_unescape _)
    | some inside =>
      have free : FreeKeys t := ⟨keys, later⟩
      rw [normalizeValue_of_braced hi]
      exact normalizeValue_objectText
        (List.forall_mem_map.mpr fun e he => isPart_normalizeEntry value free hi he)
        (List.forall_mem_map.mpr fun e he => normalizeEntry_normalizeEntry value free hi he ih)

/-- The normal form of a value is a string only if the value is one. -/
theorem string?_normalizeValue {t : Text} (free : FreeKeys t) (value : IsValue t)
    (other : Literal.string? t = none) : Literal.string? (normalizeValue t) = none := by
  have neat := neat_normalizeValue free value
  have squeezed := value.squeeze_eq
  cases hi : bracedInside? (squeeze t) with
  | none =>
    have same : normalizeValue t = t := by
      rw [normalizeValue_of_other hi (.inl (squeezed.symm ▸ other)), squeezed]
    rw [same, other]
  | some inside =>
    have braced := normalizeValue_of_braced hi
    refine Literal.string?_eq_none neat.trim_eq ?_
    rw [braced]
    intro c hc
    obtain rfl := Option.some.inj hc
    decide

end PageObjects
