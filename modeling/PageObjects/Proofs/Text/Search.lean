import Mathlib.Data.List.TakeWhile
import PageObjects.Text.Search

namespace PageObjects

namespace Text

variable {p : Char → Bool} {s t r : Text}

/-- What is taken off the front stops where the first character does not belong to it. -/
theorem takeWhile_append (all : ∀ c ∈ s, p c = true) (stop : ∀ c ∈ r.head?, p c = false) :
    (s ++ r).takeWhile p = s ∧ (s ++ r).dropWhile p = r := by
  rw [List.takeWhile_append_of_pos all, List.dropWhile_append_of_pos all]
  cases r with
  | nil => exact ⟨List.append_nil s, rfl⟩
  | cons c r =>
    have other : ¬ p c = true := by simp [stop c rfl]
    rw [List.takeWhile_cons_of_neg other, List.dropWhile_cons_of_neg other]
    exact ⟨List.append_nil s, rfl⟩

theorem run?_append (filled : s ≠ []) (all : ∀ c ∈ s, p c = true)
    (stop : ∀ c ∈ r.head?, p c = false) : run? p (s ++ r) = some (s, r) := by
  obtain ⟨taken, left⟩ := takeWhile_append all stop
  rw [run?, taken, left]
  exact if_neg (by simpa using filled)

theorem eq_append_of_run? (h : run? p t = some (s, r)) : (∀ c ∈ s, p c = true) ∧ t = s ++ r := by
  rw [run?] at h
  split at h
  next => cases h
  next =>
    obtain ⟨rfl, rfl⟩ := Prod.mk.inj (Option.some.inj h)
    exact ⟨fun c hc => List.mem_takeWhile_imp hc, List.takeWhile_append_dropWhile.symm⟩

theorem exists_of_afterMark? {mark : Char} (h : afterMark? mark t = some r) :
    ∃ lead, t = lead ++ mark :: r := by
  rw [afterMark?] at h
  split at h
  next c r' start =>
    split at h
    next same =>
      obtain rfl := Option.some.inj h
      refine ⟨t.takeWhile isBlank, ?_⟩
      rw [← same, ← start, trimStart, List.takeWhile_append_dropWhile]
    next => cases h
  next => cases h

/-- A pattern occurs where it matches what follows some place, whatever stands before the place. -/
theorem isSome_search?_iff {α : Type} {read? : Text → Option α} {before : Option Char} :
    (search? (fun _ r => read? r) before t).isSome = true ↔
      ∃ r, r <:+ t ∧ (read? r).isSome = true := by
  induction t generalizing before with
  | nil =>
    rw [search?]
    exact ⟨fun own => ⟨[], List.suffix_rfl, own⟩, fun ⟨r, rest, own⟩ =>
      List.suffix_nil.mp rest ▸ own⟩
  | cons c t ih =>
    rw [search?]
    split
    next x own => exact ⟨fun _ => ⟨c :: t, List.suffix_rfl, by rw [own]; rfl⟩, fun _ => rfl⟩
    next unseen =>
      rw [ih]
      constructor
      · rintro ⟨r, rest, own⟩
        exact ⟨r, rest.trans (List.suffix_cons c t), own⟩
      · rintro ⟨r, rest, own⟩
        rcases List.suffix_cons_iff.mp rest with rfl | rest
        · rw [unseen] at own
          cases own
        · exact ⟨r, rest, own⟩

theorem occurs_iff {α : Type} {read? : Text → Option α} :
    occurs read? t = true ↔ ∃ r, r <:+ t ∧ (read? r).isSome = true := isSome_search?_iff

theorem find?_of_read? {α : Type} {read? : Text → Option α} {x : α} (h : read? t = some x) :
    find? read? t = some x := by
  cases t with
  | nil => exact h
  | cons c t => rw [find?, search?, h]

/-- Places at which a pattern does not match are passed over. -/
theorem find?_append {α : Type} {read? : Text → Option α}
    (other : ∀ u, u <:+ s → u ≠ [] → read? (u ++ r) = none) :
    find? read? (s ++ r) = find? read? r := by
  have anywhere : ∀ (before : Option Char) (t : Text),
      search? (fun _ r => read? r) before t = find? read? t := by
    intro before t
    cases t <;> rfl
  induction s with
  | nil => rfl
  | cons c s ih =>
    have own := other (c :: s) List.suffix_rfl (List.cons_ne_nil c s)
    rw [List.cons_append] at own ⊢
    rw [find?, search?, own, anywhere]
    exact ih fun u hu => other u (hu.trans (List.suffix_cons c s))

theorem dropPrefix?_append (lead t : Text) : dropPrefix? lead (lead ++ t) = some t := by
  rw [dropPrefix?, if_pos (List.isPrefixOf_iff_prefix.mpr (List.prefix_append lead t)),
    List.drop_left]

theorem length_dropPrefix_le (lead t : Text) : (dropPrefix lead t).length ≤ t.length := by
  rw [dropPrefix, dropPrefix?]
  split
  next => exact (List.drop_sublist _ _).length_le
  next => exact Nat.le_refl _

theorem dropPrefix_cases (lead t : Text) :
    dropPrefix lead t = t ∨ t = lead ++ dropPrefix lead t := by
  rw [dropPrefix, dropPrefix?]
  split
  next front =>
    right
    obtain ⟨r, rfl⟩ := List.isPrefixOf_iff_prefix.mp front
    rw [Option.getD_some, List.drop_left]
  next => exact .inl rfl

/-- A word without a given character ends before it. -/
theorem prefix_of_prefix_append_cons {m : Text} {c : Char} (other : c ∉ m)
    (h : m <+: s ++ c :: t) : m <+: s := by
  have front : s ++ [c] <+: s ++ c :: t := ⟨t, by simp⟩
  rcases List.prefix_or_prefix_of_prefix h front with within | beyond
  · rcases List.prefix_concat_iff.mp within with rfl | within
    · exact absurd (by simp) other
    · exact within
  · exact absurd (beyond.subset (by simp)) other

end Text

end PageObjects
