import PageObjects.Locator.Fragility
import PageObjects.Proofs.Script.Quoting
import PageObjects.Proofs.Text.Search

namespace PageObjects

open Text

/-- The pseudo-classes and locator steps that pick an element by its place. -/
def placeWords : List Text := [
  ":nth-child(", ":nth-of-type(", ":nth-last-child(", ":nth-last-of-type(", ":nth-match(",
  ":first-child", ":first-of-type", ":last-child", ":last-of-type", ".nth(", ".first()", ".last()"]

/-- What picks an element by its place: one of these words, or a filter. -/
inductive IsPlaceMark : Text → Prop where
  | word {m : Text} (own : m ∈ placeWords) : IsPlaceMark m
  | filter {gap : Text} (blank : ∀ c ∈ gap, isBlank c = true) : IsPlaceMark (">>" ++ (gap ++ "nth="))

/-- The characters that a mark of a place can start with. -/
def placeLeads : List Char := [':', '.', '>']

/-- A text in which nothing picks an element by its place. -/
def IsPlaceless (t : Text) : Prop := occurs positionalMark? t = false

instance (t : Text) : Decidable (IsPlaceless t) :=
  inferInstanceAs (Decidable (occurs positionalMark? t = false))

section Mark

variable {m s t : Text}

theorem isSome_positionalMark?_iff :
    (positionalMark? t).isSome = true ↔ ∃ m, IsPlaceMark m ∧ m <+: t := by
  have words : startsWithAny placeWords t = true ↔ ∃ m ∈ placeWords, m <+: t := by
    simp only [startsWithAny, List.any_eq_true, List.isPrefixOf_iff_prefix]
  have filters : ((dropPrefix? ">>" t).any fun r => List.isPrefixOf "nth=" (trimStart r)) = true ↔
      ∃ gap, (∀ c ∈ gap, isBlank c = true) ∧ (">>" ++ (gap ++ "nth=") : Text) <+: t := by
    constructor
    · intro h
      obtain ⟨r, front, next⟩ := (Option.any_eq_true _ _).mp h
      obtain ⟨rest, whole⟩ := List.isPrefixOf_iff_prefix.mp next
      refine ⟨r.takeWhile isBlank, fun c hc => List.mem_takeWhile_imp hc, rest, ?_⟩
      rw [List.append_assoc, List.append_assoc, whole, trimStart, List.takeWhile_append_dropWhile]
      rw [dropPrefix?] at front
      split at front
      next start =>
        obtain ⟨r', rfl⟩ := List.isPrefixOf_iff_prefix.mp start
        rw [List.drop_left] at front
        rw [Option.some.inj front]
      next => cases front
    · rintro ⟨gap, blank, rest, rfl⟩
      have stop : ∀ c ∈ ("nth=" ++ rest : Text).head?, isBlank c = false := by
        intro c hc
        obtain rfl := Option.some.inj hc
        rfl
      rw [List.append_assoc, List.append_assoc, dropPrefix?_append, Option.any_some, trimStart,
        (takeWhile_append blank stop).2]
      exact List.isPrefixOf_iff_prefix.mpr (List.prefix_append _ rest)
  have either : (positionalMark? t).isSome = true ↔ startsWithAny placeWords t = true ∨
      ((dropPrefix? ">>" t).any fun r => List.isPrefixOf "nth=" (trimStart r)) = true := by
    rw [positionalMark?, ← Bool.or_eq_true]
    split
    next own => exact ⟨fun _ => own, fun _ => rfl⟩
    next other => exact ⟨fun own => absurd own Bool.false_ne_true, fun own => absurd own other⟩
  rw [either, words, filters]
  constructor
  · rintro (⟨m, own, front⟩ | ⟨gap, blank, front⟩)
    · exact ⟨m, .word own, front⟩
    · exact ⟨_, .filter blank, front⟩
  · rintro ⟨m, own | blank, front⟩
    · exact .inl ⟨m, own, front⟩
    · exact .inr ⟨_, blank, front⟩

theorem isPlaceless_iff : IsPlaceless t ↔ ∀ m, IsPlaceMark m → ¬ m <:+: t := by
  rw [IsPlaceless, ← Bool.not_eq_true, occurs_iff]
  constructor
  · rintro placeless m mark part
    obtain ⟨r, front, rest⟩ := List.infix_iff_prefix_suffix.mp part
    exact placeless ⟨r, rest, isSome_positionalMark?_iff.mpr ⟨m, mark, front⟩⟩
  · rintro placeless ⟨r, rest, own⟩
    obtain ⟨m, mark, front⟩ := isSome_positionalMark?_iff.mp own
    exact placeless m mark (List.infix_iff_prefix_suffix.mpr ⟨r, front, rest⟩)

namespace IsPlaceMark

theorem exists_cons (h : IsPlaceMark m) : ∃ c r, m = c :: r ∧ c ∈ placeLeads := by
  have leads : ∀ m ∈ placeWords, m.head?.any placeLeads.contains = true := by decide
  cases h with
  | word own =>
    have lead := leads m own
    cases m with
    | nil => cases lead
    | cons c r => exact ⟨c, r, rfl, List.contains_iff_mem.mp lead⟩
  | filter => exact ⟨'>', _, rfl, by decide⟩

/-- What a string is written with but no blank is in no mark. -/
theorem notMem (h : IsPlaceMark m) {c : Char} (other : c = '\\' ∨ c = '\'') : c ∉ m := by
  have words : ∀ m ∈ placeWords, '\\' ∉ m ∧ '\'' ∉ m := by decide
  cases h with
  | word own =>
    rcases other with rfl | rfl
    · exact (words m own).1
    · exact (words m own).2
  | filter blank =>
    rw [List.mem_append, List.mem_append]
    rintro (here | here | here)
    · rcases other with rfl | rfl <;> exact absurd here (by decide)
    · have := blank c here
      rcases other with rfl | rfl <;> cases this
    · rcases other with rfl | rfl <;> exact absurd here (by decide)

end IsPlaceMark

end Mark

section Infix

variable {m s t : Text} {c : Char}

/-- What does not hold a character stands before it or behind it. -/
theorem infix_of_infix_append_cons (other : c ∉ m) (h : m <:+: s ++ c :: t) :
    m <:+: s ∨ m <:+: t := by
  induction s with
  | nil =>
    rcases List.infix_cons_iff.mp h with front | behind
    · have within : m <+: [] := prefix_of_prefix_append_cons (s := []) other front
      exact .inl within.isInfix
    · exact .inr behind
  | cons d s ih =>
    rcases List.infix_cons_iff.mp h with front | behind
    · exact .inl (prefix_of_prefix_append_cons (s := d :: s) other front).isInfix
    · exact (ih behind).imp_left fun within => within.trans (List.suffix_cons d s).isInfix

/-- How characters are written between quotes: as they are, or behind a backslash. -/
def IsEscape (f : Char → Text) (t : Text) : Prop :=
  ∀ c ∈ t, f c = [c] ∨ ∃ d, f c = ['\\', d] ∧ d ∉ placeLeads

theorem IsEscape.prefix_of_prefix {f : Char → Text} (h : IsEscape f t) (other : '\\' ∉ m)
    (front : m <+: t.flatMap f) : m <+: t := by
  induction t generalizing m with
  | nil => exact front
  | cons c t ih =>
    obtain ⟨own, later⟩ := List.forall_mem_cons.mp h
    cases m with
    | nil => exact List.nil_prefix
    | cons d m =>
      rw [List.flatMap_cons] at front
      rcases own with same | ⟨e, pair, -⟩
      · rw [same, List.singleton_append, List.cons_prefix_cons] at front
        obtain ⟨rfl, front⟩ := front
        have rest : '\\' ∉ m := fun here => other (List.mem_cons_of_mem _ here)
        exact List.cons_prefix_cons.mpr ⟨rfl, ih later rest front⟩
      · rw [pair, List.cons_append, List.cons_prefix_cons] at front
        obtain ⟨rfl, -⟩ := front
        exact absurd List.mem_cons_self other

end Infix

namespace IsPlaceless

variable {s t u : Text}

theorem append_cons {c : Char} (hs : IsPlaceless s) (ht : IsPlaceless t)
    (mark : c = '\\' ∨ c = '\'') : IsPlaceless (s ++ c :: t) := by
  refine isPlaceless_iff.mpr fun m own part => ?_
  rcases infix_of_infix_append_cons (own.notMem mark) part with within | within
  · exact isPlaceless_iff.mp hs m own within
  · exact isPlaceless_iff.mp ht m own within

/-- No mark of a place comes about by writing characters behind backslashes. -/
theorem flatMap {f : Char → Text} (h : IsPlaceless t) (written : IsEscape f t) :
    IsPlaceless (t.flatMap f) := by
  refine isPlaceless_iff.mpr fun m own part => isPlaceless_iff.mp h m own ?_
  have other := own.notMem (.inl rfl)
  clear h
  induction t with
  | nil => exact part
  | cons c t ih =>
    have later : IsEscape f t := fun d hd => written d (List.mem_cons_of_mem c hd)
    have behind : m <:+: t.flatMap f → m <:+: c :: t := fun part =>
      (ih later part).trans (List.suffix_cons c t).isInfix
    rw [List.flatMap_cons] at part
    rcases written c List.mem_cons_self with same | ⟨d, pair, lead⟩
    · rw [same, List.singleton_append] at part
      rcases List.infix_cons_iff.mp part with front | part
      · have whole : m <+: (c :: t).flatMap f := by
          rwa [List.flatMap_cons, same]
        exact (written.prefix_of_prefix other whole).isInfix
      · exact behind part
    · -- the mark starts neither with the backslash nor with what is behind it
      obtain ⟨e, r, rfl, start⟩ := own.exists_cons
      rw [pair] at part
      rcases List.infix_cons_iff.mp part with front | part
      · obtain ⟨rfl, -⟩ := List.cons_prefix_cons.mp front
        exact absurd List.mem_cons_self other
      rcases List.infix_cons_iff.mp part with front | part
      · obtain ⟨rfl, -⟩ := List.cons_prefix_cons.mp front
        exact absurd start lead
      · exact behind part

theorem of_mem (h : ∀ c ∈ t, c ∉ placeLeads) : IsPlaceless t := by
  refine isPlaceless_iff.mpr fun m own part => ?_
  obtain ⟨c, r, rfl, lead⟩ := own.exists_cons
  exact h c (part.subset List.mem_cons_self) lead

/-- Nor does any by quoting a text, whatever stands around it. -/
theorem quoted (hs : IsPlaceless s) (h : IsPlaceless t) (hu : IsPlaceless u) :
    IsPlaceless (s ++ quote t ++ u) := by
  have written : IsEscape escapeChar t := by
    intro c _
    unfold escapeChar
    split
    next => exact .inr ⟨'\\', rfl, by decide⟩
    next =>
      split
      next => exact .inr ⟨'\'', rfl, by decide⟩
      next =>
        split
        next => exact .inr ⟨'n', rfl, by decide⟩
        next => exact .inl rfl
  have whole : s ++ quote t ++ u = s ++ '\'' :: (t.flatMap escapeChar ++ '\'' :: u) := by
    rw [quote_eq]
    simp
  rw [whole]
  exact hs.append_cons ((h.flatMap written).append_cons hu (.inr rfl)) (.inr rfl)

end IsPlaceless

end PageObjects
