import PageObjects.Proofs.Script.Parts
import PageObjects.Proofs.Script.Quoting
import PageObjects.Proofs.Text.Respaced

namespace PageObjects

open Text

/-- Every character belongs to a string. -/
def Covered : Region → Text → Prop
  | _, [] => True
  | region, c :: r => region.covers c = true ∧ Covered (region.next c) r

/-- A text that is one string and whose scan ends outside of it. -/
structure IsClosedString (t : Text) : Prop where
  filled : t ≠ []
  covered : Covered .code t
  outside : Region.code.after t = .code
  ends : t.getLast? = t.head?

/-- A string literal, between blanks, that is closed. -/
structure IsStringLiteral (t : Text) : Prop where
  read : (Literal.string? t).isSome = true
  single : Literal.isSingleString (trim t) = true
  outside : Region.code.after t = .code

section Covered

variable {region : Region} {s t : Text}

theorem covered_append :
    Covered region (s ++ t) ↔ Covered region s ∧ Covered (region.after s) t := by
  induction s generalizing region with
  | nil => simp [Covered]
  | cons c r ih => rw [List.cons_append, Covered, Covered, ih, and_assoc, Region.after_cons]

theorem Covered.sumCode_eq (h : Covered region t) (step : Char → Int) :
    sumCode step region t = 0 := by
  induction t generalizing region with
  | nil => rfl
  | cons c r ih => rw [sumCode, if_pos h.1, ih h.2, Int.add_zero]

theorem Covered.avoids (h : Covered region t) (p : Int → Char → Bool) (depth : Int) :
    Avoids p region depth t := by
  induction t generalizing region depth with
  | nil => trivial
  | cons c r ih =>
    refine ⟨fun code => ?_, ih h.2 _⟩
    rw [h.1] at code
    cases code

theorem closesAtEnd_iff {q : Char} :
    Literal.closesAtEnd q region t = true ↔ t.getLast? = some q ∧ Covered region t := by
  induction t generalizing region with
  | nil => exact ⟨nofun, nofun⟩
  | cons c r ih =>
    cases r with
    | nil => simp [Literal.closesAtEnd, Covered, and_comm]
    | cons d r =>
      rw [closesAtEnd_cons (List.cons_ne_nil d r), Bool.and_eq_true, ih,
        List.getLast?_cons_of_ne_nil (List.cons_ne_nil d r), Covered]
      exact and_left_comm

end Covered

theorem covered_code_cons {c : Char} {r : Text} :
    Covered .code (c :: r) ↔ isQuote c = true ∧ Covered (.string c) r := by
  rw [Covered, Region.covers]
  constructor
  · rintro ⟨mark, rest⟩
    rw [Region.next, if_pos mark] at rest
    exact ⟨mark, rest⟩
  · rintro ⟨mark, rest⟩
    rw [Region.next, if_pos mark]
    exact ⟨mark, rest⟩

theorem isClosedString_iff {t : Text} : IsClosedString t ↔
    Literal.isSingleString t = true ∧ Region.code.after t = .code := by
  constructor
  · rintro ⟨filled, covered, outside, ends⟩
    refine ⟨?_, outside⟩
    obtain ⟨c, r, rfl⟩ := List.exists_cons_of_ne_nil filled
    obtain ⟨mark, rest⟩ := covered_code_cons.mp covered
    have more : r ≠ [] := by
      rintro rfl
      rw [Region.after_cons, Region.next, if_pos mark] at outside
      cases outside
    rw [List.getLast?_cons_of_ne_nil more] at ends
    rw [Literal.isSingleString, mark, closesAtEnd_iff.mpr ⟨ends, rest⟩, Bool.and_self]
  · rintro ⟨single, outside⟩
    cases t with
    | nil => cases single
    | cons c r =>
      obtain ⟨mark, closes⟩ := Bool.and_eq_true_iff.mp single
      obtain ⟨last, rest⟩ := closesAtEnd_iff.mp closes
      have more : r ≠ [] := by
        rintro rfl
        cases last
      refine ⟨List.cons_ne_nil c r, covered_code_cons.mpr ⟨mark, rest⟩, outside, ?_⟩
      rw [List.getLast?_cons_of_ne_nil more, last, List.head?_cons]

namespace IsClosedString

variable {t : Text}

theorem exists_cons (h : IsClosedString t) : ∃ c r, t = c :: r ∧ isQuote c = true := by
  obtain ⟨c, r, rfl⟩ := List.exists_cons_of_ne_nil h.filled
  exact ⟨c, r, rfl, (covered_code_cons.mp h.covered).1⟩

theorem settled (h : IsClosedString t) : Settled t := ⟨h.outside, h.covered.sumCode_eq _⟩

theorem balanced (h : IsClosedString t) : Balanced t :=
  balanced_iff.mpr ⟨h.settled, h.covered.avoids _ _⟩

theorem solid (h : IsClosedString t) (sep : Char → Bool) : Solid sep t :=
  ⟨h.settled, h.covered.avoids _ _⟩

theorem isBlank_of_isQuote {c : Char} (h : isQuote c = true) : isBlank c = false :=
  isBlank_of_class (by decide) h

theorem isBlank_head? (h : IsClosedString t) : ∀ c ∈ t.head?, isBlank c = false := by
  obtain ⟨c, r, rfl, mark⟩ := h.exists_cons
  intro d hd
  exact Option.some.inj hd ▸ isBlank_of_isQuote mark

theorem head?_ne (h : IsClosedString t) {c : Char} (other : isQuote c = false) :
    t.head? ≠ some c := by
  obtain ⟨d, r, rfl, mark⟩ := h.exists_cons
  intro front
  obtain rfl := Option.some.inj front
  rw [mark] at other
  cases other

theorem trim_eq (h : IsClosedString t) : trim t = t := by
  refine trim_eq_self h.isBlank_head? ?_
  rw [h.ends]
  exact h.isBlank_head?

theorem isPart (h : IsClosedString t) (sep : Char → Bool) : IsPart sep t :=
  ⟨h.solid sep, h.trim_eq, h.filled⟩

/-- It is read as a string unless it is a template with a substitution. -/
theorem string?_eq (h : IsClosedString t) : Literal.string? t =
    if t.head? = some '\x60' ∧ includes "$\x7b" t then none
    else some (Literal.unescape (t.drop 1).dropLast) := by
  have single := (isClosedString_iff.mp h).1
  rw [Literal.string?, Literal.read?, h.trim_eq, if_pos single, Literal.scalar?, if_pos single]
  by_cases template : t.head? = some '\x60' ∧ includes "$\x7b" t
  · rw [if_pos template, if_pos template]
  · rw [if_neg template, if_neg template]

end IsClosedString

namespace Region

/-- Where a scan stands behind blanks. -/
def beyondBlanks : Region → Region
  | code => code
  | string q => string q
  | escape q => string q

variable {region : Region}

theorem Real.next_blank (real : region.Real) {c : Char} (blank : isBlank c = true) :
    region.next c = region.beyondBlanks := by
  have mark := (isPlain_of_isBlank blank).quote
  cases region with
  | code => rw [Region.next, if_neg (by simp [mark])]; rfl
  | string q =>
    have backslash : c ≠ '\\' := by
      rintro rfl
      exact absurd blank (by decide)
    have other : c ≠ q := by
      rintro rfl
      rw [Real, mark] at real
      cases real
    rw [Region.next, if_neg backslash, if_neg other]
    rfl
  | escape q => rfl

theorem Real.after_blanks (real : region.Real) {t : Text} (filled : t ≠ [])
    (blank : ∀ c ∈ t, isBlank c = true) : region.after t = region.beyondBlanks := by
  induction t generalizing region with
  | nil => exact absurd rfl filled
  | cons c r ih =>
    obtain ⟨first, blank⟩ := List.forall_mem_cons.mp blank
    rw [after_cons]
    cases r with
    | nil => exact real.next_blank first
    | cons d r =>
      rw [ih (real.next c) (List.cons_ne_nil d r) blank, real.next_blank first]
      cases region with
      | code => rfl
      | string q => rfl
      | escape q => rfl

theorem Real.covered_blanks (real : region.Real) {t : Text} (filled : t ≠ [])
    (blank : ∀ c ∈ t, isBlank c = true) : Covered region t ↔ region ≠ .code := by
  induction t generalizing region with
  | nil => exact absurd rfl filled
  | cons c r ih =>
    obtain ⟨first, blank⟩ := List.forall_mem_cons.mp blank
    have own : region.covers c = true ↔ region ≠ .code := by
      cases region with
      | code => simp [covers, (isPlain_of_isBlank first).quote]
      | string q => simp [covers]
      | escape q => simp [covers]
    rw [Covered, own]
    cases r with
    | nil => exact and_iff_left trivial
    | cons d r =>
      rw [ih (real.next c) (List.cons_ne_nil d r) blank, real.next_blank first]
      cases region with
      | code => simp
      | string q => simp [beyondBlanks]
      | escape q => simp [beyondBlanks]

end Region

namespace Text.Respaced

variable {s t : Text} {region : Region}

/-- A scan does not tell how many blanks there are in a gap, and which. -/
theorem after_eq (h : Respaced s t) (real : region.Real) : region.after s = region.after t := by
  induction h generalizing region with
  | nil => rfl
  | @cons c s t word rest ih => rw [Region.after_cons, Region.after_cons, ih (real.next c)]
  | gap left right blankLeft blankRight rest ih =>
    rw [Region.after_append, Region.after_append, real.after_blanks left blankLeft,
      ← real.after_blanks right blankRight]
    exact ih (real.after _)

theorem covered_iff (h : Respaced s t) (real : region.Real) :
    Covered region s ↔ Covered region t := by
  induction h generalizing region with
  | nil => exact Iff.rfl
  | @cons c s t word rest ih => rw [Covered, Covered, ih (real.next c)]
  | gap left right blankLeft blankRight rest ih =>
    rw [covered_append, covered_append, real.covered_blanks left blankLeft,
      real.covered_blanks right blankRight, real.after_blanks left blankLeft,
      ← real.after_blanks right blankRight, ih (real.after _)]

theorem isClosedString (h : Respaced s t) (closed : IsClosedString s) : IsClosedString t := by
  obtain ⟨c, r, rfl, mark⟩ := closed.exists_cons
  have word := IsClosedString.isBlank_of_isQuote mark
  have front : t.head? = some c := (h.head?_eq word).mp rfl
  have real : Region.code.Real := trivial
  refine ⟨?_, (h.covered_iff real).mp closed.covered, ?_, ?_⟩
  · rintro rfl
    cases front
  · rw [← h.after_eq real, closed.outside]
  · rw [front]
    exact h.getLast?_eq word closed.ends

/-- Of two closed strings that differ in their gaps, both are templates with a substitution or
neither. -/
theorem isSome_string? (h : Respaced s t) (closed : IsClosedString s) :
    (Literal.string? s).isSome = (Literal.string? t).isSome := by
  have mark : s.head? = some '\x60' ↔ t.head? = some '\x60' := h.head?_eq rfl
  have within : includes "$\x7b" s = includes "$\x7b" t :=
    h.includes_eq (List.cons_ne_nil _ _) (others_of_any (by decide))
  rw [closed.string?_eq, (h.isClosedString closed).string?_eq, within]
  simp only [mark]
  split
  next => rfl
  next => rfl

end Text.Respaced

namespace IsStringLiteral

variable {q : Text}

theorem closed_trim (h : IsStringLiteral q) : IsClosedString (trim q) := by
  obtain ⟨lead, tail, whole, front, back⟩ := exists_trim_append q
  have outside := h.outside
  rw [whole, List.append_assoc, Region.after_append,
    (scan_of_plain fun c hc => isPlain_of_isBlank (front c hc)).1, Region.after_append] at outside
  have real : Region.code.Real := trivial
  exact isClosedString_iff.mpr ⟨h.single, eq_code_of_after_blanks (real.after _) back outside⟩

theorem closed_squeeze (h : IsStringLiteral q) : IsClosedString (squeeze q) :=
  (respaced_squeeze q).isClosedString h.closed_trim

theorem exists_string?_squeeze (h : IsStringLiteral q) :
    ∃ value, Literal.string? (squeeze q) = some value := by
  have same : Literal.string? (trim q) = Literal.string? q := by
    rw [Literal.string?, Literal.string?, Literal.read?, Literal.read?, trim_trim]
  refine Option.isSome_iff_exists.mp ?_
  rw [← (respaced_squeeze q).isSome_string? h.closed_trim, same, h.read]

theorem neat_squeeze (h : IsStringLiteral q) : Neat (squeeze q) :=
  Text.neat_squeeze h.closed_squeeze.filled

end IsStringLiteral

end PageObjects
