import Mathlib.Data.List.Chain
import PageObjects.Proofs.Text.Trim

namespace PageObjects

namespace Text

/-- All blanks are spaces, and no two of them are neighbours. -/
structure Tidy (t : Text) : Prop where
  spaces : ∀ c ∈ t, isBlank c = true → c = ' '
  single : t.IsChain fun a b => ¬ (a = ' ' ∧ b = ' ')

/-- A text that is tidy, and starts and ends with what is not blank. -/
structure Neat (t : Text) : Prop extends Tidy t where
  filled : t ≠ []
  front : ∀ c ∈ t.head?, isBlank c = false
  back : ∀ c ∈ t.getLast?, isBlank c = false

theorem Tidy.mono {s t : Text} (h : Tidy t) (part : s <:+: t) : Tidy s :=
  ⟨fun c hc => h.spaces c (part.subset hc), List.IsChain.infix h.single part⟩

theorem Tidy.nil : Tidy [] := ⟨nofun, .nil⟩

theorem Tidy.neat_trim {t : Text} (h : Tidy t) (filled : trim t ≠ []) : Neat (trim t) :=
  ⟨h.mono (infix_trim t), filled, front_trim t, back_trim t⟩

theorem others_of_any {p : Char → Bool} {t : Text} (noHit : t.any p = false) :
    ∀ c ∈ t, p c = false :=
  fun c hc => Bool.eq_false_iff.mpr (List.any_eq_false.mp noHit c hc)

namespace Neat

variable {s t : Text}

theorem trim_eq (h : Neat t) : trim t = t := trim_eq_self h.front h.back

theorem of_words (filled : t ≠ []) (h : ∀ c ∈ t, isBlank c = false) : Neat t := by
  refine ⟨⟨fun c hc blank => ?_, ?_⟩, filled, fun c hc => h c (List.mem_of_mem_head? hc),
    fun c hc => h c (List.mem_of_getLast? hc)⟩
  · rw [h c hc] at blank
    cases blank
  · refine List.isChain_iff_forall_rel_of_append_cons_cons.mpr ?_
    rintro a b before behind rfl ⟨rfl, -⟩
    exact absurd (h ' ' (by simp)) (by decide)

theorem append (hs : Neat s) (ht : Neat t) : Neat (s ++ t) := by
  refine ⟨⟨?_, ?_⟩, List.append_ne_nil_of_left_ne_nil hs.filled t, ?_, ?_⟩
  · rw [List.forall_mem_append]
    exact ⟨hs.spaces, ht.spaces⟩
  · refine List.isChain_append.mpr ⟨hs.single, ht.single, ?_⟩
    rintro a ha b - ⟨rfl, -⟩
    exact absurd (hs.back ' ' ha) (by decide)
  · rw [List.head?_append_of_ne_nil _ hs.filled]
    exact hs.front
  · rw [List.getLast?_append_of_ne_nil _ ht.filled]
    exact ht.back

theorem spaced (hs : Neat s) (ht : Neat t) : Neat (s ++ ' ' :: t) := by
  refine ⟨⟨?_, ?_⟩, List.append_ne_nil_of_left_ne_nil hs.filled _, ?_, ?_⟩
  · rw [List.forall_mem_append, List.forall_mem_cons]
    exact ⟨hs.spaces, fun _ => rfl, ht.spaces⟩
  · refine List.isChain_append.mpr ⟨hs.single, ?_, ?_⟩
    · refine List.isChain_cons.mpr ⟨?_, ht.single⟩
      rintro b hb ⟨-, rfl⟩
      exact absurd (ht.front ' ' hb) (by decide)
    · rintro a ha b - ⟨rfl, -⟩
      exact absurd (hs.back ' ' ha) (by decide)
  · rw [List.head?_append_of_ne_nil _ hs.filled]
    exact hs.front
  · rw [List.getLast?_append_of_ne_nil _ (List.cons_ne_nil _ _),
      List.getLast?_cons_of_ne_nil ht.filled]
    exact ht.back

theorem singleton {c : Char} (h : isBlank c = false) : Neat [c] :=
  of_words (List.cons_ne_nil c []) (by simpa using h)

end Neat

theorem joinWith_cons_cons (sep p q : Text) (ps : List Text) :
    joinWith sep (p :: q :: ps) = p ++ sep ++ joinWith sep (q :: ps) := by
  simp [joinWith, List.intercalate_cons_cons]

theorem joinWith_singleton (sep p : Text) : joinWith sep [p] = p := by
  simp [joinWith]

theorem joinWith_append (sep : Text) {ps qs : List Text} (first : ps ≠ []) (second : qs ≠ []) :
    joinWith sep (ps ++ qs) = joinWith sep ps ++ sep ++ joinWith sep qs := by
  induction ps with
  | nil => exact absurd rfl first
  | cons p ps ih =>
    cases ps with
    | nil =>
      obtain ⟨q, qs, rfl⟩ := List.exists_cons_of_ne_nil second
      rw [List.singleton_append, joinWith_cons_cons, joinWith_singleton]
    | cons next ps =>
      have rest := ih (List.cons_ne_nil next ps)
      rw [List.cons_append] at rest
      rw [List.cons_append, List.cons_append, joinWith_cons_cons, rest, joinWith_cons_cons]
      simp

/-- What holds of the parts and is kept by putting a separator between two texts holds of the parts
joined by it. -/
theorem joinWith_induction {P : Text → Prop} {sep : Text}
    (step : ∀ s t, P s → P t → P (s ++ sep ++ t)) {ps : List Text} (filled : ps ≠ [])
    (h : ∀ p ∈ ps, P p) : P (joinWith sep ps) := by
  induction ps with
  | nil => exact absurd rfl filled
  | cons p ps ih =>
    cases ps with
    | nil =>
      rw [joinWith_singleton]
      exact h p List.mem_cons_self
    | cons q ps =>
      rw [joinWith_cons_cons]
      exact step _ _ (h p List.mem_cons_self)
        (ih (List.cons_ne_nil q ps) fun r hr => h r (List.mem_cons_of_mem p hr))

theorem pieces_ne_nil (sep : Char → Bool) (t : Text) : pieces sep t ≠ [] := by
  cases t with
  | nil => exact List.cons_ne_nil [] []
  | cons c r =>
    rw [pieces]
    split
    next => exact List.cons_ne_nil _ _
    next => split <;> exact List.cons_ne_nil _ _

theorem pieces_cons_of_sep {sep : Char → Bool} {c : Char} (h : sep c = true) (r : Text) :
    pieces sep (c :: r) = [] :: pieces sep r := by
  rw [pieces, if_pos h]

theorem exists_pieces_cons {sep : Char → Bool} {c : Char} (h : sep c = false) (r : Text) :
    ∃ p ps, pieces sep r = p :: ps ∧ pieces sep (c :: r) = (c :: p) :: ps := by
  obtain ⟨p, ps, hp⟩ := List.exists_cons_of_ne_nil (pieces_ne_nil sep r)
  exact ⟨p, ps, hp, by rw [pieces, if_neg (by simp [h]), hp]⟩

theorem pieces_of_others {sep : Char → Bool} {s : Text} (other : ∀ c ∈ s, sep c = false) :
    pieces sep s = [s] := by
  induction s with
  | nil => rfl
  | cons c s ih =>
    obtain ⟨own, other⟩ := List.forall_mem_cons.mp other
    obtain ⟨p, ps, rest, whole⟩ := exists_pieces_cons own s
    obtain ⟨rfl, rfl⟩ := List.cons.inj ((ih other).symm.trans rest)
    exact whole

/-- A separator cuts a text in two, and each is cut for itself. -/
theorem pieces_append_cons {sep : Char → Bool} {c : Char} (h : sep c = true) (s t : Text) :
    pieces sep (s ++ c :: t) = pieces sep s ++ pieces sep t := by
  induction s with
  | nil => exact pieces_cons_of_sep h t
  | cons d s ih =>
    cases hd : sep d with
    | true =>
      rw [List.cons_append, pieces_cons_of_sep hd, pieces_cons_of_sep hd, ih]
      rfl
    | false =>
      obtain ⟨p, ps, rest, whole⟩ := exists_pieces_cons hd s
      obtain ⟨q, qs, rest', whole'⟩ := exists_pieces_cons hd (s ++ c :: t)
      rw [ih, rest] at rest'
      obtain ⟨rfl, rfl⟩ := List.cons.inj rest'
      rw [List.cons_append, whole, whole']
      rfl

theorem sep_eq_false_of_mem_pieces {sep : Char → Bool} {t p : Text} (hp : p ∈ pieces sep t) :
    ∀ c ∈ p, sep c = false := by
  induction t generalizing p with
  | nil =>
    obtain rfl := List.mem_singleton.mp hp
    exact nofun
  | cons c r ih =>
    cases hc : sep c with
    | true =>
      rw [pieces_cons_of_sep hc] at hp
      rcases List.mem_cons.mp hp with rfl | hp
      · exact nofun
      · exact ih hp
    | false =>
      obtain ⟨first, ps, rest, whole⟩ := exists_pieces_cons hc r
      rw [whole] at hp
      rw [rest] at ih
      rcases List.mem_cons.mp hp with rfl | hp
      · exact List.forall_mem_cons.mpr ⟨hc, ih List.mem_cons_self⟩
      · exact ih (List.mem_cons_of_mem _ hp)

theorem neat_of_mem_splitBlank {t p : Text} (hp : p ∈ splitBlank t) : Neat p := by
  obtain ⟨own, filled⟩ := List.mem_filter.mp hp
  exact .of_words (by simpa using filled) (sep_eq_false_of_mem_pieces own)

/-- What is squeezed is neat, unless nothing is left. -/
theorem neat_squeeze {t : Text} (h : squeeze t ≠ []) : Neat (squeeze t) := by
  rw [squeeze, ← joinWith] at h ⊢
  have filled : splitBlank t ≠ [] := by
    intro empty
    rw [empty] at h
    exact h rfl
  refine joinWith_induction (fun s t hs ht => ?_) filled fun p hp => neat_of_mem_splitBlank hp
  rw [List.append_assoc]
  exact hs.spaced ht

/-- Pieces joined by the one separator that there is make up the text. -/
theorem joinWith_pieces {sep : Char → Bool} {mark : Char} {t : Text}
    (only : ∀ c ∈ t, sep c = true → c = mark) : joinWith [mark] (pieces sep t) = t := by
  induction t with
  | nil => rfl
  | cons c r ih =>
    obtain ⟨own, only⟩ := List.forall_mem_cons.mp only
    have ih := ih only
    cases hc : sep c with
    | true =>
      obtain ⟨p, ps, hp⟩ := List.exists_cons_of_ne_nil (pieces_ne_nil sep r)
      rw [hp] at ih
      rw [pieces_cons_of_sep hc, hp, joinWith_cons_cons, ih, own hc]
      rfl
    | false =>
      obtain ⟨p, ps, hp, whole⟩ := exists_pieces_cons hc r
      rw [hp] at ih
      rw [whole, ← ih]
      cases ps with
      | nil => rw [joinWith_singleton, joinWith_singleton]
      | cons q ps => rw [joinWith_cons_cons, joinWith_cons_cons]; rfl

/-- Between the first piece and the last there is something between any two separators. -/
theorem ne_nil_of_mem_tail_pieces {sep : Char → Bool} {t : Text}
    (single : t.IsChain fun a b => ¬ (sep a = true ∧ sep b = true))
    (back : ∀ c ∈ t.getLast?, sep c = false) : ∀ p ∈ (pieces sep t).tail, p ≠ [] := by
  induction t with
  | nil => exact nofun
  | cons c r ih =>
    cases r with
    | nil =>
      obtain ⟨p, ps, hp, whole⟩ := exists_pieces_cons (back c rfl) []
      obtain ⟨rfl, rfl⟩ := List.cons.inj hp
      rw [whole]
      exact nofun
    | cons d r =>
      obtain ⟨apart, single⟩ := List.isChain_cons_cons.mp single
      have ih := ih single back
      cases hc : sep c with
      | true =>
        have hd : sep d = false := Bool.eq_false_iff.mpr fun hd => apart ⟨hc, hd⟩
        obtain ⟨p, ps, -, whole⟩ := exists_pieces_cons hd r
        rw [whole] at ih
        rw [pieces_cons_of_sep hc, whole]
        exact List.forall_mem_cons.mpr ⟨List.cons_ne_nil d p, ih⟩
      | false =>
        obtain ⟨p, ps, hp, whole⟩ := exists_pieces_cons hc (d :: r)
        rw [hp] at ih
        rw [whole]
        exact ih

/-- No piece is empty where separators stand alone and within the text. -/
theorem filter_pieces_eq_self {sep : Char → Bool} {t : Text} (filled : t ≠ [])
    (single : t.IsChain fun a b => ¬ (sep a = true ∧ sep b = true))
    (front : ∀ c ∈ t.head?, sep c = false) (back : ∀ c ∈ t.getLast?, sep c = false) :
    (pieces sep t).filter (fun p => !p.isEmpty) = pieces sep t := by
  obtain ⟨c, r, rfl⟩ := List.exists_cons_of_ne_nil filled
  have inner := ne_nil_of_mem_tail_pieces single back
  obtain ⟨p, ps, -, whole⟩ := exists_pieces_cons (front c rfl) r
  rw [List.filter_eq_self]
  rw [whole] at inner ⊢
  intro q hq
  rcases List.mem_cons.mp hq with rfl | hq
  · rfl
  · simpa using inner q hq

/-- A neat text is squeezed already. -/
theorem Neat.squeeze_eq {t : Text} (h : Neat t) : squeeze t = t := by
  have single : t.IsChain fun a b => ¬ (isBlank a = true ∧ isBlank b = true) := by
    refine h.single.imp_of_mem_imp fun a b ha hb apart => ?_
    rintro ⟨blank, blank'⟩
    exact apart ⟨h.spaces a ha blank, h.spaces b hb blank'⟩
  rw [squeeze, splitBlank, filter_pieces_eq_self h.filled single h.front h.back]
  exact joinWith_pieces h.spaces

theorem unifyBreaks_append {s : Text} (single : '\r' ∉ s) (t : Text) :
    unifyBreaks (s ++ '\n' :: t) = s ++ '\n' :: unifyBreaks t := by
  have step : ∀ {c : Char} {r : Text}, c ≠ '\r' → unifyBreaks (c :: r) = c :: unifyBreaks r := by
    intro c r other
    rw [unifyBreaks]
    rintro r' rfl
    exact absurd rfl other
  induction s with
  | nil => exact step (by decide)
  | cons c s ih =>
    rw [List.mem_cons, not_or] at single
    rw [List.cons_append, step (Ne.symm single.1), ih single.2, List.cons_append]

/-- A line feed ends a line. -/
theorem lines_append {s : Text} (oneLine : ∀ c ∈ s, isLineBreak c = false) (t : Text) :
    lines (s ++ '\n' :: t) = s :: lines t := by
  have single : '\r' ∉ s := fun there => absurd (oneLine _ there) (by decide)
  have filled := pieces_ne_nil isLineBreak (unifyBreaks t)
  rw [lines, lines, unifyBreaks_append single, pieces_append_cons rfl, pieces_of_others oneLine,
    List.singleton_append, List.getLast?_cons_of_ne_nil filled,
    List.dropLast_cons_of_ne_nil filled]
  split <;> rfl

end Text

theorem isBlank_of_isLineBreak {c : Char} (h : isLineBreak c = true) : isBlank c = true := by
  simp only [isLineBreak, isBlank, Bool.or_eq_true, Bool.and_eq_true, decide_eq_true_eq,
    beq_iff_eq] at h ⊢
  omega

end PageObjects
