import PageObjects.Proofs.Text.Spacing

namespace PageObjects

namespace Text

/-- Two texts of the same words in the same places, with other blanks in the gaps between them. -/
inductive Respaced : Text → Text → Prop where
  | nil : Respaced [] []
  | cons {c : Char} {s t : Text} (word : isBlank c = false) (rest : Respaced s t) :
      Respaced (c :: s) (c :: t)
  | gap {a b s t : Text} (left : a ≠ []) (right : b ≠ [])
      (blankLeft : ∀ c ∈ a, isBlank c = true) (blankRight : ∀ c ∈ b, isBlank c = true)
      (rest : Respaced s t) : Respaced (a ++ s) (b ++ t)

section Squeeze

variable {c : Char} {r : Text}

theorem squeeze_cons_of_blank (hc : isBlank c = true) (r : Text) :
    squeeze (c :: r) = squeeze r := by
  rw [squeeze, splitBlank, pieces_cons_of_sep hc, List.filter_cons_of_neg (by simp), ← splitBlank,
    ← squeeze]

theorem squeeze_append_of_blank {s : Text} (blank : ∀ c ∈ s, isBlank c = true) (t : Text) :
    squeeze (s ++ t) = squeeze t := by
  induction s with
  | nil => rfl
  | cons c s ih =>
    obtain ⟨first, blank⟩ := List.forall_mem_cons.mp blank
    rw [List.cons_append, squeeze_cons_of_blank first, ih blank]

/-- Within a word nothing changes. -/
theorem squeeze_cons_cons {d : Char} (hc : isBlank c = false) (hd : isBlank d = false) :
    squeeze (c :: d :: r) = c :: squeeze (d :: r) := by
  obtain ⟨p, ps, -, inner⟩ := exists_pieces_cons hd r
  obtain ⟨q, qs, same, whole⟩ := exists_pieces_cons hc (d :: r)
  obtain ⟨rfl, rfl⟩ := List.cons.inj (inner.symm.trans same)
  rw [squeeze, squeeze, splitBlank, splitBlank, whole, inner, List.filter_cons_of_pos (by simp),
    List.filter_cons_of_pos (by simp), ← joinWith, ← joinWith]
  cases ps.filter fun p => !p.isEmpty with
  | nil => rw [joinWith_singleton, joinWith_singleton]
  | cons q qs => rw [joinWith_cons_cons, joinWith_cons_cons]; rfl

/-- Behind a word there is a space, if more words follow. -/
theorem squeeze_cons_gap (hc : isBlank c = false) (gap : ∀ d ∈ r.head?, isBlank d = true) :
    squeeze (c :: r) = if squeeze r = [] then [c] else c :: ' ' :: squeeze r := by
  have words : splitBlank (c :: r) = [c] :: splitBlank r := by
    cases r with
    | nil => rw [splitBlank, splitBlank, pieces, pieces, if_neg (by simp [hc])]; rfl
    | cons d r =>
      obtain ⟨p, ps, same, whole⟩ := exists_pieces_cons hc (d :: r)
      rw [pieces_cons_of_sep (gap d rfl)] at same
      obtain ⟨rfl, rfl⟩ := List.cons.inj same
      rw [splitBlank, splitBlank, whole, pieces_cons_of_sep (gap d rfl),
        List.filter_cons_of_pos (by simp), List.filter_cons_of_neg (by simp)]
  rw [squeeze, words, squeeze, ← joinWith, ← joinWith]
  cases parts : splitBlank r with
  | nil => rfl
  | cons p ps =>
    have filled : p ≠ [] := by
      have own : p ∈ splitBlank r := parts ▸ List.mem_cons_self
      exact (neat_of_mem_splitBlank own).filled
    rw [joinWith_cons_cons, if_neg]
    · rfl
    · cases ps with
      | nil => rwa [joinWith_singleton]
      | cons q ps => rw [joinWith_cons_cons]; simp [filled]

end Squeeze

namespace Respaced

variable {s t u v : Text}

theorem refl (t : Text) : Respaced t t := by
  induction t with
  | nil => exact .nil
  | cons c r ih =>
    cases hc : isBlank c with
    | false => exact .cons hc ih
    | true =>
      have single : ∀ d ∈ [c], isBlank d = true := List.forall_mem_singleton.mpr hc
      exact .gap (List.cons_ne_nil c []) (List.cons_ne_nil c []) single single ih

theorem append (h : Respaced s t) (rest : Respaced u v) : Respaced (s ++ u) (t ++ v) := by
  induction h with
  | nil => exact rest
  | cons word _ ih => exact .cons word ih
  | gap left right blankLeft blankRight _ ih =>
    rw [List.append_assoc, List.append_assoc]
    exact .gap left right blankLeft blankRight ih

theorem eq_nil_iff (h : Respaced s t) : s = [] ↔ t = [] := by
  cases h with
  | nil => exact Iff.rfl
  | cons => simp
  | gap left right => simp [left, right]

/-- A word at the front of the one is a word at the front of the other. -/
theorem head?_eq {c : Char} (h : Respaced s t) (word : isBlank c = false) :
    s.head? = some c ↔ t.head? = some c := by
  cases h with
  | nil => exact Iff.rfl
  | cons => exact Iff.rfl
  | @gap a b s t left right blankLeft blankRight =>
    have other : ∀ {a s : Text}, a ≠ [] → (∀ d ∈ a, isBlank d = true) →
        (a ++ s).head? ≠ some c := by
      intro a s filled blank front
      rw [List.head?_append_of_ne_nil _ filled] at front
      rw [blank c (List.mem_of_mem_head? front)] at word
      cases word
    exact iff_of_false (other left blankLeft) (other right blankRight)

theorem getLast?_eq {c : Char} (h : Respaced s t) (word : isBlank c = false)
    (last : s.getLast? = some c) : t.getLast? = some c := by
  induction h with
  | nil => exact last
  | @cons d s t _ rest ih =>
    cases s with
    | nil => rwa [rest.eq_nil_iff.mp rfl]
    | cons e s =>
      have filled : t ≠ [] := fun empty => List.cons_ne_nil e s (rest.eq_nil_iff.mpr empty)
      rw [List.getLast?_cons_of_ne_nil (List.cons_ne_nil e s)] at last
      rw [List.getLast?_cons_of_ne_nil filled, ih last]
  | @gap a b s t left _ blankLeft _ rest ih =>
    cases s with
    | nil =>
      rw [List.append_nil] at last
      rw [blankLeft c (List.mem_of_getLast? last)] at word
      cases word
    | cons e s =>
      have filled : t ≠ [] := fun empty => List.cons_ne_nil e s (rest.eq_nil_iff.mpr empty)
      rw [List.getLast?_append_of_ne_nil _ (List.cons_ne_nil e s)] at last
      rw [List.getLast?_append_of_ne_nil _ filled, ih last]

theorem isPrefixOf_eq (h : Respaced s t) {word : Text} (own : ∀ c ∈ word, isBlank c = false) :
    word.isPrefixOf s = word.isPrefixOf t := by
  induction h generalizing word with
  | nil => rfl
  | cons _ _ ih =>
    cases word with
    | nil => rfl
    | cons d word =>
      obtain ⟨-, own⟩ := List.forall_mem_cons.mp own
      rw [List.isPrefixOf, List.isPrefixOf, ih own]
  | gap left right blankLeft blankRight =>
    cases word with
    | nil => rfl
    | cons d word =>
      obtain ⟨first, -⟩ := List.forall_mem_cons.mp own
      have other : ∀ {a s : Text}, a ≠ [] → (∀ e ∈ a, isBlank e = true) →
          (d :: word).isPrefixOf (a ++ s) = false := by
        intro a s filled blank
        obtain ⟨e, a, rfl⟩ := List.exists_cons_of_ne_nil filled
        refine Bool.eq_false_iff.mpr fun front => ?_
        obtain ⟨rfl, -⟩ := List.cons_prefix_cons.mp (List.isPrefixOf_iff_prefix.mp front)
        rw [blank d List.mem_cons_self] at first
        cases first
      rw [other left blankLeft, other right blankRight]

/-- A text without blanks occurs in both or in neither. -/
theorem includes_eq (h : Respaced s t) {word : Text} (filled : word ≠ [])
    (own : ∀ c ∈ word, isBlank c = false) : includes word s = includes word t := by
  have skip : ∀ {a s : Text}, (∀ c ∈ a, isBlank c = true) →
      includes word (a ++ s) = includes word s := by
    intro a s blank
    induction a with
    | nil => rfl
    | cons c a ih =>
      obtain ⟨first, blank⟩ := List.forall_mem_cons.mp blank
      have other : word.isPrefixOf (c :: (a ++ s)) = false := by
        obtain ⟨d, word, rfl⟩ := List.exists_cons_of_ne_nil filled
        refine Bool.eq_false_iff.mpr fun front => ?_
        obtain ⟨rfl, -⟩ := List.cons_prefix_cons.mp (List.isPrefixOf_iff_prefix.mp front)
        have := own d List.mem_cons_self
        rw [first] at this
        cases this
      rw [List.cons_append, includes, other, ih blank, Bool.false_or]
  induction h with
  | nil => rfl
  | cons word rest ih =>
    rw [includes, includes, ih, (Respaced.cons word rest).isPrefixOf_eq own]
  | gap _ _ blankLeft blankRight _ ih => rw [skip blankLeft, skip blankRight, ih]

/-- Squeezing makes them equal. -/
theorem squeeze_eq (h : Respaced s t) : squeeze s = squeeze t := by
  induction h with
  | nil => rfl
  | @cons c s t word rest ih =>
    by_cases front : ∃ d, s.head? = some d ∧ isBlank d = false
    · obtain ⟨d, hs, hd⟩ := front
      have ht := (rest.head?_eq hd).mp hs
      obtain ⟨s, rfl⟩ := List.head?_eq_some_iff.mp hs
      obtain ⟨t, rfl⟩ := List.head?_eq_some_iff.mp ht
      rw [squeeze_cons_cons word hd, squeeze_cons_cons word hd, ih]
    · have left : ∀ d ∈ s.head?, isBlank d = true := by
        intro d hs
        by_contra hd
        exact front ⟨d, hs, Bool.eq_false_iff.mpr hd⟩
      have right : ∀ d ∈ t.head?, isBlank d = true := by
        intro d ht
        by_contra hd
        have hd := Bool.eq_false_iff.mpr hd
        exact front ⟨d, (rest.head?_eq hd).mpr ht, hd⟩
      rw [squeeze_cons_gap word left, squeeze_cons_gap word right, ih]
  | gap _ _ blankLeft blankRight _ ih =>
    rw [squeeze_append_of_blank blankLeft, squeeze_append_of_blank blankRight, ih]

end Respaced

/-- What is squeezed of a text has other blanks between the words than the text between its first
word and its last. -/
theorem exists_respaced_squeeze (t : Text) : ∃ lead core tail, t = lead ++ (core ++ tail) ∧
    (∀ c ∈ lead, isBlank c = true) ∧ (∀ c ∈ tail, isBlank c = true) ∧
      (∀ c ∈ core.head?, isBlank c = false) ∧ (∀ c ∈ core.getLast?, isBlank c = false) ∧
        Respaced core (squeeze t) := by
  induction t with
  | nil => exact ⟨[], [], [], rfl, nofun, nofun, nofun, nofun, .nil⟩
  | cons c r ih =>
    obtain ⟨lead, core, tail, whole, front, back, first, last, respaced⟩ := ih
    cases hc : isBlank c with
    | true =>
      refine ⟨c :: lead, core, tail, congrArg (c :: ·) whole,
        List.forall_mem_cons.mpr ⟨hc, front⟩, back, first, last, ?_⟩
      rwa [squeeze_cons_of_blank hc]
    | false =>
      have word : ∀ d ∈ (some c : Option Char), isBlank d = false := by
        intro d hd
        exact Option.some.inj hd ▸ hc
      cases core with
      | nil =>
        have nothing : squeeze r = [] := respaced.eq_nil_iff.mp rfl
        have blank : ∀ d ∈ r, isBlank d = true := by
          rw [whole]
          exact List.forall_mem_append.mpr ⟨front, back⟩
        refine ⟨[], [c], r, rfl, nofun, blank, word, word, ?_⟩
        rw [squeeze_cons_gap hc fun d hd => blank d (List.mem_of_mem_head? hd), if_pos nothing]
        exact .cons hc .nil
      | cons d core =>
        have last : ∀ e ∈ (c :: (lead ++ d :: core)).getLast?, isBlank e = false := by
          rw [← List.cons_append, List.getLast?_append_of_ne_nil _ (List.cons_ne_nil d core)]
          exact last
        refine ⟨[], c :: (lead ++ d :: core), tail, ?_, nofun, back, word, last, ?_⟩
        · rw [whole, ← List.append_assoc]
          rfl
        · cases lead with
          | nil =>
            rw [List.nil_append, List.cons_append] at whole
            rw [whole, squeeze_cons_cons hc (first d rfl), ← whole]
            exact .cons hc respaced
          | cons b lead =>
            have gap : ∀ e ∈ r.head?, isBlank e = true := by
              rw [whole]
              intro e he
              obtain rfl := Option.some.inj he
              exact front _ List.mem_cons_self
            have filled : squeeze r ≠ [] := fun nothing =>
              List.cons_ne_nil d core (respaced.eq_nil_iff.mpr nothing)
            have space : ∀ e ∈ [' '], isBlank e = true := List.forall_mem_singleton.mpr rfl
            rw [squeeze_cons_gap hc gap, if_neg filled]
            exact .cons hc (.gap (List.cons_ne_nil b lead) (List.cons_ne_nil ' ' []) front space
              respaced)

/-- Trimming keeps the words and the gaps between them, and squeezing keeps the words. -/
theorem respaced_squeeze (t : Text) : Respaced (trim t) (squeeze t) := by
  obtain ⟨lead, core, tail, whole, front, back, first, last, respaced⟩ := exists_respaced_squeeze t
  have same : trim t = core := by
    rw [whole, trim_append_of_blank front, trim_append_blanks back, trim_eq_self first last]
  rwa [same]

/-- What squeezing leaves of blanks between two words. -/
def gapOf (blanks : Text) : Text := if blanks.isEmpty then [] else [' ']

theorem respaced_gapOf {blanks : Text} (blank : ∀ c ∈ blanks, isBlank c = true) :
    Respaced blanks (gapOf blanks) := by
  cases blanks with
  | nil => exact .nil
  | cons b blanks =>
    have space : ∀ c ∈ [' '], isBlank c = true := List.forall_mem_singleton.mpr rfl
    have gap := Respaced.gap (List.cons_ne_nil b blanks) (List.cons_ne_nil ' ' []) blank space .nil
    rwa [List.append_nil, List.append_nil] at gap

theorem Neat.gapped {s t : Text} (hs : Neat s) (blanks : Text) (ht : Neat t) :
    Neat (s ++ (gapOf blanks ++ t)) := by
  cases blanks with
  | nil => exact hs.append ht
  | cons b blanks => exact hs.spaced ht

/-- Between neat texts, blanks are squeezed to a gap. -/
theorem Neat.squeeze_gapped {s u : Text} (hs : Neat s) {blanks : Text}
    (blank : ∀ c ∈ blanks, isBlank c = true) {t : Text} (ht : Respaced t u) (hu : Neat u) :
    squeeze (s ++ (blanks ++ t)) = s ++ (gapOf blanks ++ u) := by
  have respaced := (Respaced.refl s).append ((respaced_gapOf blank).append ht)
  rw [respaced.squeeze_eq, (hs.gapped blanks hu).squeeze_eq]

end Text

end PageObjects
