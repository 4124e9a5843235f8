import PageObjects.Proofs.Script.Balance
import PageObjects.Script.Size

namespace PageObjects

/-- A text behind which a scan stands where it stood before it. -/
structure Settled (t : Text) : Prop where
  outside : Region.code.after t = .code
  even : bracketDelta t = 0

/-- In no place of the code does `p` hold of the character and the depth in front of it. -/
def Avoids (p : Int → Char → Bool) : Region → Int → Text → Prop
  | _, _, [] => True
  | region, depth, c :: r =>
    (region.covers c = false → p depth c = false) ∧
      Avoids p (region.next c) (depth + codeStep region c) r

instance decidableAvoids (p : Int → Char → Bool) :
    ∀ (region : Region) (depth : Int) (t : Text), Decidable (Avoids p region depth t)
  | _, _, [] => .isTrue trivial
  | region, depth, c :: r =>
    have := decidableAvoids p (region.next c) (depth + codeStep region c) r
    inferInstanceAs (Decidable ((region.covers c = false → p depth c = false) ∧
      Avoids p (region.next c) (depth + codeStep region c) r))

section Avoids

variable {p q : Int → Char → Bool} {region : Region} {depth : Int} {s t : Text}

theorem avoids_append : Avoids p region depth (s ++ t) ↔ Avoids p region depth s ∧
    Avoids p (region.after s) (depth + sumCode bracketStep region s) t := by
  induction s generalizing region depth with
  | nil => simp [Avoids]
  | cons c r ih =>
    rw [List.cons_append, Avoids, Avoids, ih, and_assoc, sumCode_bracketStep_cons, Int.add_assoc,
      Region.after_cons]

theorem Avoids.mono (h : Avoids p region depth t) (weaker : ∀ d c, q d c = true → p d c = true) :
    Avoids q region depth t := by
  induction t generalizing region depth with
  | nil => trivial
  | cons c r ih =>
    refine ⟨fun code => ?_, ih h.2⟩
    have hp := h.1 code
    cases hq : q depth c with
    | false => rfl
    | true => rw [weaker depth c hq] at hp; cases hp

/-- A scan that counts the depth from elsewhere sees the same. -/
theorem avoids_shift (n : Int) :
    Avoids p region (depth + n) t ↔ Avoids (fun d c => p (d + n) c) region depth t := by
  induction t generalizing region depth with
  | nil => exact Iff.rfl
  | cons c r ih =>
    have step : depth + n + codeStep region c = depth + codeStep region c + n := by omega
    rw [Avoids, Avoids, step, ih]

theorem avoids_of_plain (plain : ∀ c ∈ t, IsPlain c) (h : ∀ c ∈ t, p depth c = false) :
    Avoids p .code depth t := by
  induction t with
  | nil => trivial
  | cons c r ih =>
    obtain ⟨first, plain⟩ := List.forall_mem_cons.mp plain
    obtain ⟨own, h⟩ := List.forall_mem_cons.mp h
    have stays : Region.code.next c = .code := by simp [Region.next, first.quote]
    have level : codeStep .code c = 0 := by
      simp [codeStep, Region.covers, first.quote, bracketStep, first.opener, first.closer]
    refine ⟨fun _ => own, ?_⟩
    rw [stays, level, Int.add_zero]
    exact ih plain h

end Avoids

namespace Settled

variable {s t : Text} {c : Char}

theorem nil : Settled [] := ⟨rfl, rfl⟩

theorem append (hs : Settled s) (ht : Settled t) : Settled (s ++ t) := by
  refine ⟨by rw [Region.after_append, hs.outside, ht.outside], ?_⟩
  rw [bracketDelta, sumCode_append, hs.outside, ← bracketDelta, ← bracketDelta, hs.even, ht.even]
  rfl

theorem of_plain (h : ∀ c ∈ t, IsPlain c) : Settled t :=
  ⟨(scan_of_plain h).1, (scan_of_plain h).2⟩

/-- What follows a settled text is settled if the whole is. -/
theorem of_append (hs : Settled s) (h : Settled (s ++ t)) : Settled t := by
  have outside := h.outside
  have even := h.even
  rw [Region.after_append, hs.outside] at outside
  rw [bracketDelta, sumCode_append, hs.outside, ← bracketDelta, ← bracketDelta, hs.even] at even
  exact ⟨outside, by omega⟩

theorem trim (h : Settled t) : Settled (Text.trim t) := by
  obtain ⟨lead, tail, whole, front, back⟩ := Text.exists_trim_append t
  have start : Settled lead := of_plain fun c hc => isPlain_of_isBlank (front c hc)
  have rest : Settled tail := of_plain fun c hc => isPlain_of_isBlank (back c hc)
  rw [whole, List.append_assoc] at h
  have both := start.of_append h
  have outside := both.outside
  have even := both.even
  rw [Region.after_append] at outside
  -- nothing but blanks follows, and these end no string
  have real : Region.code.Real := trivial
  have stop := eq_code_of_after_blanks (real.after _) back outside
  rw [bracketDelta, sumCode_append, stop, ← bracketDelta, ← bracketDelta, rest.even] at even
  exact ⟨stop, by omega⟩

theorem avoids_append {p : Int → Char → Bool} {depth : Int} (hs : Settled s) :
    Avoids p .code depth (s ++ t) ↔ Avoids p .code depth s ∧ Avoids p .code depth t := by
  have level : depth + sumCode bracketStep .code s = depth := by
    have := hs.even
    rw [bracketDelta] at this
    omega
  rw [PageObjects.avoids_append, hs.outside, level]

theorem avoids_trim {p : Int → Char → Bool} {depth : Int} (ht : Settled t)
    (h : Avoids p .code depth t) : Avoids p .code depth (Text.trim t) := by
  obtain ⟨lead, tail, whole, front, -⟩ := Text.exists_trim_append t
  have start : Settled lead := of_plain fun c hc => isPlain_of_isBlank (front c hc)
  rw [whole, List.append_assoc, start.avoids_append, ht.trim.avoids_append] at h
  exact h.2.1

end Settled

/-- A character that closes a bracket although none is open. -/
def sinksAt (depth : Int) (c : Char) : Bool := isCloser c && decide (depth ≤ 0)

theorem codeStep_eq (region : Region) (c : Char) : codeStep region c =
    if region.covers c then 0 else bracketStep c := rfl

theorem avoids_sinksAt_iff {region : Region} {depth : Int} {t : Text} :
    (0 ≤ depth ∧ Avoids sinksAt region depth t) ↔
      ∀ u, u <+: t → 0 ≤ depth + sumCode bracketStep region u := by
  induction t generalizing region depth with
  | nil =>
    constructor
    · rintro ⟨h, -⟩ u hu
      rw [List.prefix_nil.mp hu, sumCode_nil]
      omega
    · intro h
      have := h [] List.nil_prefix
      rw [sumCode_nil] at this
      exact ⟨by omega, trivial⟩
  | cons c r ih =>
    have step : (0 ≤ depth ∧ Avoids sinksAt region depth (c :: r)) ↔
        0 ≤ depth ∧ 0 ≤ depth + codeStep region c ∧
          Avoids sinksAt (region.next c) (depth + codeStep region c) r := by
      rw [Avoids]
      constructor
      · rintro ⟨h, own, rest⟩
        refine ⟨h, ?_, rest⟩
        rw [codeStep_eq, bracketStep]
        split
        next => omega
        next code =>
          split
          next => omega
          next =>
            split
            next closer =>
              have := own (Bool.eq_false_iff.mpr code)
              simp only [sinksAt, closer, Bool.true_and, decide_eq_false_iff_not] at this
              omega
            next => omega
      · rintro ⟨h, level, rest⟩
        refine ⟨h, fun code => ?_, rest⟩
        rw [sinksAt]
        cases closer : isCloser c with
        | false => rfl
        | true =>
          have opener := isOpener_of_isCloser closer
          simp only [codeStep_eq, code, bracketStep, opener, closer, Bool.false_eq_true, if_false,
            if_true] at level
          simp only [Bool.true_and, decide_eq_false_iff_not]
          omega
    rw [step, ih]
    constructor
    · rintro ⟨h, rest⟩ u hu
      rcases List.prefix_cons_iff.mp hu with rfl | ⟨v, rfl, hv⟩
      · rw [sumCode_nil]
        omega
      · have := rest v hv
        rw [sumCode_bracketStep_cons]
        omega
    · intro h
      have first := h [] List.nil_prefix
      rw [sumCode_nil] at first
      refine ⟨by omega, fun u hu => ?_⟩
      have := h (c :: u) ((List.prefix_cons_inj c).mpr hu)
      rw [sumCode_bracketStep_cons] at this
      omega

theorem balanced_iff {t : Text} : Balanced t ↔ Settled t ∧ Avoids sinksAt .code 0 t := by
  have level : (∀ u, u <+: t → 0 ≤ bracketDelta u) ↔ Avoids sinksAt .code 0 t := by
    have h := @avoids_sinksAt_iff .code 0 t
    simp only [Int.zero_add, Int.le_refl, true_and] at h
    exact h.symm
  constructor
  · exact fun h => ⟨⟨h.outside, h.even⟩, level.mp h.level⟩
  · exact fun ⟨h, sinks⟩ => ⟨h.outside, level.mpr sinks, h.even⟩

theorem Balanced.settled {t : Text} (h : Balanced t) : Settled t := (balanced_iff.mp h).1

theorem Balanced.append {s t : Text} (hs : Balanced s) (ht : Balanced t) : Balanced (s ++ t) := by
  obtain ⟨settled, first⟩ := balanced_iff.mp hs
  obtain ⟨rest, second⟩ := balanced_iff.mp ht
  exact balanced_iff.mpr ⟨settled.append rest, settled.avoids_append.mpr ⟨first, second⟩⟩

theorem balanced_of_plain {t : Text} (h : ∀ c ∈ t, IsPlain c) : Balanced t := by
  refine balanced_iff.mpr ⟨.of_plain h, avoids_of_plain h fun c hc => ?_⟩
  rw [sinksAt, (h c hc).closer, Bool.false_and]

/-- What a balanced text says outside of strings, it says at the depth where it starts or deeper. -/
theorem Balanced.avoids_below {t : Text} (h : Balanced t) (depth : Int) :
    Avoids (fun d _ => decide (d < depth)) .code depth t := by
  have above : ∀ {region : Region} {d : Int} {u : Text},
      (∀ v, v <+: u → 0 ≤ d + sumCode bracketStep region v) →
        Avoids (fun d _ => decide (d < 0)) region d u := by
    intro region d u
    induction u generalizing region d with
    | nil => exact fun _ => trivial
    | cons c r ih =>
      intro level
      have first := level [] List.nil_prefix
      rw [sumCode_nil] at first
      refine ⟨fun _ => decide_eq_false (by omega), ih fun v hv => ?_⟩
      have := level (c :: v) ((List.prefix_cons_inj c).mpr hv)
      rw [sumCode_bracketStep_cons] at this
      omega
  have start : Avoids (fun d _ => decide (d < 0)) .code 0 t := above fun v hv => by
    have := h.level v hv
    rw [bracketDelta] at this
    omega
  have shifted : Avoids (fun d _ => decide (d < depth)) .code (0 + depth) t ↔
      Avoids (fun d _ => decide (d + depth < depth)) .code 0 t := avoids_shift depth
  rw [Int.zero_add] at shifted
  refine shifted.mpr (start.mono fun d _ hd => ?_)
  rw [decide_eq_true_eq] at hd ⊢
  omega

section Bracketed

variable {opener closer : Char} {t : Text} (ho : isOpener opener = true)
  (hc : isCloser closer = true)

include ho hc

theorem Settled.bracketed (h : Settled t) : Settled (opener :: t ++ [closer]) := by
  obtain ⟨up, next⟩ := codeStep_of_isOpener ho
  obtain ⟨down, behind⟩ := codeStep_of_isCloser hc
  have even := h.even
  rw [bracketDelta] at even
  constructor
  · rw [List.cons_append, Region.after_cons, next, Region.after_append, h.outside,
      Region.after_cons, behind, Region.after_nil]
  · rw [bracketDelta, List.cons_append, sumCode_bracketStep_cons, next, sumCode_append, h.outside,
      sumCode_bracketStep_cons, sumCode_nil, up, down, even]
    omega

theorem Settled.avoids_bracketed {p : Int → Char → Bool} {depth : Int} (h : Settled t) :
    Avoids p .code depth (opener :: t ++ [closer]) ↔
      p depth opener = false ∧ Avoids p .code (depth + 1) t ∧ p (depth + 1) closer = false := by
  obtain ⟨up, next⟩ := codeStep_of_isOpener ho
  rw [List.cons_append, Avoids, next, up, h.avoids_append]
  simp [Avoids, Region.covers, isQuote_of_isOpener ho, isQuote_of_isCloser hc]

theorem Balanced.bracketed (h : Balanced t) : Balanced (opener :: t ++ [closer]) := by
  refine balanced_iff.mpr ⟨h.settled.bracketed ho hc, (h.settled.avoids_bracketed ho hc).mpr ?_⟩
  refine ⟨?_, (h.avoids_below 1).mono fun d c sinks => ?_, ?_⟩
  · cases closes : isCloser opener with
    | false => rw [sinksAt, closes, Bool.false_and]
    | true => rw [isOpener_of_isCloser closes] at ho; cases ho
  · simp only [sinksAt, Bool.and_eq_true, decide_eq_true_eq] at sinks ⊢
    omega
  · simp [sinksAt]

end Bracketed

theorem isPlain_of_isComma {c : Char} (h : isComma c = true) : IsPlain c :=
  isPlain_of_class (by decide) h

theorem isPlain_of_isColon {c : Char} (h : isColon c = true) : IsPlain c :=
  isPlain_of_class (by decide) h

theorem isPlain_of_bracketStep {c : Char} (quote : isQuote c = false) (level : bracketStep c = 0) :
    IsPlain c := by
  rw [bracketStep] at level
  split at level
  next => cases level
  next opener =>
    split at level
    next => cases level
    next closer => exact ⟨quote, Bool.eq_false_iff.mpr opener, Bool.eq_false_iff.mpr closer⟩

/-- A separator outside of brackets. -/
def partsAt (sep : Char → Bool) (depth : Int) (c : Char) : Bool :=
  bracketStep c == 0 && depth == 0 && sep c

theorem separates_eq (sep : Char → Bool) (region : Region) (depth : Int) (c : Char) :
    separates sep region depth c = (!region.covers c && partsAt sep depth c) := by
  simp [separates, partsAt, Bool.and_assoc]

/-- A settled text without a separator outside of brackets. -/
structure Solid (sep : Char → Bool) (t : Text) : Prop extends Settled t where
  whole : Avoids (partsAt sep) .code 0 t

namespace Solid

variable {sep : Char → Bool} {s t : Text}

theorem nil : Solid sep [] := ⟨.nil, trivial⟩

theorem append (hs : Solid sep s) (ht : Solid sep t) : Solid sep (s ++ t) :=
  ⟨hs.toSettled.append ht.toSettled, hs.toSettled.avoids_append.mpr ⟨hs.whole, ht.whole⟩⟩

theorem of_plain (plain : ∀ c ∈ t, IsPlain c) (other : ∀ c ∈ t, sep c = false) : Solid sep t := by
  refine ⟨.of_plain plain, avoids_of_plain plain fun c hc => ?_⟩
  rw [partsAt, other c hc, Bool.and_false]

/-- Separators between brackets do not separate. -/
theorem bracketed {opener closer : Char} (ho : isOpener opener = true)
    (hc : isCloser closer = true) (h : Balanced t) : Solid sep (opener :: t ++ [closer]) := by
  refine ⟨h.settled.bracketed ho hc, (h.settled.avoids_bracketed ho hc).mpr ⟨?_, ?_, ?_⟩⟩
  · simp [partsAt, bracketStep, ho]
  · refine (h.avoids_below 1).mono fun d c parts => ?_
    simp only [partsAt, Bool.and_eq_true, beq_iff_eq, decide_eq_true_eq] at parts ⊢
    omega
  · simp [partsAt]

end Solid

/-- How separators cut a settled text apart. -/
inductive Cuts (sep : Char → Bool) : Text → List Text → Prop where
  | whole {t : Text} (solid : Solid sep t) : Cuts sep t [t]
  | cut {s r : Text} {c : Char} {ps : List Text} (solid : Solid sep s) (parts : sep c = true)
      (plain : IsPlain c) (rest : Cuts sep r ps) : Cuts sep (s ++ c :: r) (s :: ps)

/-- How separators cut any text apart: the last piece alone may leave strings or brackets open. -/
inductive Slices (sep : Char → Bool) : Text → List Text → Prop where
  | last {t : Text} (whole : Avoids (partsAt sep) .code 0 t) : Slices sep t [t]
  | cut {s r : Text} {c : Char} {ps : List Text} (solid : Solid sep s) (parts : sep c = true)
      (plain : IsPlain c) (rest : Slices sep r ps) : Slices sep (s ++ c :: r) (s :: ps)

theorem Slices.cuts {sep : Char → Bool} {t : Text} {ps : List Text} (h : Slices sep t ps)
    (settled : Settled t) : Cuts sep t ps := by
  induction h with
  | last whole => exact .whole ⟨settled, whole⟩
  | cut solid parts plain _ ih =>
    have single : Settled [_] := .of_plain (by simpa using plain)
    exact .cut solid parts plain (ih (single.of_append (solid.toSettled.of_append settled)))

section Pieces

variable {sep : Char → Bool} {region : Region} {depth : Int} {s t : Text} {ps : List Text}

theorem topLevelPieces_ne_nil (sep : Char → Bool) (region : Region) (depth : Int) (t : Text) :
    topLevelPieces sep region depth t ≠ [] := by
  cases t with
  | nil => exact List.cons_ne_nil _ _
  | cons c r =>
    rw [topLevelPieces]
    split
    next => exact List.cons_ne_nil _ _
    next =>
      split
      next => exact List.cons_ne_nil _ _
      next => exact List.cons_ne_nil _ _

theorem topLevelPieces_append (h : Avoids (partsAt sep) region depth s) :
    topLevelPieces sep region depth (s ++ t) =
      (topLevelPieces sep (region.after s) (depth + sumCode bracketStep region s) t).modifyHead
        (s ++ ·) := by
  induction s generalizing region depth with
  | nil =>
    simp only [List.nil_append, Region.after_nil, sumCode_nil, Int.add_zero]
    exact (congrFun List.modifyHead_id _).symm
  | cons c r ih =>
    obtain ⟨own, rest⟩ := h
    have stays : separates sep region depth c = false := by
      rw [separates_eq]
      cases code : region.covers c with
      | true => rfl
      | false => rw [own code]; rfl
    rw [List.cons_append, topLevelPieces, if_neg (by simp [stays]), ih rest,
      Region.after_cons, sumCode_bracketStep_cons, Int.add_assoc]
    obtain ⟨p, ps, hp⟩ := List.exists_cons_of_ne_nil (topLevelPieces_ne_nil sep ((region.next c).after r)
      (depth + (codeStep region c + sumCode bracketStep (region.next c) r)) t)
    rw [hp]
    rfl

theorem Solid.topLevelPieces_append (solid : Solid sep s) : topLevelPieces sep .code 0 (s ++ t) =
    (topLevelPieces sep .code 0 t).modifyHead (s ++ ·) := by
  have level : 0 + sumCode bracketStep .code s = 0 := by
    have := solid.even
    rw [bracketDelta] at this
    omega
  rw [PageObjects.topLevelPieces_append solid.whole, solid.outside, level]

theorem topLevelPieces_of_avoids (whole : Avoids (partsAt sep) .code 0 t) :
    topLevelPieces sep .code 0 t = [t] := by
  have pieces := PageObjects.topLevelPieces_append (t := []) whole
  rw [List.append_nil, topLevelPieces, List.modifyHead_cons, List.append_nil] at pieces
  exact pieces

theorem Solid.topLevelPieces_eq (solid : Solid sep t) : topLevelPieces sep .code 0 t = [t] :=
  topLevelPieces_of_avoids solid.whole

theorem Solid.topLevelPieces_cut {c : Char} (solid : Solid sep s) (parts : sep c = true)
    (plain : IsPlain c) :
    topLevelPieces sep .code 0 (s ++ c :: t) = s :: topLevelPieces sep .code 0 t := by
  have cut : separates sep .code 0 c = true := by
    simp [separates, Region.covers, plain.quote, bracketStep, plain.opener, plain.closer, parts]
  have stays : Region.code.next c = .code := by simp [Region.next, plain.quote]
  rw [solid.topLevelPieces_append, topLevelPieces, if_pos cut, stays, List.modifyHead_cons,
    List.append_nil]

/-- A scan that has come as far as `s` without a separator goes on to cut the rest. -/
theorem slices_of_avoids (hs : Avoids (partsAt sep) .code 0 s) : Slices sep (s ++ t)
    ((topLevelPieces sep (Region.code.after s) (0 + sumCode bracketStep .code s) t).modifyHead
      (s ++ ·)) := by
  induction t generalizing s with
  | nil =>
    rw [topLevelPieces, List.modifyHead_cons, List.append_nil]
    exact .last hs
  | cons c r ih =>
    rw [topLevelPieces]
    split
    next cut =>
      simp only [separates, Bool.and_eq_true, Bool.not_eq_true', beq_iff_eq] at cut
      obtain ⟨⟨⟨code, level⟩, even⟩, parts⟩ := cut
      have outside := Region.eq_code_of_covers code
      rw [outside, Region.covers] at code
      have plain := isPlain_of_bracketStep code level
      have solid : Solid sep s := ⟨⟨outside, by rw [bracketDelta]; omega⟩, hs⟩
      have slices := ih (s := []) trivial
      simp only [List.nil_append, Region.after_nil, sumCode_nil, Int.add_zero] at slices
      have same : (topLevelPieces sep .code 0 r).modifyHead (fun p => p) =
          topLevelPieces sep .code 0 r := congrFun List.modifyHead_id _
      rw [same] at slices
      rw [List.modifyHead_cons, List.append_nil, even, outside, Region.next, code]
      exact .cut solid parts plain slices
    next stay =>
      have further : Avoids (partsAt sep) .code 0 (s ++ [c]) := by
        refine avoids_append.mpr ⟨hs, fun code => ?_, trivial⟩
        rw [separates_eq, code] at stay
        simpa using stay
      have slices := ih further
      rw [Region.after_append, sumCode_append, sumCode_bracketStep_cons, sumCode_nil, Int.add_zero,
        ← Int.add_assoc] at slices
      simp only [List.append_assoc, List.singleton_append, Region.after_cons,
        Region.after_nil] at slices
      obtain ⟨p, ps, hp⟩ := List.exists_cons_of_ne_nil (topLevelPieces_ne_nil sep
        ((Region.code.after s).next c)
        (0 + sumCode bracketStep .code s + codeStep (Region.code.after s) c) r)
      rw [hp] at slices ⊢
      simpa using slices

theorem slices_topLevelPieces (sep : Char → Bool) (t : Text) :
    Slices sep t (topLevelPieces sep .code 0 t) := by
  have slices := @slices_of_avoids sep [] t trivial
  have same : (topLevelPieces sep .code 0 t).modifyHead (fun p => p) =
      topLevelPieces sep .code 0 t := congrFun List.modifyHead_id _
  simp only [List.nil_append, Region.after_nil, sumCode_nil, Int.add_zero] at slices
  rwa [same] at slices

theorem cuts_topLevelPieces (h : Settled t) : Cuts sep t (topLevelPieces sep .code 0 t) :=
  (slices_topLevelPieces sep t).cuts h

/-- A text that no separator cuts apart is its only part. -/
theorem splitTopLevel_of_avoids (whole : Avoids (partsAt sep) .code 0 t)
    (trimmed : Text.trim t = t) (filled : t ≠ []) : splitTopLevel sep t = [t] := by
  rw [splitTopLevel, topLevelPieces_of_avoids whole, List.map_singleton, trimmed]
  simp [filled]

end Pieces

end PageObjects
