import PageObjects.Proofs.Script.Parts

namespace PageObjects

open Text

def isGap (c : Char) : Bool := isBlank c || isColon c

theorem isBlank_of_isGap {c : Char} (h : isGap c = false) : isBlank c = false :=
  (Bool.or_eq_false_iff.mp h).1

/-- Whether two neighbours are no colon with a gap beside it. -/
def isClose (a b : Char) : Bool := !(isColon a && isGap b) && !(isGap a && isColon b)

/-- In code at the given depth no colon has a gap beside it. The scan stands behind `last`. -/
def Snug (level : Int) : Region → Int → Char → Text → Prop
  | _, _, _, [] => True
  | region, depth, last, c :: r =>
    (region = .code → depth = level → isClose last c = true) ∧
      Snug level (region.next c) (depth + codeStep region c) c r

section Snug

variable {level depth : Int} {region : Region} {last other : Char} {s t : Text}

theorem snug_append : Snug level region depth last (s ++ t) ↔ Snug level region depth last s ∧
    Snug level (region.after s) (depth + sumCode bracketStep region s) (s.getLastD last) t := by
  induction s generalizing region depth last with
  | nil => simp [Snug]
  | cons c r ih =>
    rw [List.cons_append, Snug, Snug, ih, and_assoc, sumCode_bracketStep_cons, Int.add_assoc,
      Region.after_cons, List.getLastD_cons]

/-- Where the depth is another one, it does not matter what the scan stands behind. -/
theorem Snug.of_ne (apart : depth ≠ level) (h : Snug level region depth last t) :
    Snug level region depth other t := by
  cases t with
  | nil => trivial
  | cons c r => exact ⟨fun _ here => absurd here apart, h.2⟩

theorem snug_of_plain (apart : depth ≠ level) (plain : ∀ c ∈ t, IsPlain c) :
    Snug level .code depth last t := by
  induction t generalizing last with
  | nil => trivial
  | cons c r ih =>
    obtain ⟨first, plain⟩ := List.forall_mem_cons.mp plain
    have stays : Region.code.next c = .code := by simp [Region.next, first.quote]
    have even : codeStep .code c = 0 := by
      simp [codeStep, Region.covers, first.quote, bracketStep, first.opener, first.closer]
    refine ⟨fun _ here => absurd here apart, ?_⟩
    rw [stays, even, Int.add_zero]
    exact ih plain

theorem snug_flatMap_escapeChar (v : Text) :
    Snug level (.string '\'') depth last (v.flatMap escapeChar) := by
  induction v generalizing last with
  | nil => trivial
  | cons c r ih =>
    rw [List.flatMap_cons]
    refine snug_append.mpr ⟨?_, ?_⟩
    · rcases escapeChar_cases c with ⟨single, -⟩ | ⟨d, pair, -⟩
      · rw [single]
        exact ⟨nofun, trivial⟩
      · rw [pair]
        exact ⟨nofun, nofun, trivial⟩
    · rw [after_escapeChar, sumCode_escapeChar, Int.add_zero]
      exact ih

theorem snug_quote (apart : depth ≠ level) (v : Text) :
    Snug level .code depth last (quote v) := by
  have opened : Region.code.next '\'' = .string '\'' := rfl
  have even : codeStep .code '\'' = 0 := rfl
  rw [quote_eq]
  refine ⟨fun _ here => absurd here apart, ?_⟩
  rw [opened, even, Int.add_zero]
  refine snug_append.mpr ⟨snug_flatMap_escapeChar v, ?_⟩
  rw [after_flatMap_escapeChar]
  exact ⟨nofun, trivial⟩

theorem Settled.snug_append (hs : Settled s) : Snug level .code depth last (s ++ t) ↔
    Snug level .code depth last s ∧ Snug level .code depth (s.getLastD last) t := by
  have even : depth + sumCode bracketStep .code s = depth := by
    have := hs.even
    rw [bracketDelta] at this
    omega
  rw [PageObjects.snug_append, hs.outside, even]

/-- What is snug within brackets is so in any place, as no colon stands beside a bracket there. -/
theorem snug_braced (reached : level ≤ depth) (ht : Settled t) :
    Snug level .code depth last ('{' :: t ++ ['}']) ↔
      ∀ other, Snug level .code (depth + 1) other t := by
  have close : isClose last '{' = true := by simp [isClose, isGap, isColon, isBlank]
  have apart : depth + 1 ≠ level := by omega
  have opened : Region.code.next '{' = .code := rfl
  have up : codeStep .code '{' = 1 := rfl
  rw [List.cons_append, Snug, opened, up, ht.snug_append]
  constructor
  · rintro ⟨-, inner, -⟩ other
    exact inner.of_ne apart
  · exact fun h => ⟨fun _ _ => close, h '{', fun _ here => absurd here apart, trivial⟩

end Snug

/-- Within brackets that stand at the depth or above it, being snug is told part by part. -/
theorem partwise_snug (level : Int) :
    Partwise (level + 1) fun d t => ∀ last, Snug level .code d last t where
  append {d s t} hd hs := by
    have apart : d ≠ level := by omega
    constructor
    · intro h
      exact ⟨fun last => (hs.snug_append.mp (h last)).1,
        fun last => (hs.snug_append.mp (h last)).2.of_ne apart⟩
    · exact fun ⟨first, second⟩ last => hs.snug_append.mpr ⟨first last, second _⟩
  inert {d t} hd h last := snug_of_plain (by omega) fun c hc => (h c hc).toIsPlain
  quoted {d} v hd last := snug_quote (by omega) v
  braced {d t} hd ht := by
    have empty : ∀ last, Snug level .code d last ['{', '}'] := fun last =>
      (snug_braced (by omega) .nil).mpr fun _ => trivial
    constructor
    · exact fun h => ⟨empty, (snug_braced (by omega) ht).mp (h '{')⟩
    · exact fun ⟨_, inner⟩ last => (snug_braced (by omega) ht).mpr inner

theorem isClose_colon_right (c : Char) : isClose c ':' = !isGap c := by
  have colon : isColon ':' = true := rfl
  have gap : isGap ':' = true := rfl
  rw [isClose, colon, gap, isGap]
  cases isBlank c <;> cases isColon c <;> rfl

theorem isClose_colon_left (c : Char) : isClose ':' c = !isGap c := by
  have colon : isColon ':' = true := rfl
  have gap : isGap ':' = true := rfl
  rw [isClose, colon, gap, isGap]
  cases isBlank c <;> cases isColon c <;> rfl

theorem isClose_of_isGap {a b : Char} (left : isColon a = true → isGap b = false)
    (right : isColon b = false) : isClose a b = true := by
  rw [isClose, right, Bool.and_false, Bool.not_false, Bool.and_true]
  cases colon : isColon a with
  | false => rfl
  | true => rw [left colon]; rfl

theorem Region.Real.eq_code_of_next {region : Region} (real : region.Real) {c : Char}
    (quote : isQuote c = false) (h : region.next c = .code) : region = .code := by
  cases region with
  | code => rfl
  | string q =>
    rw [Region.next] at h
    split at h
    next => cases h
    next =>
      split at h
      next same =>
        rw [Region.Real, ← same, quote] at real
        cases real
      next => cases h
  | escape q => cases h

/-- A text without a colon of its own is snug, if it does not start behind one. -/
theorem snug_of_avoids {region : Region} {depth : Int} {last : Char} {t : Text}
    (real : region.Real) (h : Avoids (partsAt isColon) region depth t)
    (start : region = .code → depth = 0 → isColon last = false) :
    Snug 0 region depth last t := by
  induction t generalizing region depth last with
  | nil => trivial
  | cons c r ih =>
    obtain ⟨own, rest⟩ := h
    -- a colon in code at the depth would separate
    have other : region = .code → depth = 0 → isColon c = false := by
      rintro rfl rfl
      refine Bool.eq_false_iff.mpr fun colon => ?_
      have plain := isPlain_of_isColon colon
      have separates := own plain.quote
      simp [partsAt, bracketStep, plain.opener, plain.closer, colon] at separates
    refine ⟨fun code level => isClose_of_isGap (fun colon => ?_) (other code level),
      ih (real.next c) rest fun code level => ?_⟩
    · rw [start code level] at colon
      cases colon
    · refine Bool.eq_false_iff.mpr fun colon => ?_
      have plain := isPlain_of_isColon colon
      have before := real.eq_code_of_next plain.quote code
      have even : codeStep region c = 0 := by
        simp [before, codeStep, Region.covers, plain.quote, bracketStep, plain.opener, plain.closer]
      rw [even, Int.add_zero] at level
      rw [other before level] at colon
      cases colon

theorem partsAt_of_isColon {c : Char} (h : isColon c = true) : partsAt isColon 0 c = true := by
  have plain := isPlain_of_isColon h
  simp [partsAt, bracketStep, plain.opener, plain.closer, h]

/-- What is cut out between colons neither starts nor ends with one. -/
theorem ends_of_isPart {p : Text} (part : IsPart isColon p) :
    (∀ c ∈ p.head?, isGap c = false) ∧ ∀ c ∈ p.getLast?, isGap c = false := by
  have front := front_trim p
  have back := back_trim p
  rw [part.trimmed] at front back
  constructor
  · intro c hc
    obtain ⟨r, rfl⟩ := List.head?_eq_some_iff.mp hc
    rw [isGap, front c rfl, Bool.false_or]
    refine Bool.eq_false_iff.mpr fun colon => ?_
    have separates := part.whole.1 (isPlain_of_isColon colon).quote
    rw [partsAt_of_isColon colon] at separates
    cases separates
  · intro c hc
    obtain ⟨s, rfl⟩ := List.getLast?_eq_some_iff.mp hc
    rw [isGap, back c hc, Bool.false_or]
    refine Bool.eq_false_iff.mpr fun colon => ?_
    have plain := isPlain_of_isColon colon
    have start : Region.code.Real := trivial
    have scanned := part.outside
    rw [Region.after_append] at scanned
    have code : Region.code.after s = .code := (start.after s).eq_code_of_next plain.quote scanned
    have even : codeStep .code c = 0 := by
      simp [codeStep, Region.covers, plain.quote, bracketStep, plain.opener, plain.closer]
    have level : 0 + sumCode bracketStep .code s = 0 := by
      have total := part.even
      rw [bracketDelta, sumCode_append, code, sumCode_bracketStep_cons, even, sumCode_nil] at total
      omega
    have separates := (avoids_append.mp part.whole).2.1
    rw [code, level, partsAt_of_isColon colon] at separates
    cases separates plain.quote

theorem IsPart.snug {p : Text} (part : IsPart isColon p) (last : Char) :
    Snug 0 .code 0 last p := by
  have inner : Snug 0 .code 0 '{' p := snug_of_avoids trivial part.whole fun _ _ => rfl
  obtain ⟨c, r, rfl⟩ := List.exists_cons_of_ne_nil part.filled
  have first := (ends_of_isPart part).1 c rfl
  exact ⟨fun _ _ => isClose_of_isGap (fun _ => first) (Bool.or_eq_false_iff.mp first).2, inner.2⟩

/-- Parts that are joined by colons are snug. -/
theorem snug_joinWith {ps : List Text} (parts : ∀ p ∈ ps, IsPart isColon p) (last : Char) :
    Snug 0 .code 0 last (joinWith [':'] ps) := by
  induction ps generalizing last with
  | nil => trivial
  | cons p ps ih =>
    obtain ⟨part, parts⟩ := List.forall_mem_cons.mp parts
    cases ps with
    | nil =>
      rw [joinWith_singleton]
      exact part.snug last
    | cons q ps =>
      have close : isClose (p.getLastD last) ':' = true := by
        have final := List.getLast?_eq_some_getLast part.filled
        rw [List.getLastD_eq_getLast?, final, Option.getD_some, isClose_colon_right,
          (ends_of_isPart part).2 _ final]
        rfl
      rw [joinWith_cons_cons, List.append_assoc, List.singleton_append,
        part.toSettled.snug_append]
      exact ⟨part.snug last, fun _ _ => close, ih parts ':'⟩

/-- A snug text is the same when it has been cut at its colons and put together again. -/
theorem joinWith_splitTopLevel_of_snug {t : Text} {last : Char} (settled : Settled t)
    (filled : t ≠ []) (front : ∀ c ∈ t.head?, isGap c = false)
    (back : ∀ c ∈ t.getLast?, isGap c = false) (snug : Snug 0 .code 0 last t) :
    joinWith [':'] (splitTopLevel isColon t) = t := by
  have cut : Cuts isColon _ _ := cuts_topLevelPieces settled
  generalize topLevelPieces isColon .code 0 t = ps at cut
  induction cut generalizing last with
  | @whole t solid =>
    have trimmed : trim t = t := trim_eq_self (fun c hc => isBlank_of_isGap (front c hc))
      fun c hc => isBlank_of_isGap (back c hc)
    rw [splitTopLevel_of_avoids solid.whole trimmed filled, joinWith_singleton]
  | @cut s r c ps solid parts plain rest ih =>
    obtain rfl := eq_of_isColon parts
    obtain ⟨snugStart, close, snugRest⟩ := solid.toSettled.snug_append.mp snug
    have filledStart : s ≠ [] := by
      rintro rfl
      cases front ':' rfl
    have filledRest : r ≠ [] := by
      rintro rfl
      cases back ':' List.getLast?_concat
    have closeLast : ∀ c ∈ s.getLast?, isGap c = false := by
      intro c hc
      have beside := close rfl rfl
      rw [List.getLastD_eq_getLast?, Option.mem_def.mp hc, Option.getD_some,
        isClose_colon_right] at beside
      simpa using beside
    have part : IsPart isColon s := by
      refine ⟨solid, trim_eq_self (fun c hc => isBlank_of_isGap (front c ?_))
        (fun c hc => isBlank_of_isGap (closeLast c hc)), filledStart⟩
      rwa [List.head?_append_of_ne_nil _ filledStart]
    have single : Settled [':'] := .singleton plain
    have settledRest : Settled r := single.of_append (solid.toSettled.of_append settled)
    have frontRest : ∀ c ∈ r.head?, isGap c = false := by
      intro c hc
      obtain ⟨r, rfl⟩ := List.head?_eq_some_iff.mp hc
      have beside := snugRest.1 rfl rfl
      rw [isClose_colon_left] at beside
      simpa using beside
    have backRest : ∀ c ∈ r.getLast?, isGap c = false := by
      intro c hc
      refine back c ?_
      rwa [List.getLast?_append_of_ne_nil _ (List.cons_ne_nil _ _),
        List.getLast?_cons_of_ne_nil filledRest]
    have joined := ih settledRest filledRest frontRest backRest snugRest
    have parts' : splitTopLevel isColon r ≠ [] := by
      intro empty
      rw [empty] at joined
      exact filledRest joined.symm
    obtain ⟨q, qs, hq⟩ := List.exists_cons_of_ne_nil parts'
    rw [part.splitTopLevel_append parts plain, hq, joinWith_cons_cons, ← hq, joined,
      List.append_assoc]
    rfl

end PageObjects
