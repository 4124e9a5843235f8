import Mathlib.Data.List.Infix
import PageObjects.Proofs.Text.Trim
import PageObjects.Script.Scan

namespace PageObjects

namespace Region

@[simp] theorem after_nil (region : Region) : region.after [] = region := rfl

@[simp] theorem after_cons (region : Region) (c : Char) (r : Text) :
    region.after (c :: r) = (region.next c).after r := rfl

theorem after_append (region : Region) (s t : Text) :
    region.after (s ++ t) = (region.after s).after t := List.foldl_append

theorem eq_code_of_covers {region : Region} {c : Char} (h : region.covers c = false) :
    region = .code := by
  cases region with
  | code => rfl
  | string q => cases h
  | escape q => cases h

/-- Where a scan can stand: strings have quotes as their ends. -/
def Real : Region → Prop
  | code => True
  | string q => isQuote q = true
  | escape q => isQuote q = true

theorem Real.next {region : Region} (h : region.Real) (c : Char) : (region.next c).Real := by
  cases region with
  | code =>
    simp only [Region.next]
    split
    next hc => exact hc
    next => trivial
  | string q =>
    simp only [Region.next]
    split
    next => exact h
    next =>
      split
      next => trivial
      next => exact h
  | escape q => exact h

theorem Real.after {region : Region} (h : region.Real) (t : Text) : (region.after t).Real := by
  induction t generalizing region with
  | nil => exact h
  | cons c r ih => exact ih (h.next c)

end Region

@[simp] theorem sumCode_nil (step : Char → Int) (region : Region) :
    sumCode step region [] = 0 := rfl

theorem sumCode_append (step : Char → Int) (region : Region) (s t : Text) :
    sumCode step region (s ++ t) = sumCode step region s + sumCode step (region.after s) t := by
  induction s generalizing region with
  | nil => simp
  | cons c r ih => simp only [List.cons_append, sumCode, ih, Region.after_cons, Int.add_assoc]

theorem sumCode_bracketStep_cons (region : Region) (c : Char) (r : Text) :
    sumCode bracketStep region (c :: r) =
      codeStep region c + sumCode bracketStep (region.next c) r := rfl

/-- A character that means nothing to a scan of code. -/
structure IsPlain (c : Char) : Prop where
  quote : isQuote c = false
  opener : isOpener c = false
  closer : isCloser c = false

/-- The characters that mean something to a scan of code. -/
def scanMarks : List Char := ['\'', '"', '\x60', '(', '[', '\x7b', ')', ']', '\x7d']

/-- A class of characters that holds of no mark holds of plain ones only. -/
theorem isPlain_of_class {p : Char → Bool} (others : scanMarks.any p = false) {c : Char}
    (h : p c = true) : IsPlain c := by
  have other : ∀ d ∈ scanMarks, (c == d) = false := by
    intro d hd
    refine beq_false_of_ne ?_
    rintro rfl
    exact List.any_eq_false.mp others c hd h
  simp only [scanMarks, List.forall_mem_cons] at other
  obtain ⟨q1, q2, q3, o1, o2, o3, c1, c2, c3, -⟩ := other
  constructor
  · simp [isQuote, q1, q2, q3]
  · simp [isOpener, o1, o2, o3]
  · simp [isCloser, c1, c2, c3]

theorem isPlain_of_isBlank {c : Char} (h : isBlank c = true) : IsPlain c :=
  isPlain_of_class (by decide) h

/-- Plain text is code and keeps the depth. -/
theorem scan_of_plain {t : Text} (h : ∀ c ∈ t, IsPlain c) :
    Region.code.after t = .code ∧ bracketDelta t = 0 := by
  induction t with
  | nil => exact ⟨rfl, rfl⟩
  | cons c r ih =>
    obtain ⟨outside, even⟩ := ih fun d hd => h d (List.mem_cons_of_mem _ hd)
    have plain := h c List.mem_cons_self
    have stays : Region.code.next c = .code := by simp [Region.next, plain.quote]
    have level : codeStep .code c = 0 := by
      simp [codeStep, Region.covers, plain.quote, bracketStep, plain.opener, plain.closer]
    rw [bracketDelta] at even
    rw [Region.after_cons, bracketDelta, sumCode_bracketStep_cons, stays, level, even]
    exact ⟨outside, rfl⟩

/-- A scan of blanks that ends in code has started there. -/
theorem eq_code_of_after_blanks {region : Region} {t : Text} (real : region.Real)
    (blank : ∀ c ∈ t, isBlank c = true) (h : region.after t = .code) : region = .code := by
  induction t generalizing region with
  | nil => exact h
  | cons c r ih =>
    have next := ih (real.next c) (fun d hd => blank d (List.mem_cons_of_mem _ hd)) h
    have plain := isPlain_of_isBlank (blank c List.mem_cons_self)
    cases region with
    | code => rfl
    | string q =>
      simp only [Region.next] at next
      split at next
      next => cases next
      next =>
        split at next
        next hq =>
          rw [Region.Real, ← hq, plain.quote] at real
          cases real
        next => cases next
    | escape q => cases next

/-- Trimming a text keeps its strings closed. -/
theorem after_trim {t : Text} (closed : Region.code.after t = .code) :
    Region.code.after (Text.trim t) = .code := by
  obtain ⟨lead, tail, whole, front, back⟩ := Text.exists_trim_append t
  obtain ⟨outside, -⟩ := scan_of_plain fun c hc => isPlain_of_isBlank (front c hc)
  rw [whole, List.append_assoc, Region.after_append, outside, Region.after_append] at closed
  -- nothing but blanks follows, and these end no string
  have real : Region.code.Real := trivial
  exact eq_code_of_after_blanks (real.after _) back closed

/-- Every string is closed, and brackets outside strings close exactly those that are open. -/
structure Balanced (t : Text) : Prop where
  outside : Region.code.after t = .code
  level : ∀ u, u <+: t → 0 ≤ bracketDelta u
  even : bracketDelta t = 0

instance (t : Text) : Decidable (Balanced t) :=
  decidable_of_iff (Region.code.after t = .code ∧ (∀ u ∈ t.inits, 0 ≤ bracketDelta u) ∧
      bracketDelta t = 0)
    ⟨fun ⟨outside, level, even⟩ =>
        ⟨outside, fun u hu => level u ((List.mem_inits u t).mpr hu), even⟩,
      fun h => ⟨h.outside, fun u hu => h.level u ((List.mem_inits u t).mp hu), h.even⟩⟩

/-- Trimming a balanced text keeps it balanced. -/
theorem Balanced.trim {t : Text} (h : Balanced t) : Balanced (Text.trim t) := by
  obtain ⟨lead, tail, whole, front, back⟩ := Text.exists_trim_append t
  obtain ⟨leadOutside, leadEven⟩ := scan_of_plain fun c hc => isPlain_of_isBlank (front c hc)
  have shifted : ∀ u, bracketDelta (lead ++ u) = bracketDelta u := by
    intro u
    rw [bracketDelta, sumCode_append, leadOutside, ← bracketDelta, leadEven, Int.zero_add,
      bracketDelta]
  have outside : Region.code.after (Text.trim t) = .code := after_trim h.outside
  obtain ⟨-, tailEven⟩ := scan_of_plain fun c hc => isPlain_of_isBlank (back c hc)
  refine ⟨outside, ?_, ?_⟩
  · intro u hu
    rw [← shifted]
    refine h.level _ ?_
    conv => rw [whole]
    exact ((List.prefix_append_right_inj lead).mpr hu).trans (List.prefix_append _ _)
  · have sum := h.even
    rw [whole, List.append_assoc, shifted, bracketDelta, sumCode_append, outside, ← bracketDelta,
      ← bracketDelta, tailEven, Int.add_zero] at sum
    exact sum

/-- The text in front of the bracket that closes `depth` open ones. -/
structure Encloses (region : Region) (depth : Nat) (inner : Text) : Prop where
  outside : region.after inner = .code
  level : ∀ u, u <+: inner → 0 < depth + sumCode bracketStep region u
  closes : depth + sumCode bracketStep region inner = 1

namespace Encloses

variable {region : Region} {depth : Nat} {c : Char} {inner : Text}

theorem nil : Encloses .code 1 [] where
  outside := rfl
  level := by
    intro u hu
    rw [List.prefix_nil.mp hu]
    decide
  closes := rfl

/-- One more character in front, which changes the depth but does not close the last bracket. -/
theorem cons {next : Nat} (h : Encloses (region.next c) next inner)
    (step : (next : Int) = depth + codeStep region c) (inside : 0 < depth) :
    Encloses region depth (c :: inner) where
  outside := h.outside
  level := by
    intro u hu
    rcases List.prefix_cons_iff.mp hu with rfl | ⟨v, rfl, hv⟩
    · rw [sumCode_nil]
      omega
    · have := h.level v hv
      rw [sumCode_bracketStep_cons]
      omega
  closes := by
    have := h.closes
    rw [sumCode_bracketStep_cons]
    omega

theorem tail {next : Nat} (h : Encloses region depth (c :: inner))
    (step : (next : Int) = depth + codeStep region c) : Encloses (region.next c) next inner where
  outside := h.outside
  level := by
    intro u hu
    have := h.level (c :: u) ((List.prefix_cons_inj c).mpr hu)
    rw [sumCode_bracketStep_cons] at this
    omega
  closes := by
    have := h.closes
    rw [sumCode_bracketStep_cons] at this
    omega

end Encloses

theorem encloses_iff_balanced {inner : Text} : Encloses .code 1 inner ↔ Balanced inner := by
  constructor
  · intro h
    refine ⟨h.outside, ?_, ?_⟩
    · intro u hu
      have := h.level u hu
      simp only [bracketDelta]
      omega
    · have := h.closes
      simp only [bracketDelta]
      omega
  · intro h
    refine ⟨h.outside, ?_, ?_⟩
    · intro u hu
      have := h.level u hu
      simp only [bracketDelta] at this
      omega
    · have := h.even
      simp only [bracketDelta] at this
      omega

/-- The depth behind a character that does not close the last bracket. -/
def depthBehind (region : Region) (depth : Nat) (c : Char) : Nat :=
  if region.covers c then depth
  else if isOpener c then depth + 1
  else if isCloser c then depth - 1
  else depth

theorem coe_depthBehind {region : Region} {depth : Nat} {c : Char} (h : 0 < depth) :
    (depthBehind region depth c : Int) = depth + codeStep region c := by
  simp only [depthBehind, codeStep, bracketStep]
  split
  next => omega
  next =>
    split
    next => omega
    next =>
      split
      next => omega
      next => omega

/-- Whether a character closes the last bracket. -/
def closesLast (region : Region) (depth : Nat) (c : Char) : Bool :=
  !region.covers c && isCloser c && depth == 1

theorem cutAtCloser_cons (region : Region) (depth : Nat) (c : Char) (r : Text) :
    cutAtCloser region depth (c :: r) =
      if closesLast region depth c then some ([], r)
      else (cutAtCloser (region.next c) (depthBehind region depth c) r).map fun cut =>
        (c :: cut.1, cut.2) := rfl

/-- The last bracket is open until it is closed. -/
theorem depthBehind_pos {region : Region} {depth : Nat} {c : Char} (h : 0 < depth)
    (stays : closesLast region depth c = false) : 0 < depthBehind region depth c := by
  simp only [depthBehind]
  split
  next => exact h
  next hc =>
    split
    next => omega
    next =>
      split
      next closer =>
        have : depth ≠ 1 := by
          rintro rfl
          simp [closesLast, hc, closer] at stays
        omega
      next => exact h

theorem isOpener_of_isCloser {c : Char} (h : isCloser c = true) : isOpener c = false := by
  simp only [isCloser, Bool.or_eq_true, beq_iff_eq] at h
  rcases h with (rfl | rfl) | rfl
  all_goals rfl

theorem isQuote_of_isCloser {c : Char} (h : isCloser c = true) : isQuote c = false := by
  simp only [isCloser, Bool.or_eq_true, beq_iff_eq] at h
  rcases h with (rfl | rfl) | rfl
  all_goals rfl

theorem isQuote_of_isOpener {c : Char} (h : isOpener c = true) : isQuote c = false := by
  simp only [isOpener, Bool.or_eq_true, beq_iff_eq] at h
  rcases h with (rfl | rfl) | rfl
  all_goals rfl

/-- A bracket in code opens or closes one level and leaves the scan in code. -/
theorem codeStep_of_isOpener {c : Char} (h : isOpener c = true) :
    codeStep .code c = 1 ∧ Region.code.next c = .code := by
  simp [codeStep, Region.covers, Region.next, isQuote_of_isOpener h, bracketStep, h]

theorem codeStep_of_isCloser {c : Char} (h : isCloser c = true) :
    codeStep .code c = -1 ∧ Region.code.next c = .code := by
  simp [codeStep, Region.covers, Region.next, isQuote_of_isCloser h, bracketStep,
    isOpener_of_isCloser h, h]

/-- What closes the last bracket stands in code, where one bracket is open. -/
theorem closesLast_iff {region : Region} {depth : Nat} {c : Char} :
    closesLast region depth c = true ↔ region = .code ∧ isCloser c = true ∧ depth = 1 := by
  constructor
  · intro h
    simp only [closesLast, Bool.and_eq_true, Bool.not_eq_true', beq_iff_eq] at h
    exact ⟨Region.eq_code_of_covers h.1.1, h.1.2, h.2⟩
  · rintro ⟨rfl, closer, rfl⟩
    simp [closesLast, Region.covers, isQuote_of_isCloser closer, closer]

/-- What is enclosed does not go on behind the bracket that encloses it. -/
theorem Encloses.not_closesLast {region : Region} {depth : Nat} {c : Char} {inner : Text}
    (h : Encloses region depth (c :: inner)) : closesLast region depth c = false := by
  refine Bool.eq_false_iff.mpr ?_
  intro last
  obtain ⟨rfl, closer, rfl⟩ := closesLast_iff.mp last
  have first := h.level [c] (List.prefix_append [c] inner)
  rw [sumCode_bracketStep_cons, sumCode_nil, (codeStep_of_isCloser closer).1] at first
  omega

/-- Cutting finds the text that a bracket encloses, and finds it wherever there is one. -/
theorem cutAtCloser_eq_some_iff {region : Region} {depth : Nat} (h : 0 < depth)
    {t inner rest : Text} : cutAtCloser region depth t = some (inner, rest) ↔
      ∃ c, isCloser c = true ∧ t = inner ++ c :: rest ∧ Encloses region depth inner := by
  induction t generalizing region depth inner with
  | nil => simp [cutAtCloser]
  | cons d r ih =>
    rw [cutAtCloser_cons]
    cases last : closesLast region depth d with
    | true =>
      obtain ⟨rfl, closer, rfl⟩ := closesLast_iff.mp last
      constructor
      · intro cut
        obtain ⟨rfl, rfl⟩ := Prod.mk.inj (Option.some.inj cut)
        exact ⟨d, closer, rfl, .nil⟩
      · rintro ⟨c, -, whole, encloses⟩
        cases inner with
        | nil =>
          obtain ⟨-, rfl⟩ := List.cons.inj whole
          rfl
        | cons e inner =>
          obtain ⟨rfl, -⟩ := List.cons.inj whole
          rw [encloses.not_closesLast] at last
          cases last
    | false =>
      have step : (depthBehind region depth d : Int) = depth + codeStep region d :=
        coe_depthBehind h
      have behind := depthBehind_pos h last
      constructor
      · intro cut
        obtain ⟨⟨inner', rest'⟩, found, same⟩ := Option.map_eq_some_iff.mp cut
        obtain ⟨rfl, rfl⟩ := Prod.mk.inj same
        obtain ⟨c, closer, rfl, encloses⟩ := (ih behind).mp found
        exact ⟨c, closer, rfl, encloses.cons step h⟩
      · rintro ⟨c, closer, whole, encloses⟩
        cases inner with
        | nil =>
          obtain ⟨rfl, -⟩ := List.cons.inj whole
          have one : depth = 1 := by
            have := encloses.closes
            rw [sumCode_nil] at this
            omega
          have code : region = .code := encloses.outside
          rw [closesLast_iff.mpr ⟨code, closer, one⟩] at last
          cases last
        | cons e inner =>
          obtain ⟨rfl, rfl⟩ := List.cons.inj whole
          have cut := (ih behind).mpr ⟨c, closer, rfl, encloses.tail step⟩
          rw [if_neg (by simp), cut]
          rfl

/-- Where no bracket closes that is not opened, the end of the arguments is not found. -/
theorem cutAtCloser_eq_none {t : Text} (level : ∀ u, u <+: t → 0 ≤ bracketDelta u) :
    cutAtCloser .code 1 t = none := by
  refine Option.eq_none_iff_forall_ne_some.mpr ?_
  rintro ⟨inner, rest⟩ cut
  obtain ⟨c, closer, rfl, encloses⟩ := (cutAtCloser_eq_some_iff Nat.one_pos).mp cut
  have balanced : Balanced inner := encloses_iff_balanced.mp encloses
  have below := level (inner ++ [c]) (by simp)
  have step : bracketDelta [c] = -1 := (Int.add_zero _).trans (codeStep_of_isCloser closer).1
  rw [bracketDelta, sumCode_append, balanced.outside, ← bracketDelta, ← bracketDelta,
    balanced.even, step] at below
  omega

theorem closingIndex_cons {start : Int} {region : Region} {depth index : Nat} {c : Char} {r : Text}
    (h : 0 < depth) (reached : start ≤ index) : closingIndex start region depth index (c :: r) =
      if closesLast region depth c then some index
      else closingIndex start (region.next c) (depthBehind region depth c) (index + 1) r := by
  have inside : decide ((index : Int) < start) = false := by simp [reached]
  have one : (depth : Int) = 1 ↔ depth = 1 := by omega
  rw [coe_depthBehind h]
  simp only [closingIndex, inside, Bool.false_or, closesLast, codeStep]
  by_cases covered : region.covers c = true
  · simp [covered]
  · simp [covered, one]

/-- A bracket closes where the text that it encloses ends. -/
theorem closingIndex_eq_cutAtCloser {start : Int} {region : Region} {depth index : Nat} {t : Text}
    (h : 0 < depth) (reached : start ≤ index) : closingIndex start region depth index t =
      (cutAtCloser region depth t).map fun cut => index + cut.1.length := by
  induction t generalizing region depth index with
  | nil => rfl
  | cons c r ih =>
    rw [closingIndex_cons h reached, cutAtCloser_cons]
    cases last : closesLast region depth c with
    | true => rfl
    | false =>
      rw [if_neg (by simp), if_neg (by simp), ih (depthBehind_pos h last) (by omega),
        Option.map_map]
      congr 1
      funext cut
      simp only [Function.comp_apply, List.length_cons]
      omega

/-- What stands before the start is scanned for its strings only. -/
theorem closingIndex_append {start : Int} {region : Region} {depth : Int} {index : Nat}
    {before t : Text} (h : ((index + before.length : Nat) : Int) ≤ start) :
    closingIndex start region depth index (before ++ t) =
      closingIndex start (region.after before) depth (index + before.length) t := by
  induction before generalizing region index with
  | nil => rfl
  | cons c r ih =>
    simp only [List.length_cons] at h
    have outside : decide ((index : Int) < start) = true := by
      rw [decide_eq_true_eq]
      omega
    rw [List.cons_append, closingIndex, outside, Bool.true_or, if_pos rfl, ih (by omega),
      Region.after_cons, List.length_cons, Nat.add_right_comm, Nat.add_assoc]

/-- Looking for the bracket that closes one needs nothing of the text before it but that it ends
outside of strings. -/
theorem matchingIndex?_opener {before inner : Text} {o : Char} (opener : isOpener o = true)
    (outside : Region.code.after before = .code) :
    matchingIndex? (before ++ o :: inner) before.length =
      (cutAtCloser .code 1 inner).map fun cut => before.length + 1 + cut.1.length := by
  obtain ⟨up, next⟩ := codeStep_of_isOpener opener
  have quote := isQuote_of_isOpener opener
  have started : decide (((before.length : Nat) : Int) < before.length) = false := by simp
  have step : bracketStep o = 1 := if_pos opener
  rw [matchingIndex?, closingIndex_append (by simp), outside, Nat.zero_add, closingIndex, started,
    next, step]
  simp only [Region.covers, quote, Bool.or_self, Bool.false_eq_true, if_false, Int.reduceBEq,
    Bool.and_false, Int.zero_add]
  exact closingIndex_eq_cutAtCloser Nat.one_pos (by omega)

theorem matchingIndex?_append {before inner : Text}
    (outside : Region.code.after before = .code) :
    matchingIndex? (before ++ '(' :: inner) before.length =
      (cutAtCloser .code 1 inner).map fun cut => before.length + 1 + cut.1.length :=
  matchingIndex?_opener rfl outside

end PageObjects
