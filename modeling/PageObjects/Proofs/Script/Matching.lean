import Mathlib.Order.Bounds.Basic
import PageObjects.Proofs.Entries
import PageObjects.Proofs.Script.Balance

namespace PageObjects

/-- The bracket that closes an opening one of its kind. -/
def closerOf? (c : Char) : Option Char :=
  if c = '(' then some ')' else if c = '[' then some ']' else if c = '\x7b' then some '\x7d'
  else none

/-- What a character of the code does to the brackets that are open, which stand with their indexes
and the brackets that close them, the last one first: those that are open behind it, and the pair
that it makes. A bracket that does not close the last one, or closes none, stops the matcher. -/
def pairStep (index : Nat) (opened : List (Nat × Char)) (c : Char) :
    Option (List (Nat × Char) × List (Nat × Nat)) :=
  match closerOf? c with
  | some d => some ((index, d) :: opened, [])
  | none =>
    if isCloser c then
      match opened with
      | (i, d) :: outer => if d = c then some (outer, [(i, index)]) else none
      | [] => none
    else some (opened, [])

/-- The pairs of brackets outside strings, by their indexes, where that of the first character is
`index`. There are none if the matcher is stopped or a bracket stays open. -/
def pairBrackets (region : Region) (index : Nat) (opened : List (Nat × Char)) :
    Text → Option (List (Nat × Nat))
  | [] => if opened.isEmpty then some [] else none
  | c :: r =>
    if region.covers c then pairBrackets (region.next c) (index + 1) opened r
    else (pairStep index opened c).bind fun (outer, made) =>
      (pairBrackets (region.next c) (index + 1) outer r).map (made ++ ·)

/-- The pairs of brackets of a text that is well nested by kind. -/
def bracketPairs? (t : Text) : Option (List (Nat × Nat)) := pairBrackets .code 0 [] t

theorem isOpener_iff_closerOf? {c : Char} : isOpener c = true ↔ ∃ d, closerOf? c = some d := by
  simp only [isOpener, closerOf?, Bool.or_eq_true, beq_iff_eq]
  constructor
  · rintro ((rfl | rfl) | rfl)
    all_goals exact ⟨_, rfl⟩
  · rintro ⟨d, h⟩
    split at h
    next => exact .inl (.inl ‹_›)
    next =>
      split at h
      next => exact .inl (.inr ‹_›)
      next =>
        split at h
        next => exact .inr ‹_›
        next => cases h

theorem closerOf?_of_isCloser {c : Char} (h : isCloser c = true) : closerOf? c = none := by
  refine Option.eq_none_iff_forall_ne_some.mpr ?_
  intro d opens
  have opener := isOpener_iff_closerOf?.mpr ⟨d, opens⟩
  rw [isOpener_of_isCloser h] at opener
  cases opener

section Step

variable {index i : Nat} {opened : List (Nat × Char)} {c d : Char}

theorem pairStep_opener (opener : closerOf? c = some d) :
    pairStep index opened c = some ((index, d) :: opened, []) := by
  unfold pairStep
  rw [opener]

theorem pairStep_closer (closer : isCloser c = true) :
    pairStep index ((i, c) :: opened) c = some (opened, [(i, index)]) := by
  unfold pairStep
  rw [closerOf?_of_isCloser closer]
  simp only [closer, if_true]

theorem pairStep_other (opener : closerOf? c = none) (closer : isCloser c = false) :
    pairStep index opened c = some (opened, []) := by
  unfold pairStep
  rw [opener]
  simp only [closer, Bool.false_eq_true, if_false]

end Step

/-- The ways of a matcher with a stack through a text. -/
inductive Pairing : Region → Nat → List (Nat × Char) → Text → List (Nat × Nat) → Prop
  | done {region : Region} {index : Nat} : Pairing region index [] [] []
  | pass {region : Region} {index : Nat} {opened : List (Nat × Char)} {c : Char} {r : Text}
      {pairs : List (Nat × Nat)} (level : codeStep region c = 0)
      (rest : Pairing (region.next c) (index + 1) opened r pairs) :
      Pairing region index opened (c :: r) pairs
  | opens {index : Nat} {opened : List (Nat × Char)} {c d : Char} {r : Text}
      {pairs : List (Nat × Nat)} (opener : closerOf? c = some d)
      (rest : Pairing .code (index + 1) ((index, d) :: opened) r pairs) :
      Pairing .code index opened (c :: r) pairs
  | closes {index i : Nat} {opened : List (Nat × Char)} {c : Char} {r : Text}
      {pairs : List (Nat × Nat)} (closer : isCloser c = true)
      (rest : Pairing .code (index + 1) opened r pairs) :
      Pairing .code index ((i, c) :: opened) (c :: r) ((i, index) :: pairs)

theorem pairing_of_pairBrackets {region : Region} {index : Nat} {opened : List (Nat × Char)}
    {t : Text} {pairs : List (Nat × Nat)}
    (h : pairBrackets region index opened t = some pairs) :
    Pairing region index opened t pairs := by
  induction t generalizing region index opened pairs with
  | nil =>
    rw [pairBrackets] at h
    split at h
    next empty =>
      rw [List.isEmpty_iff.mp empty, ← Option.some.inj h]
      exact .done
    next => cases h
  | cons c r ih =>
    rw [pairBrackets] at h
    split at h
    next covered => exact .pass (by simp [codeStep, covered]) (ih h)
    next code =>
      obtain rfl := Region.eq_code_of_covers (Bool.eq_false_iff.mpr code)
      obtain ⟨⟨outer, made⟩, step, h⟩ := Option.bind_eq_some_iff.mp h
      obtain ⟨rest, found, rfl⟩ := Option.map_eq_some_iff.mp h
      unfold pairStep at step
      split at step
      next d opener =>
        obtain ⟨rfl, rfl⟩ := Prod.mk.inj (Option.some.inj step)
        rw [(codeStep_of_isOpener (isOpener_iff_closerOf?.mpr ⟨d, opener⟩)).2] at found
        exact .opens opener (ih found)
      next opener =>
        split at step
        next closer =>
          rw [(codeStep_of_isCloser closer).2] at found
          split at step
          next i d outer' =>
            split at step
            next kind =>
              obtain ⟨rfl, rfl⟩ := Prod.mk.inj (Option.some.inj step)
              rw [kind]
              exact .closes closer (ih found)
            next => cases step
          next => cases step
        next closer =>
          obtain ⟨rfl, rfl⟩ := Prod.mk.inj (Option.some.inj step)
          have noOpener : isOpener c ≠ true := by
            intro bracket
            obtain ⟨d, opens⟩ := isOpener_iff_closerOf?.mp bracket
            rw [opener] at opens
            cases opens
          exact .pass (by simp [codeStep, bracketStep, noOpener, closer]) (ih found)

namespace Pairing

variable {region : Region} {index : Nat} {opened : List (Nat × Char)} {t : Text}
  {pairs : List (Nat × Nat)}

theorem pairBrackets_eq (h : Pairing region index opened t pairs) :
    pairBrackets region index opened t = some pairs := by
  induction h with
  | done => rfl
  | @pass region index opened c r pairs level rest ih =>
    rw [pairBrackets]
    split
    next => exact ih
    next code =>
      obtain rfl := Region.eq_code_of_covers (Bool.eq_false_iff.mpr code)
      have opener : closerOf? c = none := by
        refine Option.eq_none_iff_forall_ne_some.mpr ?_
        intro d opens
        rw [(codeStep_of_isOpener (isOpener_iff_closerOf?.mpr ⟨d, opens⟩)).1] at level
        cases level
      have closer : isCloser c = false := by
        refine Bool.eq_false_iff.mpr ?_
        intro closes
        rw [(codeStep_of_isCloser closes).1] at level
        cases level
      rw [pairStep_other opener closer, Option.bind_some]
      dsimp only
      rw [ih]
      rfl
  | @opens index opened c d r pairs opener rest ih =>
    have bracket := isOpener_iff_closerOf?.mpr ⟨d, opener⟩
    rw [pairBrackets, if_neg (by simp [Region.covers, isQuote_of_isOpener bracket]),
      pairStep_opener opener, Option.bind_some, (codeStep_of_isOpener bracket).2]
    dsimp only
    rw [ih]
    rfl
  | @closes index i opened c r pairs closer rest ih =>
    rw [pairBrackets, if_neg (by simp [Region.covers, isQuote_of_isCloser closer]),
      pairStep_closer closer, Option.bind_some, (codeStep_of_isCloser closer).2]
    dsimp only
    rw [ih]
    rfl

/-- Every open bracket is closed, and none that is not open. -/
theorem length_add_sumCode (h : Pairing region index opened t pairs) :
    opened.length + sumCode bracketStep region t = 0 := by
  induction h with
  | done => rfl
  | pass level rest ih =>
    rw [sumCode_bracketStep_cons, level]
    omega
  | opens opener rest ih =>
    obtain ⟨up, next⟩ := codeStep_of_isOpener (isOpener_iff_closerOf?.mpr ⟨_, opener⟩)
    rw [sumCode_bracketStep_cons, up, next]
    rw [List.length_cons] at ih
    omega
  | closes closer rest ih =>
    obtain ⟨down, next⟩ := codeStep_of_isCloser closer
    rw [sumCode_bracketStep_cons, down, next, List.length_cons]
    omega

/-- No part in front closes more than is open. -/
theorem nonneg_of_prefix (h : Pairing region index opened t pairs) {u : Text} (hu : u <+: t) :
    0 ≤ opened.length + sumCode bracketStep region u := by
  induction h generalizing u with
  | done =>
    rw [List.prefix_nil.mp hu, sumCode_nil]
    omega
  | pass level rest ih =>
    rcases List.prefix_cons_iff.mp hu with rfl | ⟨v, rfl, hv⟩
    · rw [sumCode_nil]
      omega
    · have := ih hv
      rw [sumCode_bracketStep_cons, level]
      omega
  | opens opener rest ih =>
    obtain ⟨up, next⟩ := codeStep_of_isOpener (isOpener_iff_closerOf?.mpr ⟨_, opener⟩)
    rcases List.prefix_cons_iff.mp hu with rfl | ⟨v, rfl, hv⟩
    · rw [sumCode_nil]
      omega
    · have := ih hv
      rw [List.length_cons] at this
      rw [sumCode_bracketStep_cons, up, next]
      omega
  | closes closer rest ih =>
    obtain ⟨down, next⟩ := codeStep_of_isCloser closer
    rw [List.length_cons]
    rcases List.prefix_cons_iff.mp hu with rfl | ⟨v, rfl, hv⟩
    · rw [sumCode_nil]
      omega
    · have := ih hv
      rw [sumCode_bracketStep_cons, down, next]
      omega

/-- Whether a matcher gets through does not depend on where it starts to count. -/
theorem exists_from (h : Pairing region index opened t pairs) (start : Nat)
    (stack : List (Nat × Char)) (same : stack.map Prod.snd = opened.map Prod.snd) :
    ∃ pairs, Pairing region start stack t pairs := by
  induction h generalizing start stack with
  | done =>
    rw [List.map_eq_nil_iff.mp same]
    exact ⟨[], .done⟩
  | pass level rest ih =>
    obtain ⟨pairs, found⟩ := ih (start + 1) stack same
    exact ⟨pairs, .pass level found⟩
  | @opens index opened c d r pairs opener rest ih =>
    obtain ⟨pairs, found⟩ := ih (start + 1) ((start, d) :: stack) (by simp [same])
    exact ⟨pairs, .opens opener found⟩
  | closes closer rest ih =>
    cases stack with
    | nil => cases same
    | cons first outer =>
      obtain ⟨i, d⟩ := first
      obtain ⟨kind, same⟩ := List.cons.inj same
      obtain ⟨pairs, found⟩ := ih (start + 1) outer same
      obtain rfl : d = _ := kind
      exact ⟨_, .closes closer found⟩

/-- What is open somewhere on the stack is closed by its own kind, behind a text that closes all
that is open above it. -/
theorem exists_closer (h : Pairing region index opened t pairs) {above below : List (Nat × Char)}
    {i : Nat}
    {d : Char} (stack : opened = above ++ (i, d) :: below) :
    ∃ inside behind inner, t = inside ++ d :: behind ∧ isCloser d = true ∧
      region.after inside = .code ∧ Pairing region index above inside inner ∧
      (i, index + inside.length) ∈ pairs := by
  induction h generalizing above with
  | done => cases above <;> cases stack
  | @pass region index opened c r pairs level rest ih =>
    obtain ⟨inside, behind, inner, rfl, closer, outside, nested, made⟩ := ih stack
    refine ⟨c :: inside, behind, inner, rfl, closer, outside, .pass level nested, ?_⟩
    rwa [List.length_cons, ← Nat.add_assoc, Nat.add_right_comm]
  | @opens index opened c e r pairs opener rest ih =>
    have higher : (index, e) :: opened = (index, e) :: above ++ (i, d) :: below := by
      rw [stack, List.cons_append]
    obtain ⟨inside, behind, inner, rfl, closer, outside, nested, made⟩ := ih higher
    have next := (codeStep_of_isOpener (isOpener_iff_closerOf?.mpr ⟨_, opener⟩)).2
    refine ⟨c :: inside, behind, inner, rfl, closer, ?_, .opens opener nested, ?_⟩
    · rw [Region.after_cons, next, outside]
    · rwa [List.length_cons, ← Nat.add_assoc, Nat.add_right_comm]
  | @closes index j opened c r pairs closer rest ih =>
    cases above with
    | nil =>
      obtain ⟨top, rfl⟩ := List.cons.inj stack
      obtain ⟨rfl, rfl⟩ := Prod.mk.inj top
      exact ⟨[], r, [], rfl, closer, rfl, .done, List.mem_cons_self⟩
    | cons top above =>
      obtain ⟨rfl, lower⟩ := List.cons.inj stack
      obtain ⟨inside, behind, inner, rfl, closer', outside, nested, made⟩ := ih lower
      have next := (codeStep_of_isCloser closer).2
      refine ⟨c :: inside, behind, _, rfl, closer', ?_, .closes closer nested, ?_⟩
      · rw [Region.after_cons, next, outside]
      · rw [List.length_cons, ← Nat.add_assoc, Nat.add_right_comm]
        exact List.mem_cons_of_mem _ made

/-- An opening bracket in code is paired with one of its kind, behind a well nested text. -/
theorem exists_pair (h : Pairing region index opened t pairs) {before rest : Text} {o d : Char}
    (whole : t = before ++ o :: rest) (code : region.after before = .code)
    (opener : closerOf? o = some d) :
    ∃ inside behind inner, rest = inside ++ d :: behind ∧ isCloser d = true ∧
      Region.code.after inside = .code ∧ Pairing .code (index + before.length + 1) [] inside inner ∧
      (index + before.length, index + before.length + 1 + inside.length) ∈ pairs := by
  have shift : ∀ n m : Nat, n + (m + 1) = n + 1 + m := by omega
  induction h generalizing before with
  | done => cases before <;> cases whole
  | @pass region index opened c r pairs level next ih =>
    cases before with
    | nil =>
      obtain ⟨rfl, rfl⟩ := List.cons.inj whole
      obtain rfl : _ = Region.code := code
      rw [(codeStep_of_isOpener (isOpener_iff_closerOf?.mpr ⟨d, opener⟩)).1] at level
      cases level
    | cons c before =>
      obtain ⟨rfl, rfl⟩ := List.cons.inj whole
      rw [List.length_cons, shift index]
      exact ih rfl code
  | @opens index opened c e r pairs opener' next ih =>
    cases before with
    | nil =>
      obtain ⟨rfl, rfl⟩ := List.cons.inj whole
      obtain rfl : e = d := Option.some.inj (opener'.symm.trans opener)
      exact next.exists_closer (List.nil_append _).symm
    | cons c before =>
      obtain ⟨rfl, rfl⟩ := List.cons.inj whole
      rw [Region.after_cons,
        (codeStep_of_isOpener (isOpener_iff_closerOf?.mpr ⟨e, opener'⟩)).2] at code
      rw [List.length_cons, shift index]
      exact ih rfl code
  | @closes index i opened c r pairs closer next ih =>
    cases before with
    | nil =>
      obtain ⟨rfl, rfl⟩ := List.cons.inj whole
      rw [closerOf?_of_isCloser closer] at opener
      cases opener
    | cons c before =>
      obtain ⟨rfl, rfl⟩ := List.cons.inj whole
      rw [Region.after_cons, (codeStep_of_isCloser closer).2] at code
      obtain ⟨inside, behind, inner, found, closes, outside, nested, made⟩ := ih rfl code
      rw [List.length_cons, shift index]
      exact ⟨inside, behind, inner, found, closes, outside, nested, List.mem_cons_of_mem _ made⟩

/-- No bracket is in two pairs as the one that opens. -/
theorem nodup (h : Pairing region index opened t pairs) (below : ∀ e ∈ opened, e.1 < index)
    (distinct : (opened.map Prod.fst).Nodup) :
    (pairs.map Prod.fst).Nodup ∧
      ∀ pair ∈ pairs, pair.1 ∈ opened.map Prod.fst ∨ index ≤ pair.1 := by
  induction h with
  | done => simp
  | pass level rest ih =>
    obtain ⟨unique, origin⟩ := ih (fun e he => Nat.lt_succ_of_lt (below e he)) distinct
    exact ⟨unique, fun pair hp => (origin pair hp).imp_right Nat.le_of_succ_le⟩
  | @opens index opened c d r pairs opener rest ih =>
    have new : index ∉ opened.map Prod.fst := by
      intro there
      obtain ⟨e, he, same⟩ := List.mem_map.mp there
      exact absurd (below e he) (by omega)
    have low : ∀ e ∈ (index, d) :: opened, e.1 < index + 1 := by
      intro e he
      rcases List.mem_cons.mp he with rfl | he
      · exact Nat.lt_succ_self index
      · exact Nat.lt_succ_of_lt (below e he)
    obtain ⟨unique, origin⟩ := ih low (List.nodup_cons.mpr ⟨new, distinct⟩)
    refine ⟨unique, fun pair hp => ?_⟩
    rcases origin pair hp with old | late
    · rcases List.mem_cons.mp old with same | old
      · exact .inr (Nat.le_of_eq same.symm)
      · exact .inl old
    · exact .inr (Nat.le_of_succ_le late)
  | @closes index i opened c r pairs closer rest ih =>
    obtain ⟨gone, distinct⟩ := List.nodup_cons.mp distinct
    obtain ⟨first, below⟩ := List.forall_mem_cons.mp below
    obtain ⟨unique, origin⟩ := ih (fun e he => Nat.lt_succ_of_lt (below e he)) distinct
    constructor
    · refine List.nodup_cons.mpr ⟨?_, unique⟩
      intro there
      obtain ⟨pair, hp, same⟩ := List.mem_map.mp there
      rcases origin pair hp with old | late
      · exact gone (same ▸ old)
      · have : i < index := first
        omega
    · intro pair hp
      rcases List.mem_cons.mp hp with rfl | hp
      · exact .inl List.mem_cons_self
      · exact (origin pair hp).imp (List.mem_cons_of_mem _) Nat.le_of_succ_le

end Pairing

/-- The character at an index, if it stands outside of strings. -/
def codeAt? (t : Text) (i : Nat) : Option Char :=
  t[i]?.filter fun c => !(Region.code.after (t.take i)).covers c

/-- Opened less closed brackets from one index to another, both included. -/
def netBrackets (t : Text) (i j : Nat) : Int := bracketDelta ((t.drop i).take (j + 1 - i))

/-- What stands between two indexes. -/
def textBetween (t : Text) (i j : Nat) : Text := (t.drop (i + 1)).take (j - (i + 1))

/-- A place in code behind `i` at which as many brackets are closed as opened since. -/
structure EvensAt (t : Text) (i j : Nat) : Prop where
  behind : i < j
  code : (codeAt? t j).isSome
  even : netBrackets t i j = 0

theorem codeAt?_append {before t : Text} (outside : Region.code.after before = .code) (n : Nat) :
    codeAt? (before ++ t) (before.length + n) = codeAt? t n := by
  rw [codeAt?, codeAt?, List.getElem?_append_right (Nat.le_add_right _ _), Nat.add_sub_cancel_left,
    List.take_length_add_append, Region.after_append, outside]

theorem codeAt?_closer {before rest : Text} {c : Char} (closer : isCloser c = true)
    (outside : Region.code.after before = .code) :
    codeAt? (before ++ c :: rest) before.length = some c := by
  have own : codeAt? (c :: rest) 0 = some c := by
    simp [codeAt?, Region.covers, isQuote_of_isCloser closer]
  exact (codeAt?_append outside 0).trans own

/-- What stands in front of a character in code, and what behind it. -/
theorem exists_append_of_codeAt? {t : Text} {i : Nat} {c : Char} (h : codeAt? t i = some c) :
    ∃ before rest, t = before ++ c :: rest ∧ before.length = i ∧
      Region.code.after before = .code := by
  obtain ⟨there, code⟩ := Option.filter_eq_some_iff.mp h
  rw [Bool.not_eq_true'] at code
  obtain ⟨bound, value⟩ := List.getElem?_eq_some_iff.mp there
  refine ⟨t.take i, t.drop (i + 1), ?_, by rw [List.length_take]; omega,
    Region.eq_code_of_covers code⟩
  rw [← value, ← List.drop_eq_getElem_cons bound, List.take_append_drop]

section Opened

variable {before rest : Text} {o : Char} (opener : isOpener o = true)
  (outside : Region.code.after before = .code)

include opener outside

theorem codeAt?_behind (n : Nat) :
    codeAt? (before ++ o :: rest) (before.length + 1 + n) = codeAt? rest n := by
  have closed : Region.code.after [o] = .code := (codeStep_of_isOpener opener).2
  have split : before.length + 1 + n = before.length + ([o].length + n) := by
    simp only [List.length_singleton]
    omega
  rw [split, codeAt?_append outside, ← List.singleton_append, codeAt?_append closed]

omit outside in
theorem netBrackets_behind (n : Nat) :
    netBrackets (before ++ o :: rest) before.length (before.length + 1 + n) =
      1 + bracketDelta (rest.take (n + 1)) := by
  obtain ⟨up, next⟩ := codeStep_of_isOpener opener
  have size : before.length + 1 + n + 1 - before.length = n + 1 + 1 := by omega
  rw [netBrackets, List.drop_left, size, List.take_succ_cons, bracketDelta,
    sumCode_bracketStep_cons, up, next, bracketDelta]

/-- Behind an opening bracket, what evens out with it closes one more than is opened. -/
theorem evensAt_behind_iff {n : Nat} :
    EvensAt (before ++ o :: rest) before.length (before.length + 1 + n) ↔
      (codeAt? rest n).isSome ∧ 1 + bracketDelta (rest.take (n + 1)) = 0 := by
  rw [← netBrackets_behind opener, ← codeAt?_behind opener outside]
  exact ⟨fun h => ⟨h.code, h.even⟩, fun h => ⟨by omega, h.1, h.2⟩⟩

/-- Counting finds the first place that evens out. -/
theorem isLeast_of_matchingIndex? {j : Nat}
    (h : matchingIndex? (before ++ o :: rest) before.length = some j) :
    IsLeast {j | EvensAt (before ++ o :: rest) before.length j} j := by
  rw [matchingIndex?_opener opener outside] at h
  obtain ⟨⟨inside, behind⟩, cut, rfl⟩ := Option.map_eq_some_iff.mp h
  obtain ⟨c, closer, rfl, encloses⟩ := (cutAtCloser_eq_some_iff Nat.one_pos).mp cut
  have balanced := encloses_iff_balanced.mp encloses
  constructor
  · refine (evensAt_behind_iff opener outside).mpr ⟨?_, ?_⟩
    · rw [codeAt?_closer closer balanced.outside]
      rfl
    · rw [List.take_length_add_append, bracketDelta, sumCode_append, balanced.outside,
        ← bracketDelta, balanced.even, List.take_succ_cons, sumCode_bracketStep_cons,
        (codeStep_of_isCloser closer).1]
      simp
  · intro k hk
    obtain ⟨n, rfl⟩ := Nat.exists_eq_add_of_le hk.behind
    have even := ((evensAt_behind_iff opener outside).mp hk).2
    by_contra early
    have short : n + 1 ≤ inside.length := by
      simp only at early
      omega
    rw [List.take_append_of_le_length short] at even
    have := balanced.level _ (List.take_prefix (n + 1) inside)
    omega

end Opened

/-- Where no bracket closes the open ones, one stays open everywhere. -/
theorem level_of_cutAtCloser_eq_none {region : Region} {depth : Nat} {t u : Text}
    (inside : 0 < depth) (uncut : cutAtCloser region depth t = none) (hu : u <+: t) :
    0 < depth + sumCode bracketStep region u := by
  induction t generalizing region depth u with
  | nil =>
    rw [List.prefix_nil.mp hu, sumCode_nil]
    omega
  | cons c r ih =>
    rw [cutAtCloser_cons] at uncut
    cases last : closesLast region depth c with
    | true =>
      rw [last] at uncut
      cases uncut
    | false =>
      rw [last, if_neg (by simp), Option.map_eq_none_iff] at uncut
      rcases List.prefix_cons_iff.mp hu with rfl | ⟨v, rfl, hv⟩
      · rw [sumCode_nil]
        omega
      · have := ih (depthBehind_pos inside last) uncut hv
        rw [coe_depthBehind inside] at this
        rw [sumCode_bracketStep_cons]
        omega

/-- Where counting finds nothing, nothing evens out. -/
theorem not_evensAt_of_matchingIndex? {before rest : Text} {o : Char} (opener : isOpener o = true)
    (outside : Region.code.after before = .code)
    (h : matchingIndex? (before ++ o :: rest) before.length = none) (j : Nat) :
    ¬ EvensAt (before ++ o :: rest) before.length j := by
  intro hj
  obtain ⟨n, rfl⟩ := Nat.exists_eq_add_of_le hj.behind
  have even := ((evensAt_behind_iff opener outside).mp hj).2
  rw [matchingIndex?_opener opener outside, Option.map_eq_none_iff] at h
  have := level_of_cutAtCloser_eq_none Nat.one_pos h (List.take_prefix (n + 1) rest)
  rw [bracketDelta] at even
  omega

/-- In a well nested text, counting finds the partner that is on the stack. -/
theorem exists_partner {before rest : Text} {o d : Char} {pairs : List (Nat × Nat)}
    (paired : bracketPairs? (before ++ o :: rest) = some pairs) (opener : closerOf? o = some d)
    (outside : Region.code.after before = .code) :
    ∃ j, matchingIndex? (before ++ o :: rest) before.length = some j ∧
      (∀ k, (before.length, k) ∈ pairs ↔ k = j) ∧ codeAt? (before ++ o :: rest) j = some d ∧
      (bracketPairs? (textBetween (before ++ o :: rest) before.length j)).isSome := by
  have bracket := isOpener_iff_closerOf?.mpr ⟨d, opener⟩
  have pairing := pairing_of_pairBrackets paired
  obtain ⟨inside, behind, inner, rfl, closer, closed, nested, made⟩ :=
    pairing.exists_pair rfl outside opener
  rw [Nat.zero_add] at made
  have unique := (pairing.nodup (by simp) (by simp)).1
  have balanced : Balanced inside := by
    refine ⟨closed, fun u hu => ?_, ?_⟩
    · have := nested.nonneg_of_prefix hu
      simpa [bracketDelta] using this
    · have := nested.length_add_sumCode
      simpa [bracketDelta] using this
  have cut : cutAtCloser .code 1 (inside ++ d :: behind) = some (inside, behind) :=
    (cutAtCloser_eq_some_iff Nat.one_pos).mpr
      ⟨d, closer, rfl, encloses_iff_balanced.mpr balanced⟩
  refine ⟨before.length + 1 + inside.length, ?_, ?_, ?_, ?_⟩
  · rw [matchingIndex?_opener bracket outside, cut, Option.map_some]
  · intro k
    constructor
    · intro there
      have first := valueAt?_of_mem unique there
      rw [valueAt?_of_mem unique made] at first
      exact (Option.some.inj first).symm
    · rintro rfl
      exact made
  · rw [codeAt?_behind bracket outside, codeAt?_closer closer closed]
  · obtain ⟨own, found⟩ := nested.exists_from 0 [] rfl
    have between : textBetween (before ++ o :: (inside ++ d :: behind)) before.length
        (before.length + 1 + inside.length) = inside := by
      rw [textBetween, Nat.add_sub_cancel_left, ← List.drop_drop, List.drop_left, List.drop_one,
        List.tail_cons, List.take_left]
    rw [between, bracketPairs?, found.pairBrackets_eq]
    rfl

/-- Counting brackets matches partners. In a text that is well nested by kind as many brackets are
closed as opened, and an opening bracket is matched with the one that the stack pairs it with, which
is of its kind and has a well nested text in front of it. In any text, an opening bracket is matched
with the first place in code behind it that evens out, and with none if there is no such place. -/
theorem counting_matches_partners (t : Text) :
    (∀ pairs, bracketPairs? t = some pairs → bracketDelta t = 0 ∧
      ∀ i o, codeAt? t i = some o → isOpener o = true → ∃ j, matchingIndex? t i = some j ∧
        (∀ k, (i, k) ∈ pairs ↔ k = j) ∧ codeAt? t j = closerOf? o ∧
        (bracketPairs? (textBetween t i j)).isSome) ∧
    ∀ i o, codeAt? t i = some o → isOpener o = true →
      (∀ j, matchingIndex? t i = some j ↔ IsLeast {j | EvensAt t i j} j) ∧
      (matchingIndex? t i = none ↔ ∀ j, ¬ EvensAt t i j) := by
  constructor
  · intro pairs paired
    constructor
    · have := (pairing_of_pairBrackets paired).length_add_sumCode
      simpa [bracketDelta] using this
    · intro i o there opener
      obtain ⟨before, rest, rfl, rfl, outside⟩ := exists_append_of_codeAt? there
      obtain ⟨d, closer⟩ := isOpener_iff_closerOf?.mp opener
      rw [closer]
      exact exists_partner paired closer outside
  · intro i o there opener
    obtain ⟨before, rest, rfl, rfl, outside⟩ := exists_append_of_codeAt? there
    cases found : matchingIndex? (before ++ o :: rest) before.length with
    | none =>
      have nowhere := not_evensAt_of_matchingIndex? opener outside found
      refine ⟨fun j => ⟨fun same => ?_, fun least => absurd least.1 (nowhere j)⟩, fun _ => nowhere,
        fun _ => rfl⟩
      cases same
    | some j =>
      have least := isLeast_of_matchingIndex? opener outside found
      refine ⟨fun k => ⟨fun same => Option.some.inj same ▸ least, fun other => ?_⟩,
        fun missed => ?_, fun nowhere => absurd least.1 (nowhere j)⟩
      · rw [least.unique other]
      · cases missed

/-- A call whose strings hold brackets that no bracket of the code matches. -/
def bracketsInStrings : Text := "f([')'], \x7ba: '('\x7d)"

theorem counting_matches_partners_inStrings :
    bracketPairs? bracketsInStrings = some [(2, 6), (9, 16), (1, 17)] ∧
    codeAt? bracketsInStrings 1 = some '(' ∧ isOpener '(' = true ∧
    matchingIndex? bracketsInStrings 1 = some 17 ∧ codeAt? bracketsInStrings 17 = some ')' ∧
    IsLeast {j | EvensAt bracketsInStrings 1 j} 17 := by
  have paired : bracketPairs? bracketsInStrings = some [(2, 6), (9, 16), (1, 17)] := by
    decide +kernel
  have there : codeAt? bracketsInStrings 1 = some '(' := by decide +kernel
  obtain ⟨nested, first⟩ := counting_matches_partners bracketsInStrings
  obtain ⟨j, found, partner, kind, -⟩ := (nested _ paired).2 1 '(' there rfl
  obtain rfl : 17 = j := (partner 17).mp (by decide)
  exact ⟨paired, there, rfl, found, kind, ((first 1 '(' there rfl).1 17).mp found⟩

end PageObjects
