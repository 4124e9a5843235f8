import PageObjects.Proofs.Locator.Steps
import PageObjects.Proofs.Text.Search

namespace PageObjects

open Text

/-- A page before a locator chain: a name or a field of `this`. -/
inductive IsPageReceiver : Text → Prop where
  | name {p : Text} (page : isPageName p = true) (word : ∀ c ∈ p, isWord c = true) :
      IsPageReceiver p
  | field {p : Text} (page : isPageName p = true) (word : ∀ c ∈ p, isWord c = true) :
      IsPageReceiver ("this." ++ p)

theorem isBlank_of_isWord {c : Char} (h : isWord c = true) : isBlank c = false :=
  isBlank_of_class (by decide +kernel) h

theorem isBlank_of_isAlpha {c : Char} (h : c.isAlpha = true) : isBlank c = false :=
  isBlank_of_class (by decide) h

theorem accessorChain?_eq_some_iff {t : Text} {chain : Chain} : accessorChain? t = some chain ↔
    t.head?.any Char.isAlpha = true ∧ Chain.parse t = chain ∧ chain.receiver = [] ∧
      chain.rest = [] ∧ chain.segments.head?.any (fun s => isAccessor s && s.isCall) = true := by
  rw [accessorChain?]
  constructor
  · intro h
    split at h
    next letter =>
      dsimp only at h
      split at h
      next own =>
        obtain rfl := Option.some.inj h
        simp only [Bool.and_eq_true, List.isEmpty_iff] at own
        exact ⟨letter, rfl, own.1.1, own.1.2, own.2⟩
      next => cases h
    next => cases h
  · rintro ⟨letter, rfl, receiver, rest, first⟩
    rw [if_pos letter]
    dsimp only
    rw [receiver, rest, first]
    rfl

/-- What is taken for a page is one, and what follows it starts with a letter. -/
theorem exists_of_afterPageReceiver? {t r : Text} (h : afterPageReceiver? t = some r) :
    ∃ receiver gap, IsPageReceiver receiver ∧ t = receiver ++ (gap ++ r) ∧
      r.head?.any Char.isAlpha = true := by
  simp only [afterPageReceiver?, Option.bind_eq_bind, Option.bind_eq_some_iff] at h
  obtain ⟨⟨name, behind⟩, named, h⟩ := h
  dsimp only at h
  split at h
  next page =>
    obtain ⟨r', dot, h⟩ := Option.bind_eq_some_iff.mp h
    split at h
    next letter =>
      obtain rfl := Option.some.inj h
      obtain ⟨word, whole⟩ := eq_append_of_run? named
      obtain ⟨before, rfl⟩ := exists_of_afterMark? dot
      obtain ⟨between, rest, -⟩ := exists_append_trimStart r'
      have apart : before ++ '.' :: r' = (before ++ '.' :: between) ++ trimStart r' := by
        rw [List.append_assoc, List.cons_append, ← rest]
      rw [apart] at whole
      rcases dropPrefix_cases "this." t with same | split
      · exact ⟨name, _, .name page word, same ▸ whole, letter⟩
      · rw [whole, ← List.append_assoc] at split
        exact ⟨_, _, .field page word, split, letter⟩
    next => cases h
  next => cases h

namespace IsPageReceiver

variable {receiver t : Text}

theorem isPageName_ne_nil {p : Text} (h : isPageName p = true) : p ≠ [] := by
  rintro rfl
  cases h

theorem exists_cons (h : IsPageReceiver receiver) :
    ∃ c r, receiver = c :: r ∧ isWord c = true := by
  cases h with
  | @name p page word =>
    obtain ⟨c, r, rfl⟩ := List.exists_cons_of_ne_nil (isPageName_ne_nil page)
    exact ⟨c, r, rfl, word c List.mem_cons_self⟩
  | field => exact ⟨'t', _, rfl, by decide⟩

theorem neat (h : IsPageReceiver receiver) : Neat receiver := by
  have words : ∀ {p : Text}, isPageName p = true → (∀ c ∈ p, isWord c = true) → Neat p :=
    fun page word => .of_words (isPageName_ne_nil page) fun c hc => isBlank_of_isWord (word c hc)
  cases h with
  | name page word => exact words page word
  | field page word =>
    have this : Neat "this." := .of_words (List.cons_ne_nil _ _) (others_of_any (by decide))
    exact this.append (words page word)

/-- What follows the dot behind a page, be there blanks before it or not, is what follows the
page. -/
theorem afterPageReceiver?_gap (h : IsPageReceiver receiver) {gap : Text}
    (blank : ∀ c ∈ gap, isBlank c = true) (letter : t.head?.any Char.isAlpha = true) :
    afterPageReceiver? (receiver ++ (gap ++ '.' :: t)) = some t := by
  have front : trimStart t = t := by
    refine trimStart_eq_self fun c hc => ?_
    rw [Option.mem_def.mp hc] at letter
    exact isBlank_of_isAlpha letter
  have stop : ∀ c ∈ (gap ++ '.' :: t).head?, isWord c = false := by
    intro c hc
    refine Bool.eq_false_iff.mpr fun word => ?_
    cases gap with
    | nil =>
      obtain rfl := Option.some.inj hc
      exact absurd word (by decide)
    | cons b gap =>
      obtain rfl := Option.some.inj hc
      have := blank b List.mem_cons_self
      rw [isBlank_of_isWord word] at this
      cases this
  have mark : afterMark? '.' (gap ++ '.' :: t) = some t := by
    have dot : ∀ c ∈ ('.' :: t).head?, isBlank c = false := by
      intro c hc
      obtain rfl := Option.some.inj hc
      rfl
    rw [afterMark?, trimStart, (takeWhile_append blank dot).2]
    rfl
  have own : ∀ {p : Text}, isPageName p = true → (∀ c ∈ p, isWord c = true) →
      run? isWord (p ++ (gap ++ '.' :: t)) = some (p, gap ++ '.' :: t) := fun page word =>
    run?_append (isPageName_ne_nil page) word stop
  have page : ∀ {p : Text}, isPageName p = true → (∀ c ∈ p, isWord c = true) →
      dropPrefix "this." (receiver ++ (gap ++ '.' :: t)) = p ++ (gap ++ '.' :: t) →
      afterPageReceiver? (receiver ++ (gap ++ '.' :: t)) = some t := by
    intro p page word same
    rw [afterPageReceiver?, same, own page word]
    simp only [Option.bind_eq_bind, Option.bind_some, if_pos page, mark, front, if_pos letter]
  cases h with
  | name named word =>
    refine page named word ?_
    rcases dropPrefix_cases "this." (receiver ++ (gap ++ '.' :: t)) with same | split
    · exact same
    · -- the word at the front would be `this`, which is no page
      have run := own named word
      generalize dropPrefix "this." (receiver ++ (gap ++ '.' :: t)) = u at split
      have apart : ("this." ++ u : Text) = ("this" : Text) ++ '.' :: u := rfl
      have all : ("this" : Text).all isWord = true := by decide
      have dot : isWord '.' = false := by decide
      have this : run? isWord (("this" : Text) ++ '.' :: u) = some (("this" : Text), '.' :: u) :=
        run?_append (List.cons_ne_nil _ _) (List.all_eq_true.mp all) fun c hc =>
          Option.some.inj hc ▸ dot
      rw [split, apart, this] at run
      obtain ⟨rfl, -⟩ := Prod.mk.inj (Option.some.inj run)
      cases named
  | field named word =>
    refine page named word ?_
    rw [List.append_assoc, dropPrefix, dropPrefix?_append, Option.getD_some]

theorem afterPageReceiver?_append (h : IsPageReceiver receiver)
    (letter : t.head?.any Char.isAlpha = true) :
    afterPageReceiver? (receiver ++ '.' :: t) = some t := by
  have noBlanks : ∀ c ∈ ([] : Text), isBlank c = true := nofun
  exact h.afterPageReceiver?_gap noBlanks letter

end IsPageReceiver

section Receiver

variable {t : Text} {chain : Chain}

theorem withoutReceiver_cases (t : Text) :
    withoutReceiver t = t ∨ afterPageReceiver? t = some (withoutReceiver t) := by
  rw [withoutReceiver]
  split
  next r receiver =>
    by_cases own : (accessorChain? r).isSome = true
    · rw [if_pos own]
      exact .inr receiver
    · exact .inl (if_neg own)
  next => exact .inl rfl

/-- A text with a chain in it starts with a word, be it a page or an accessor. -/
theorem exists_cons_of_withoutReceiver (read : accessorChain? (withoutReceiver t) = some chain) :
    ∃ c r, t = c :: r ∧ isWord c = true := by
  obtain ⟨letter, -⟩ := accessorChain?_eq_some_iff.mp read
  rcases withoutReceiver_cases t with same | receiver
  · rw [same] at letter
    cases t with
    | nil => cases letter
    | cons c r => exact ⟨c, r, rfl, isWord_of_isAlpha letter⟩
  · obtain ⟨receiver, gap, page, whole, -⟩ := exists_of_afterPageReceiver? receiver
    obtain ⟨c, r, rfl, word⟩ := page.exists_cons
    exact ⟨c, _, whole, word⟩

theorem neat_withoutReceiver (neat : Neat t)
    (read : accessorChain? (withoutReceiver t) = some chain) : Neat (withoutReceiver t) := by
  obtain ⟨letter, -⟩ := accessorChain?_eq_some_iff.mp read
  rcases withoutReceiver_cases t with same | receiver
  · rwa [same]
  · obtain ⟨receiver, gap, -, whole, -⟩ := exists_of_afterPageReceiver? receiver
    generalize withoutReceiver t = r at letter whole
    cases r with
    | nil => cases letter
    | cons c r =>
      have part : c :: r <:+ t := ⟨receiver ++ gap, by rw [whole, List.append_assoc]⟩
      refine ⟨neat.toTidy.mono part.isInfix, List.cons_ne_nil c r, ?_, ?_⟩
      · intro d hd
        obtain rfl := Option.some.inj hd
        exact isBlank_of_isAlpha letter
      · intro d hd
        refine neat.back d ?_
        rw [whole, ← List.append_assoc, List.getLast?_append_of_ne_nil _ (List.cons_ne_nil c r)]
        exact hd

/-- The normal form of an expression with a chain in it is told by the chain. -/
theorem normalizeSelector_of_read {e : Text}
    (read : accessorChain? (withoutReceiver (squeeze e)) = some chain) :
    normalizeSelector e = match loneLocator? chain with
      | some inner => squeeze inner
      | none => renderSegments (chain.segments.map Segment.normalize) := by
  obtain ⟨c, r, whole, word⟩ := exists_cons_of_withoutReceiver read
  have neat : Neat (squeeze e) := neat_squeeze (by simp [whole])
  have string : Literal.string? (squeeze e) = none := by
    refine Literal.string?_eq_none neat.trim_eq ?_
    rw [whole]
    intro d hd
    obtain rfl := Option.some.inj hd
    refine ⟨(isPlain_of_isIdentifierPart (isIdentifierPart_of_isWord word)).quote, ?_⟩
    rintro rfl
    exact absurd word (by decide)
  rw [normalizeSelector, string]
  dsimp only
  rw [normalizeChain]
  split
  next noChain => cases read.symm.trans noChain
  next chain' own =>
    obtain rfl := Option.some.inj (own.symm.trans read)
    rfl

/-- The normal form of an expression is made of the normal forms of its steps. -/
theorem normalizeSelector_eq {e : Text}
    (read : accessorChain? (withoutReceiver (squeeze e)) = some chain)
    (other : loneLocator? chain = none) :
    normalizeSelector e = renderSegments (chain.segments.map Segment.normalize) := by
  rw [normalizeSelector_of_read read, other]

end Receiver

end PageObjects
