import PageObjects.Locator.Classify
import PageObjects.Proofs.Locator.Receiver

namespace PageObjects

open Text

/-- An expression that is a chain from an accessor on: all its calls close, and it is more than a
string that `locator` is given. -/
structure IsLocatorChain (t : Text) (chain : Chain) : Prop where
  read : accessorChain? t = some chain
  closes : ∀ i ∈ Chain.callPlaces t, (matchingIndex? t i).isSome = true
  other : loneLocator? chain = none

/-- What holds of each option that a chain is given. -/
def Chain.AllOptions (P : Text → List Text → Prop) (chain : Chain) : Prop :=
  ∀ s ∈ chain.segments, ∀ arg ∈ s.arguments, EachOption P arg

/-- A chain with its steps in normal form. -/
def Chain.normalize (chain : Chain) : Chain :=
  { chain with segments := chain.segments.map Segment.normalize }

/-- Options without object literals in them are looked at on one level only. -/
theorem Chain.allOptions_of_flat {P : Text → List Text → Prop} {chain : Chain}
    (h : ∀ s ∈ chain.segments, ∀ arg ∈ s.arguments, ∀ o ∈ optionsOf arg,
      P o.1 o.2 ∧ optionsOf (joinWith [':'] o.2) = []) : chain.AllOptions P := by
  intro s hs arg harg
  refine .of_optionsOf fun o ho => ?_
  obtain ⟨own, flat⟩ := h s hs arg harg o ho
  refine ⟨own, .of_optionsOf ?_⟩
  rw [flat]
  exact nofun

theorem IsLocatorChain.isStep {t : Text} {chain : Chain} (h : IsLocatorChain t chain)
    (free : chain.AllOptions FreeKey) (neat : Neat t) : ∀ s ∈ chain.segments, s.IsStep := by
  obtain ⟨-, rfl, -⟩ := accessorChain?_eq_some_iff.mp h.read
  have closes := h.closes
  rw [← neat.trim_eq] at closes
  have formed := Chain.wellFormed_parse closes
  intro s hs
  refine ⟨(formed.segments s hs).name, fun args ha => ?_⟩
  have tidy := neat.toTidy.mono (Chain.infix_of_mem_segments hs args ha)
  refine ⟨tidy, (formed.segments s hs).balanced args ha, fun arg harg => free s hs arg ?_⟩
  rwa [Segment.arguments, Option.mem_def.mp ha]

theorem accessor_spec : ∀ name ∈ locatorAccessors, isIdentifier name = true ∧ name ≠ [] ∧
    name.head?.any Char.isAlpha = true ∧ name.head? ≠ some 't' ∧ name.all isWord = true := by
  decide

theorem afterPageReceiver?_call {name r : Text} (filled : name ≠ [])
    (word : ∀ c ∈ name, isWord c = true) (other : name.head? ≠ some 't') :
    afterPageReceiver? (name ++ '(' :: r) = none := by
  have same : dropPrefix "this." (name ++ '(' :: r) = name ++ '(' :: r := by
    rcases dropPrefix_cases "this." (name ++ '(' :: r) with same | split
    · exact same
    · have front := congrArg List.head? split
      rw [List.head?_append_of_ne_nil _ filled] at front
      exact absurd front other
  have bracket : isWord '(' = false := by decide
  have run : run? isWord (name ++ '(' :: r) = some (name, '(' :: r) :=
    run?_append filled word fun c hc => Option.some.inj hc ▸ bracket
  have mark : afterMark? '.' ('(' :: r) = none := rfl
  rw [afterPageReceiver?, same, run]
  simp only [Option.bind_eq_bind, Option.bind_some, mark, Option.bind_none, ite_self]

/-- Steps from an accessor call on are read back as a chain without the blanks around its arguments,
and there is no page before them. -/
theorem accessorChain?_of_closes {steps : List Segment} (closes : ∀ s ∈ steps, s.Closes)
    (first : steps.head?.any (fun s => isAccessor s && s.isCall) = true) :
    accessorChain? (renderSegments steps) = some ⟨[], steps.map Segment.trimmed, []⟩ ∧
      withoutReceiver (renderSegments steps) = renderSegments steps := by
  cases steps with
  | nil => cases first
  | cons s steps =>
    obtain ⟨accessor, call⟩ := Bool.and_eq_true_iff.mp first
    obtain ⟨-, filled, letter, other, word⟩ :=
      accessor_spec s.name (List.contains_iff_mem.mp accessor)
    obtain ⟨args, ha⟩ := Option.isSome_iff_exists.mp call
    obtain ⟨r, whole⟩ : ∃ r, renderSegments (s :: steps) = s.name ++ '(' :: r := by
      refine ⟨args ++ [')'] ++ Chain.dotted steps, ?_⟩
      rw [Chain.renderSegments_cons, Segment.render, ha]
      simp
    have front : (renderSegments (s :: steps)).head? = s.name.head? := by
      rw [whole, List.head?_append_of_ne_nil _ filled]
    have trimmed : ((s :: steps).map Segment.trimmed).head?.any
        (fun s => isAccessor s && s.isCall) = true := by
      rw [List.map_cons, List.head?_cons, Option.any_some, Segment.isCall_trimmed]
      exact first
    have calls : ∀ s' ∈ (s :: steps).head?, s'.isCall = true := by
      intro s' hs
      obtain rfl := Option.some.inj hs
      exact call
    constructor
    · have read : Chain.parse (Chain.render ⟨[], s :: steps, []⟩) =
          ⟨[], (s :: steps).map Segment.trimmed, []⟩ :=
        Chain.parse_render_of_closes (List.forall_mem_nil _) closes calls
      exact accessorChain?_eq_some_iff.mpr ⟨by rw [front, letter], read, rfl, rfl, trimmed⟩
    · have noReceiver : afterPageReceiver? (renderSegments (s :: steps)) = none := by
        rw [whole]
        exact afterPageReceiver?_call filled (List.all_eq_true.mp word) other
      rw [withoutReceiver, noReceiver]

theorem accessorChain?_renderSegments {steps : List Segment} (formed : ∀ s ∈ steps, s.WellFormed)
    (first : steps.head?.any (fun s => isAccessor s && s.isCall) = true) :
    accessorChain? (renderSegments steps) = some ⟨[], steps, []⟩ ∧
      withoutReceiver (renderSegments steps) = renderSegments steps := by
  have same : steps.map Segment.trimmed = steps :=
    (List.map_congr_left fun s hs => (formed s hs).trimmed_eq).trans (List.map_id _)
  have read := accessorChain?_of_closes (fun s hs => (formed s hs).closes) first
  rwa [same] at read

theorem loneLocator?_eq_some_iff {chain : Chain} {value : Text} : loneLocator? chain = some value ↔
    ∃ s arg, chain.segments = [s] ∧ s.name = "locator" ∧ s.arguments = [arg] ∧
      Literal.string? arg = some value := by
  rw [loneLocator?]
  constructor
  · intro h
    split at h
    next s single =>
      split at h
      next name =>
        split at h
        next arg only => exact ⟨s, arg, single, name, only, h⟩
        next => cases h
      next => cases h
    next => cases h
  · rintro ⟨s, arg, single, name, only, value⟩
    rw [single]
    dsimp only
    rw [if_pos name, only]
    exact value

/-- A chain that is more than a string that `locator` is given stays so. -/
theorem loneLocator?_normalize {chain : Chain} (steps : ∀ s ∈ chain.segments, s.IsStep)
    (other : loneLocator? chain = none) : loneLocator? chain.normalize = none := by
  refine Option.eq_none_iff_forall_ne_some.mpr fun value lone => ?_
  obtain ⟨s', arg', single, name, only, read⟩ := loneLocator?_eq_some_iff.mp lone
  obtain ⟨s, own, rfl⟩ := List.map_eq_singleton_iff.mp single
  have step : s.IsStep := steps s (own ▸ List.mem_singleton_self s)
  rw [step.arguments_normalize] at only
  obtain ⟨arg, among, rfl⟩ := List.map_eq_singleton_iff.mp only
  obtain ⟨free, isValue⟩ := step.of_mem_arguments (among ▸ List.mem_singleton_self arg)
  cases plain : Literal.string? arg with
  | none =>
    rw [string?_normalizeValue free isValue plain] at read
    cases read
  | some text =>
    have := loneLocator?_eq_some_iff.mpr ⟨s, arg, own, name, among, plain⟩
    rw [other] at this
    cases this

/-- What the steps of a locator chain are brought to is a locator chain without a page before it,
and it is its own normal form. -/
theorem IsLocatorChain.normalizeSelector_render {t : Text} {chain : Chain}
    (h : IsLocatorChain t chain) (free : chain.AllOptions FreeKey) (neat : Neat t) :
    normalizeSelector (renderSegments (chain.segments.map Segment.normalize)) =
      renderSegments (chain.segments.map Segment.normalize) := by
  have steps := h.isStep free neat
  obtain ⟨-, -, receiver, rest, first⟩ := accessorChain?_eq_some_iff.mp h.read
  have filled : chain.segments ≠ [] := by
    intro empty
    rw [empty] at first
    cases first
  have formed : ∀ s ∈ chain.segments.map Segment.normalize, s.WellFormed :=
    List.forall_mem_map.mpr fun s hs => (steps s hs).wellFormed_normalize
  have firstNormal : (chain.segments.map Segment.normalize).head?.any
      (fun s => isAccessor s && s.isCall) = true := by
    rw [List.head?_map, Option.any_map]
    simpa [Function.comp_def] using first
  obtain ⟨read, bare⟩ := accessorChain?_renderSegments formed firstNormal
  have other := loneLocator?_normalize steps h.other
  rw [Chain.normalize, receiver, rest] at other
  have squeezed := (neat_renderSegments filled steps).squeeze_eq
  have whole : accessorChain?
      (withoutReceiver (squeeze (renderSegments (chain.segments.map Segment.normalize)))) =
        some ⟨[], chain.segments.map Segment.normalize, []⟩ := by
    rw [squeezed, bare, read]
  have again : (chain.segments.map Segment.normalize).map Segment.normalize =
      chain.segments.map Segment.normalize := by
    rw [List.map_map]
    exact List.map_congr_left fun s hs => (steps s hs).normalize_normalize
  rw [normalizeSelector_eq whole other, again]

/-- The normal form of a locator chain is its own normal form and has the same selector, and so has
the chain behind any page. -/
theorem selector_canonical {e : Text} {chain : Chain}
    (h : IsLocatorChain (withoutReceiver (squeeze e)) chain) (free : chain.AllOptions FreeKey) :
    normalizeSelector (normalizeSelector e) = normalizeSelector e ∧
      Selector.ofExpression (normalizeSelector e) = Selector.ofExpression e ∧
      ∀ receiver, IsPageReceiver receiver →
        normalizeSelector (receiver ++ '.' :: withoutReceiver (squeeze e)) = normalizeSelector e ∧
          Selector.ofExpression (receiver ++ '.' :: withoutReceiver (squeeze e)) =
            Selector.ofExpression e := by
  obtain ⟨c, r, whole, -⟩ := exists_cons_of_withoutReceiver h.read
  have neat := neat_withoutReceiver (neat_squeeze (by simp [whole])) h.read
  have own := normalizeSelector_eq h.read h.other
  have stable := h.normalizeSelector_render free neat
  rw [← own] at stable
  refine ⟨stable, by rw [Selector.ofExpression, stable, ← Selector.ofExpression], ?_⟩
  intro receiver page
  obtain ⟨letter, -⟩ := accessorChain?_eq_some_iff.mp h.read
  have dot : Neat ['.'] := .singleton rfl
  have squeezed := (page.neat.append (dot.append neat)).squeeze_eq
  have dropped : withoutReceiver (receiver ++ '.' :: withoutReceiver (squeeze e)) =
      withoutReceiver (squeeze e) := by
    rw [withoutReceiver, page.afterPageReceiver?_append letter]
    dsimp only
    rw [h.read]
    rfl
  have read : accessorChain?
      (withoutReceiver (squeeze (receiver ++ '.' :: withoutReceiver (squeeze e)))) = some chain := by
    rw [List.singleton_append] at squeezed
    rw [squeezed, dropped, h.read]
  have same := (normalizeSelector_eq read h.other).trans own.symm
  exact ⟨same, by rw [Selector.ofExpression, same, ← Selector.ofExpression]⟩

/-- A button that is reached from a page over several lines. -/
def saveButton : Text :=
  "this.loginPage . getByRole( \"button\", \x7b \"name\": \"it's\", exact : true \x7d )\n  .first()"

def saveButtonChain : Chain where
  receiver := []
  segments := [⟨"getByRole", some "\"button\", \x7b \"name\": \"it's\", exact : true \x7d"⟩,
    ⟨"first", some []⟩]
  rest := []

theorem selector_canonical_saveButton :
    (IsLocatorChain (withoutReceiver (squeeze saveButton)) saveButtonChain ∧
      saveButtonChain.AllOptions FreeKey ∧ IsPageReceiver "popup") ∧
    normalizeSelector saveButton =
      "getByRole('button', \x7b name: 'it\\'s', exact: true \x7d).first()" ∧
    normalizeSelector (normalizeSelector saveButton) = normalizeSelector saveButton ∧
    Selector.ofExpression ("popup" ++ '.' :: withoutReceiver (squeeze saveButton)) =
      Selector.ofExpression saveButton := by
  have chain : IsLocatorChain (withoutReceiver (squeeze saveButton)) saveButtonChain :=
    ⟨by decide +kernel, by decide +kernel, by decide +kernel⟩
  have free : saveButtonChain.AllOptions FreeKey := Chain.allOptions_of_flat (by decide +kernel)
  have page : IsPageReceiver "popup" :=
    .name (by decide) (List.all_eq_true.mp (by decide))
  obtain ⟨stable, -, behind⟩ := selector_canonical chain free
  exact ⟨⟨chain, free, page⟩, by decide +kernel, stable, (behind "popup" page).2⟩

/-- A key that starts with a blank. Without its quotes a space before it is left over, and the next
normal form loses it. -/
def spacedKey : Text := "getByRole('button', \x7b ' name': 'x' \x7d)"

theorem normalizeSelector_spacedKey : ∃ chain,
    IsLocatorChain (withoutReceiver (squeeze spacedKey)) chain ∧ chain.AllOptions IsInertKey ∧
      normalizeSelector (normalizeSelector spacedKey) ≠ normalizeSelector spacedKey := by
  refine ⟨⟨[], [⟨"getByRole", some "'button', \x7b ' name': 'x' \x7d"⟩], []⟩, ?_, ?_, ?_⟩
  · exact ⟨by decide +kernel, by decide +kernel, by decide +kernel⟩
  · exact Chain.allOptions_of_flat (by decide +kernel)
  · decide +kernel

end PageObjects
