import PageObjects.Locator.Fragility

namespace PageObjects

/-- What signals add up to, each at its own rate. -/
def sumOver (rate : Signal → Int) (gs : List Signal) : Int := (gs.map rate).foldr (· + ·) 0

section SumOver

variable {f k : Signal → Int}

theorem sumOver_cons (f : Signal → Int) (g : Signal) (gs : List Signal) :
    sumOver f (g :: gs) = f g + sumOver f gs := rfl

theorem sumOver_le (h : ∀ g, f g ≤ k g) (gs : List Signal) : sumOver f gs ≤ sumOver k gs := by
  induction gs with
  | nil => exact Int.le_refl 0
  | cons g gs ih =>
    have own := h g
    rw [sumOver_cons, sumOver_cons]
    omega

theorem sumOver_add (f k : Signal → Int) (gs : List Signal) :
    sumOver (fun g => f g + k g) gs = sumOver f gs + sumOver k gs := by
  induction gs with
  | nil => rfl
  | cons g gs ih =>
    rw [sumOver_cons, sumOver_cons, sumOver_cons, ih]
    omega

end SumOver

namespace Selector

variable {s t : Selector} {g : Signal}

/-- What a signal adds to the score of a selector. -/
def points (s : Selector) (g : Signal) : Int := if s.shows g then g.weight else 0

/-- The score before it is cut off. -/
def total (s : Selector) : Int := baseScore + sumOver s.points Signal.all

theorem sumOver_weight (s : Selector) (gs : List Signal) :
    sumOver Signal.weight (gs.filter s.shows) = sumOver s.points gs := by
  induction gs with
  | nil => rfl
  | cons g gs ih =>
    rw [sumOver_cons, ← ih]
    by_cases shown : s.shows g = true
    · rw [List.filter_cons_of_pos shown, sumOver_cons, points, if_pos shown]
    · rw [List.filter_cons_of_neg shown, points, if_neg shown, Int.zero_add]

theorem score_eq_total (s : Selector) : s.score = max 0 (min 100 s.total) := by
  have sum : sumOver Signal.weight s.signals = sumOver s.points Signal.all :=
    s.sumOver_weight Signal.all
  unfold total
  rw [← sum]
  rfl

theorem total_le {most : Signal → Int} (h : ∀ g, s.points g ≤ most g) :
    s.total ≤ baseScore + sumOver most Signal.all := by
  have sum := sumOver_le h Signal.all
  unfold total
  omega

theorem le_total {least : Signal → Int} (h : ∀ g, least g ≤ s.points g) :
    baseScore + sumOver least Signal.all ≤ s.total := by
  have sum := sumOver_le h Signal.all
  unfold total
  omega

theorem points_of_shown (h : s.shows g = true) : s.points g = g.weight := if_pos h

theorem points_of_hidden (h : s.shows g = false) : s.points g = 0 := by
  unfold points
  rw [h]
  rfl

theorem points_congr (h : t.shows g = s.shows g) : t.points g = s.points g := by
  unfold points
  rw [h]

/-- A penalty takes nothing off, and a credit adds nothing. -/
theorem points_between (s : Selector) (g : Signal) :
    min 0 g.weight ≤ s.points g ∧ s.points g ≤ max 0 g.weight := by
  unfold points
  split
  next => omega
  next => omega

theorem points_nonneg (s : Selector) (penalty : 0 ≤ g.weight) : 0 ≤ s.points g := by
  have between := s.points_between g
  omega

/-- A selector by CSS is never scored down to the lower end: test ids and roles are other
strategies, and the credits left over do not use up the base score. -/
theorem five_le_total (css : s.strategy = .css) : 5 ≤ s.total := by
  have least : ∀ g, (if g = .testId ∨ g = .role then 0 else min 0 g.weight) ≤ s.points g := by
    intro g
    split
    next other =>
      have hidden : s.shows g = false := by
        rcases other with rfl | rfl
        · simp [shows, css]
        · simp [shows, css]
      exact Int.le_of_eq (points_of_hidden hidden).symm
    next => exact (s.points_between g).1
  have bound := le_total least
  have credits : sumOver (fun g => if g = .testId ∨ g = .role then 0 else min 0 g.weight)
      Signal.all = -45 := by decide
  rw [credits] at bound
  exact bound

/-- The selector `t` differs from `s` in that it locates by a test id, for which it has one more
attribute. -/
structure AddsTestId (s t : Selector) : Prop where
  strategy : t.strategy = .testId
  positional : t.isPositional = s.isPositional
  depth : t.details.depth = s.details.depth
  classes : t.details.classes = s.details.classes
  id : t.details.id? = s.details.id?
  attributes : ∃ name ∈ testIdAttributes, ∃ value lead rest,
    s.details.attributes = lead ++ rest ∧ t.details.attributes = lead ++ (name, value) :: rest

theorem not_aria_of_testId {name : Text} (h : name ∈ testIdAttributes) :
    List.isPrefixOf "aria-" name = false := by
  revert name
  decide

theorem valueAt?_insert {key name value : Text} {lead rest : List (Text × Text)}
    (other : name ≠ key) :
    valueAt? key (lead ++ (name, value) :: rest) = valueAt? key (lead ++ rest) := by
  induction lead with
  | nil => rw [List.nil_append, List.nil_append, valueAt?, if_neg other]
  | cons entry lead ih =>
    obtain ⟨k, v⟩ := entry
    rw [List.cons_append, List.cons_append, valueAt?, valueAt?, ih]

/-- What a test id in place of CSS can at most add to what a signal counts. -/
def testIdChange : Signal → Int
  | .testId => -40
  | .multipleAttributes => 5
  | _ => 0

/-- Penalties that only other strategies have. -/
def foreignPenalties : List Signal := [.xpathSyntax, .placeholderOnly, .classOnly, .textOnly, .idOnly]

namespace AddsTestId

theorem shows_testId (h : AddsTestId s t) : t.shows .testId = true := by
  unfold shows
  rw [h.strategy]
  rfl

theorem shows_eq_false (h : AddsTestId s t) (foreign : g ∈ foreignPenalties) :
    t.shows g = false := by
  have strategy := h.strategy
  revert g
  simp [foreignPenalties, shows, strategy]

/-- The further attribute is one of the selector's own, besides those that it had. -/
theorem ownAttributes (h : AddsTestId s t) : ∃ name ∈ testIdAttributes, ∃ value lead rest,
    s.ownAttributes = lead ++ rest ∧ t.ownAttributes = lead ++ (name, value) :: rest := by
  obtain ⟨name, known, value, lead, rest, before, after⟩ := h.attributes
  have own : ∀ other ∈ testIdAttributes, (other != ("class" : Text)) = true := by decide
  let isOwn : Text × Text → Bool := fun pair => pair.1 != ("class" : Text)
  refine ⟨name, known, value, lead.filter isOwn, rest.filter isOwn, ?_, ?_⟩
  · show s.details.attributes.filter isOwn = _
    rw [before, List.filter_append]
  · show t.details.attributes.filter isOwn = _
    have kept : isOwn (name, value) = true := own name known
    rw [after, List.filter_append, List.filter_cons_of_pos kept]

theorem hasAttribute (h : AddsTestId s t) {key : Text} (other : key ∉ testIdAttributes) :
    t.hasAttribute key = s.hasAttribute key := by
  obtain ⟨name, known, value, lead, rest, before, after⟩ := h.ownAttributes
  have apart : name ≠ key := by
    rintro rfl
    exact other known
  unfold Selector.hasAttribute
  rw [before, after, valueAt?_insert apart]

theorem ariaAttribute (h : AddsTestId s t) : t.shows .ariaAttribute = s.shows .ariaAttribute := by
  obtain ⟨name, known, value, lead, rest, before, after⟩ := h.ownAttributes
  have plain := not_aria_of_testId known
  unfold shows
  rw [before, after, List.any_append, List.any_append, List.any_cons, plain, Bool.false_or]

/-- Locating by a test id takes off its credit, and the further attribute may be the second one. -/
theorem points_le (h : AddsTestId s t) (css : s.strategy = .css) (g : Signal) :
    t.points g ≤ s.points g + testIdChange g := by
  have strategy := h.strategy
  have gone : ∀ {g}, g ∈ foreignPenalties → t.points g ≤ s.points g + 0 := by
    intro g foreign
    have penalty : ∀ g ∈ foreignPenalties, 0 ≤ g.weight := by decide
    have before := s.points_nonneg (penalty g foreign)
    rw [points_of_hidden (h.shows_eq_false foreign)]
    omega
  have same : ∀ {g}, t.shows g = s.shows g → t.points g ≤ s.points g + 0 := by
    intro g shown
    rw [points_congr shown]
    omega
  cases g with
  | xpathSyntax => exact gone (by decide)
  | positional => exact same h.positional
  | placeholderOnly => exact gone (by decide)
  | classOnly => exact gone (by decide)
  | textOnly => exact gone (by decide)
  | deepNesting => exact same (by simp only [shows, h.depth])
  | idOnly => exact gone (by decide)
  | multipleAttributes =>
    have before := s.points_nonneg (g := .multipleAttributes) (by decide)
    have after := (t.points_between .multipleAttributes).2
    have five : max 0 (Signal.weight .multipleAttributes) = testIdChange .multipleAttributes := rfl
    omega
  | testId =>
    have before : s.points .testId = 0 := points_of_hidden (by simp [shows, css])
    have after : t.points .testId = -40 := points_of_shown h.shows_testId
    rw [before, after]
    decide
  | role => exact same (by simp only [shows, strategy, css]; rfl)
  | nameWithType =>
    have name : t.hasAttribute "name" = s.hasAttribute "name" := h.hasAttribute (by decide)
    have type : t.hasAttribute "type" = s.hasAttribute "type" := h.hasAttribute (by decide)
    exact same (by simp only [shows, name, type])
  | ariaAttribute => exact same h.ariaAttribute
  | labelAssociation =>
    have label : t.hasAttribute "for" = s.hasAttribute "for" := h.hasAttribute (by decide)
    exact same (by simp only [shows, strategy, css, label]; rfl)

theorem total_le (h : AddsTestId s t) (css : s.strategy = .css) : t.total + 35 ≤ s.total := by
  have bound := Selector.total_le (h.points_le css)
  have change : sumOver testIdChange Signal.all = -35 := by decide
  rw [sumOver_add] at bound
  unfold total at bound ⊢
  omega

/-- A selector by test id stays below the upper end. -/
theorem total_lt (h : AddsTestId s t) : t.total < 100 := by
  have most : ∀ g, t.points g ≤
      if g ∈ foreignPenalties then 0 else if g = .testId then -40 else max 0 g.weight := by
    intro g
    split
    next foreign => exact Int.le_of_eq (points_of_hidden (h.shows_eq_false foreign))
    next =>
      split
      next own =>
        subst own
        exact Int.le_of_eq (points_of_shown h.shows_testId)
      next => exact (t.points_between g).2
  have bound := Selector.total_le most
  have sum : sumOver (fun g => if g ∈ foreignPenalties then 0 else
      if g = .testId then -40 else max 0 g.weight) Signal.all = 15 := by decide
  rw [sum] at bound
  have base : baseScore = 50 := rfl
  omega

end AddsTestId

/-- What a path in place of CSS adds at least to what a signal counts: a lone id is penalized with
CSS only. -/
def pathChange : Signal → Int
  | .xpathSyntax => 40
  | .idOnly => -10
  | _ => 0

theorem points_path_le (css : s.strategy = .css) (g : Signal) :
    s.points g + pathChange g ≤ points { s with strategy := .xpath } g := by
  have same : ∀ {g}, shows { s with strategy := .xpath } g = s.shows g →
      s.points g + 0 ≤ points { s with strategy := .xpath } g := by
    intro g shown
    rw [points_congr shown]
    omega
  cases g with
  | xpathSyntax =>
    have before : s.points .xpathSyntax = 0 := points_of_hidden (by simp [shows, css])
    have after : points { s with strategy := .xpath } .xpathSyntax = 40 := points_of_shown rfl
    rw [before, after]
    decide
  | positional =>
    -- a path has more ways to pick an element by its place, and keeps those of CSS
    by_cases placed : s.shows .positional = true
    · refine same ?_
      have mark : Text.occurs positionalMark? s.raw = true := by
        simpa [shows, isPositional, css] using placed
      rw [placed]
      simp [shows, isPositional, mark]
    · have before : s.points .positional = 0 := points_of_hidden (Bool.eq_false_iff.mpr placed)
      have after := points_nonneg { s with strategy := .xpath } (g := .positional) (by decide)
      rw [before]
      exact after
  | placeholderOnly => exact same (by simp only [shows, css]; rfl)
  | classOnly => exact same (by simp [shows, css, hasId, ownAttributes, classNames])
  | textOnly => exact same (by simp only [shows, css]; rfl)
  | deepNesting => exact same rfl
  | idOnly =>
    have before := (s.points_between .idOnly).2
    have ten : max 0 (Signal.weight .idOnly) = 10 := rfl
    have after := points_nonneg { s with strategy := .xpath } (g := .idOnly) (by decide)
    have change : pathChange .idOnly = -10 := rfl
    omega
  | multipleAttributes => exact same rfl
  | testId => exact same (by simp only [shows, css]; rfl)
  | role => exact same (by simp only [shows, css]; rfl)
  | nameWithType => exact same rfl
  | ariaAttribute => exact same rfl
  | labelAssociation => exact same (by simp only [shows, css]; rfl)

theorem total_path (css : s.strategy = .css) :
    s.total + 30 ≤ total { s with strategy := .xpath } := by
  have bound := le_total (points_path_le css)
  have change : sumOver pathChange Signal.all = 30 := by decide
  rw [sumOver_add] at bound
  unfold total at bound ⊢
  omega

end Selector

/-- A selector by CSS breaks more easily than one that locates by a further test id, and less
easily than a path with the same details, as far as the scale reaches. -/
theorem score_orders_strategies {s : Selector} (css : s.strategy = .css) :
    (∀ t, Selector.AddsTestId s t → t.score < s.score) ∧
      s.score ≤ Selector.score { s with strategy := .xpath } ∧
      (s.score < Selector.score { s with strategy := .xpath } ∨
        s.score = 100 ∧ Selector.score { s with strategy := .xpath } = 100) := by
  have least := Selector.five_le_total css
  have own := s.score_eq_total
  refine ⟨?_, ?_⟩
  · intro t adds
    have after := t.score_eq_total
    have less := adds.total_le css
    have below := adds.total_lt
    omega
  · have after := Selector.score_eq_total { s with strategy := .xpath }
    have more := Selector.total_path css
    omega

/-- A field deep in a form, and the same field with a test id besides its name. -/
def namedField : Selector :=
  ⟨"locator('form > div > p > label > input[name=q]')", .css,
    [.tag "input", .attributes [("name", "q")], .depth 4]⟩

def markedField : Selector :=
  ⟨"getByTestId('query')", .testId,
    [.tag "input", .attributes [("data-testid", "query"), ("name", "q")], .depth 4]⟩

theorem score_orders_strategies_namedField :
    namedField.strategy = .css ∧ Selector.AddsTestId namedField markedField ∧
      markedField.score < namedField.score ∧
      namedField.score < Selector.score { namedField with strategy := .xpath } := by
  have adds : Selector.AddsTestId namedField markedField := by
    refine ⟨rfl, by decide +kernel, rfl, rfl, rfl, "data-testid", by decide, "query", [], ?_⟩
    exact ⟨[("name", "q")], rfl, rfl⟩
  obtain ⟨lower, -, higher⟩ := score_orders_strategies (s := namedField) rfl
  refine ⟨rfl, adds, lower markedField adds, higher.resolve_right ?_⟩
  decide +kernel

end PageObjects
