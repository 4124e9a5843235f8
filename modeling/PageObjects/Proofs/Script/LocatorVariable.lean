import PageObjects.Proofs.Entries
import PageObjects.Proofs.Script.Rendering
import PageObjects.Proofs.Script.Pieces
import PageObjects.Script.Classify

namespace PageObjects

/-- Names at the start of a chain that are looked at before it is asked what they stand for. -/
def reservedNames : List Text := "expect" :: contextNames

/-- The receiver of a chain that starts from a page: a name or a field of `this`. -/
inductive IsPagePath : List Text → Prop where
  | name {p : Text} (named : isIdentifier p = true) (free : p ∉ contextNames) : IsPagePath [p]
  | field {p : Text} (named : isIdentifier p = true) (keyboard : p ≠ "keyboard")
      (mouse : p ≠ "mouse") : IsPagePath ["this", p]

/-- A page that no declaration has given another meaning. -/
structure Scope.IsPage (scope : Scope) (owner : List Text) : Prop where
  path : IsPagePath owner
  unbound : scope.binding? owner = none
  known : (scope.pageVariable? owner).isSome = true

/-- A call that locates. -/
structure Segment.Locates (s : Segment) : Prop extends s.Closes where
  call : s.isCall = true
  accessor : isAccessor s = true

/-- A call that does something with what is located. -/
structure Segment.Acts (s : Segment) : Prop extends s.Closes where
  call : s.isCall = true
  other : isAccessor s = false
  event : s.name ≠ "waitForEvent"

/-- The source form of steps behind a receiver. -/
def located (owner : List Text) (steps : List Segment) : Text := Chain.render ⟨owner, steps, []⟩

/-- The source form of an expectation. -/
def expecting (subject : Text) (matchers : List Segment) : Text :=
  located [] (⟨"expect", some subject⟩ :: matchers)

/-- A declaration of a variable by locator steps. -/
structure Declaration where
  name : Text
  steps : List Segment

structure Declaration.WellFormed (d : Declaration) : Prop where
  named : isIdentifier d.name = true
  free : d.name ∉ reservedNames
  filled : d.steps ≠ []
  locates : ∀ s ∈ d.steps, s.Locates

/-- What is known after declarations, the first by steps from `owner` on and each other by steps
from the variable before it on, and the receiver that the last of them declares. -/
def declareAll (scope : Scope) (owner : List Text) : List Declaration → Scope × List Text
  | [] => (scope, owner)
  | d :: decls =>
    declareAll (classifyAssignment scope d.name (located owner d.steps)).2 [d.name] decls

theorem isPlain_of_mem_name {name : Text} (h : isIdentifier name = true) : ∀ c ∈ name, IsPlain c :=
  fun c hc => isPlain_of_isIdentifierPart (isIdentifierPart_of_mem h c hc)

/-- A property that concatenation keeps holds of rendered steps. -/
theorem renderSegments_induction {P : Text → Prop} {steps : List Segment} (empty : P [])
    (append : ∀ s t, P s → P t → P (s ++ t)) (dot : P ['.']) (each : ∀ s ∈ steps, P s.render) :
    P (renderSegments steps) := by
  induction steps with
  | nil => exact empty
  | cons s steps ih =>
    obtain ⟨first, each⟩ := List.forall_mem_cons.mp each
    rw [Chain.renderSegments_cons]
    cases steps with
    | nil => exact append _ _ first empty
    | cons s' steps => exact append _ _ first (append ['.'] _ dot (ih each))

theorem Segment.render_call (name args : Text) : (⟨name, some args⟩ : Segment).render =
    name ++ ('(' :: args ++ [')']) := List.append_assoc _ _ _

namespace Segment.Closes

variable {s : Segment} {steps : List Segment}

theorem balanced_render (h : s.Closes) : Balanced s.render := by
  have name := balanced_of_plain (isPlain_of_mem_name h.name)
  obtain ⟨name', args⟩ := s
  cases args with
  | none => exact name
  | some args =>
    rw [render_call]
    exact name.append ((h.balanced args rfl).bracketed rfl rfl)

theorem solid_render {sep : Char → Bool} (other : ∀ c, sep c = true → isIdentifierPart c = false)
    (h : s.Closes) : Solid sep s.render := by
  have name : Solid sep s.name := by
    refine .of_plain (isPlain_of_mem_name h.name) fun c hc => Bool.eq_false_iff.mpr fun parts => ?_
    have := isIdentifierPart_of_mem h.name c hc
    rw [other c parts] at this
    cases this
  obtain ⟨name', args⟩ := s
  cases args with
  | none => exact name
  | some args =>
    rw [render_call]
    exact name.append (.bracketed rfl rfl (h.balanced args rfl))

theorem balanced_renderSegments (h : ∀ s ∈ steps, s.Closes) : Balanced (renderSegments steps) :=
  renderSegments_induction (balanced_of_plain nofun) (fun _ _ => Balanced.append)
    (balanced_of_plain (List.forall_mem_singleton.mpr ⟨rfl, rfl, rfl⟩))
    (fun s hs => (h s hs).balanced_render)

theorem solid_renderSegments {sep : Char → Bool}
    (other : ∀ c, sep c = true → isIdentifierPart c = false) (dot : sep '.' = false)
    (h : ∀ s ∈ steps, s.Closes) : Solid sep (renderSegments steps) :=
  renderSegments_induction .nil (fun _ _ => Solid.append)
    (.of_plain (List.forall_mem_singleton.mpr ⟨rfl, rfl, rfl⟩) (List.forall_mem_singleton.mpr dot))
    (fun s hs => (h s hs).solid_render other)

end Segment.Closes

theorem renderSegments_append {a b : List Segment} (ha : a ≠ []) (hb : b ≠ []) :
    renderSegments (a ++ b) = renderSegments a ++ '.' :: renderSegments b := by
  induction a with
  | nil => exact absurd rfl ha
  | cons s a ih =>
    cases a with
    | nil =>
      obtain ⟨s', b, rfl⟩ := List.exists_cons_of_ne_nil hb
      rw [List.singleton_append, Chain.renderSegments_cons, Chain.dotted,
        Chain.renderSegments_cons s [], Chain.dotted, List.append_nil]
    | cons s' a =>
      have rest := ih (List.cons_ne_nil s' a)
      rw [List.cons_append] at rest
      rw [List.cons_append, List.cons_append, Chain.renderSegments_cons, Chain.dotted, rest,
        Chain.renderSegments_cons s (s' :: a), Chain.dotted, List.append_assoc, List.cons_append]

/-- The selector that locator steps make up. -/
def selectorOf (steps : List Segment) : Option Text :=
  if steps.isEmpty then none else some (renderSegments steps)

namespace IsPagePath

variable {owner : List Text}

theorem isIdentifier_of_mem (h : IsPagePath owner) : ∀ name ∈ owner, isIdentifier name = true := by
  cases h with
  | name named => exact List.forall_mem_singleton.mpr named
  | field named =>
    exact List.forall_mem_cons.mpr ⟨by decide, List.forall_mem_singleton.mpr named⟩

theorem not_startsFromContext (h : IsPagePath owner) (segments : List Segment) (rest : Text) :
    startsFromContext ⟨owner, segments, rest⟩ = false := by
  cases h with
  | @name p named free =>
    simp only [startsFromContext, List.head?_cons, Option.any_some, List.contains_eq_mem]
    exact decide_eq_false free
  | field named => rfl

theorem not_isExpectation (h : IsPagePath owner) (other : owner ≠ [("expect" : Text)])
    (segments : List Segment) (rest : Text) : isExpectation ⟨owner, segments, rest⟩ = false := by
  rw [isExpectation, beq_false_of_ne other]
  cases h with
  | name named => rfl
  | field named => rfl

/-- A field of `this` is no input device. -/
theorem no_device (h : IsPagePath owner) : ∀ name ∈
    (if owner.length > 1 then owner.getLast? else none), name ≠ "keyboard" ∧ name ≠ "mouse" := by
  cases h with
  | name named => exact nofun
  | @field p named keyboard mouse =>
    intro name hname
    obtain rfl : p = name := Option.some.inj hname
    exact ⟨keyboard, mouse⟩

end IsPagePath

namespace IsPagePath

variable {owner : List Text} {steps : List Segment}

theorem closes_steps (h : IsPagePath owner) (closes : ∀ s ∈ steps, s.Closes) :
    ∀ s ∈ (⟨owner, steps, []⟩ : Chain).steps, s.Closes := by
  intro s hs
  rcases List.mem_append.mp hs with named | own
  · obtain ⟨name, hname, rfl⟩ := List.mem_map.mp named
    exact ⟨h.isIdentifier_of_mem name hname, nofun⟩
  · exact closes s own

theorem balanced_located (h : IsPagePath owner) (closes : ∀ s ∈ steps, s.Closes) :
    Balanced (located owner steps) := by
  rw [located, Chain.render_eq]
  exact Segment.Closes.balanced_renderSegments (h.closes_steps closes)

theorem trim_located (h : IsPagePath owner) (closes : ∀ s ∈ steps, s.Closes) :
    Text.trim (located owner steps) = located owner steps := by
  rw [located, Chain.render_eq]
  exact Chain.trim_renderSegments (h.closes_steps closes)

/-- The arguments of a call end in front of a chain or behind it. -/
theorem splitArguments_located (h : IsPagePath owner) (closes : ∀ s ∈ steps, s.Closes) :
    splitArguments (located owner steps) = [located owner steps] := by
  have all := h.closes_steps closes
  have solid : Solid isComma (located owner steps) := by
    rw [located, Chain.render_eq]
    refine Segment.Closes.solid_renderSegments (fun c comma => ?_) rfl all
    rw [isComma, beq_iff_eq] at comma
    rw [comma]
    decide
  have filled : located owner steps ≠ [] := by
    rw [located, Chain.render_eq]
    obtain ⟨s, rest, same⟩ : ∃ s rest, (⟨owner, steps, []⟩ : Chain).steps = s :: rest := by
      cases h with
      | name named => exact ⟨_, _, rfl⟩
      | field named => exact ⟨_, _, rfl⟩
    rw [same, Chain.renderSegments_cons]
    rw [same] at all
    exact List.append_ne_nil_of_left_ne_nil
      (Segment.render_ne_nil (all s List.mem_cons_self)) _
  exact splitTopLevel_of_avoids solid.whole (trim_located h closes) filled

end IsPagePath

theorem parse_located {owner : List Text} {steps : List Segment} (path : IsPagePath owner)
    (closes : ∀ s ∈ steps, s.Closes) (callFirst : ∀ s ∈ steps.head?, s.isCall = true) :
    Chain.parse (located owner steps) = ⟨owner, steps.map Segment.trimmed, []⟩ :=
  Chain.parse_render_of_closes path.isIdentifier_of_mem closes callFirst

/-- A receiver stands for a page, or for the steps `base` on that page. -/
structure Scope.Denotes (scope : Scope) (owner : List Text) (base : List Segment) (page : Text) :
    Prop where
  path : IsPagePath owner
  page : scope.pageVariable? owner = some page
  closes : ∀ s ∈ base, s.Closes
  bound : (scope.binding? owner).map (·.selector) = selectorOf base

theorem splitAccessors_append {steps others : List Segment} (locates : ∀ s ∈ steps, s.Locates)
    (stop : ∀ s ∈ others.head?, isAccessor s = false) :
    splitAccessors (steps ++ others) = (steps, others) := by
  induction steps with
  | nil =>
    cases others with
    | nil => rfl
    | cons s others => simp [splitAccessors, stop s rfl]
  | cons s steps ih =>
    obtain ⟨first, locates⟩ := List.forall_mem_cons.mp locates
    simp [splitAccessors, first.accessor, first.call, ih locates]

theorem Segment.Locates.trimmed {s : Segment} (h : s.Locates) : s.trimmed.Locates where
  toCloses := h.toCloses.wellFormed_trimmed.closes
  call := by rw [isCall_trimmed, h.call]
  accessor := h.accessor

theorem locates_trimmed {steps : List Segment} (h : ∀ s ∈ steps, s.Locates) :
    ∀ s ∈ steps.map Segment.trimmed, s.Locates := by
  intro s' hs
  obtain ⟨s, own, rfl⟩ := List.mem_map.mp hs
  exact (h s own).trimmed

/-- Nothing but an awaited event looks at the text of a call, and nothing but an input device at
its owner. -/
theorem classifyAction_eq {body : Text} {device page selector : Option Text} {action : Segment}
    (event : action.name ≠ "waitForEvent")
    (other : ∀ name ∈ device, name ≠ "keyboard" ∧ name ≠ "mouse") :
    classifyAction body device page selector action =
      classifyAction [] none page selector action := by
  have plain : ¬(device = some ("keyboard" : Text) ∨ device = some ("mouse" : Text)) := by
    rintro (same | same)
    · exact (other _ same).1 rfl
    · exact (other _ same).2 rfl
  have details : ∀ args, interactionDetails action.name body args =
      interactionDetails action.name [] args := by
    intro args
    simp only [interactionDetails, if_neg event]
  simp only [classifyAction, if_neg plain, details]
  rfl

theorem exists_last_call {steps : List Segment} (h : ∃ s ∈ steps, s.isCall = true) :
    ∃ last, (steps.filter Segment.isCall).getLast? = some last := by
  obtain ⟨s, own, call⟩ := h
  have filled : steps.filter Segment.isCall ≠ [] :=
    List.ne_nil_of_mem (List.mem_filter.mpr ⟨own, call⟩)
  exact ⟨_, List.getLast?_eq_some_getLast filled⟩

theorem calls_expect (subject : Text) (matchers : List Segment) (rest : Text) :
    Chain.calls ⟨[], ⟨"expect", some subject⟩ :: matchers, rest⟩ =
      ⟨"expect", some subject⟩ :: matchers.filter Segment.isCall := rfl

theorem lastCall?_expect {subject rest : Text} {matchers : List Segment} {last : Segment}
    (h : (matchers.filter Segment.isCall).getLast? = some last) :
    Chain.lastCall? ⟨[], ⟨"expect", some subject⟩ :: matchers, rest⟩ = some last := by
  rw [Chain.lastCall?, calls_expect, List.getLast?_cons, h]
  rfl

namespace Scope.Denotes

variable {scope : Scope} {owner : List Text} {base : List Segment} {page : Text}

theorem splitLocator_eq (h : scope.Denotes owner base page) {steps others : List Segment}
    {rest : Text} (locates : ∀ s ∈ steps, s.Locates)
    (stop : ∀ s ∈ others.head?, isAccessor s = false) :
    splitLocator scope ⟨owner, steps ++ others, rest⟩ = (selectorOf (base ++ steps), others) := by
  have kept : ((scope.binding? owner).map (·.selector)).filter (fun t => !t.isEmpty) =
      selectorOf base := by
    rw [h.bound, selectorOf]
    cases base with
    | nil => rfl
    | cons s base =>
      have filled : renderSegments (s :: base) ≠ [] := by
        rw [Chain.renderSegments_cons]
        exact List.append_ne_nil_of_left_ne_nil
          (Segment.render_ne_nil (h.closes s List.mem_cons_self)) _
      simp [filled]
  rw [splitLocator, splitAccessors_append locates stop]
  dsimp only
  rw [kept]
  cases base with
  | nil =>
    cases steps with
    | nil => rfl
    | cons s steps => simp [selectorOf, Text.joinWith]
  | cons b base =>
    cases steps with
    | nil => simp [selectorOf, Text.joinWith]
    | cons s steps =>
      have both := renderSegments_append (List.cons_ne_nil b base) (List.cons_ne_nil s steps)
      simp only [selectorOf, List.isEmpty_cons, Bool.false_eq_true, if_false, Option.toList_some,
        List.cons_append, List.nil_append] at both ⊢
      rw [both]
      simp [Text.joinWith]

theorem splitLocator_located (h : scope.Denotes owner base page) {steps : List Segment}
    (locates : ∀ s ∈ steps, s.Locates) :
    splitLocator scope ⟨owner, steps.map Segment.trimmed, []⟩ =
      (selectorOf (base ++ steps.map Segment.trimmed), []) := by
  have split := @splitLocator_eq _ _ _ _ h _ [] [] (locates_trimmed locates) nofun
  rwa [List.append_nil] at split

/-- What a call does is told by the steps that its receiver stands for. -/
theorem classifyCall_eq (h : scope.Denotes owner base page) (other : owner ≠ [("expect" : Text)])
    {steps : List Segment} {action : Segment} (locates : ∀ s ∈ steps, s.Locates)
    (acts : action.Acts) :
    classifyCall scope (located owner (steps ++ [action])) = some (classifyAction [] none (some page)
      (selectorOf (base ++ steps.map Segment.trimmed)) action.trimmed) := by
  have calls : ∀ s ∈ steps ++ [action], s.Closes ∧ s.isCall = true := by
    intro s hs
    rcases List.mem_append.mp hs with own | last
    · exact ⟨(locates s own).toCloses, (locates s own).call⟩
    · exact List.mem_singleton.mp last ▸ ⟨acts.toCloses, acts.call⟩
  have parsed := parse_located h.path (fun s hs => (calls s hs).1)
    (fun s hs => (calls s (List.mem_of_mem_head? hs)).2)
  rw [List.map_append, List.map_singleton] at parsed
  have stop : ∀ s ∈ [action.trimmed].head?, isAccessor s = false := by
    intro s hs
    obtain rfl := Option.some.inj hs
    exact acts.other
  have split : splitLocator scope ⟨owner, steps.map Segment.trimmed ++ [action.trimmed], []⟩ = _ :=
    h.splitLocator_eq (locates_trimmed locates) stop
  have last : [action.trimmed].filter Segment.isCall = [action.trimmed] := by
    simp [acts.call]
  have event : action.trimmed.name ≠ "waitForEvent" := acts.event
  simp only [classifyCall, parsed]
  rw [h.path.not_isExpectation other, h.path.not_startsFromContext, split, h.page]
  simp only [last]
  simp only [List.isEmpty_iff, List.append_eq_nil_iff, List.cons_ne_self, and_false, if_false,
    Bool.false_eq_true, Option.isNone_some, Bool.false_and, List.getLast?_singleton]
  rw [classifyAction_eq event h.path.no_device]

theorem classifyAssertion_eq (h : scope.Denotes owner base page) {steps matchers : List Segment}
    (locates : ∀ s ∈ steps, s.Locates) (matched : ∃ s ∈ matchers, s.isCall = true) :
    classifyAssertion scope ⟨[], ⟨"expect", some (located owner steps)⟩ :: matchers, []⟩ =
      { classifyAssertion {} ⟨[], ⟨"expect", some []⟩ :: matchers, []⟩ with
        selector := selectorOf (base ++ steps.map Segment.trimmed), pageVariable := some page } := by
  have closes : ∀ s ∈ steps, s.Closes := fun s hs => (locates s hs).toCloses
  have subject : splitArguments (located owner steps) = [located owner steps] :=
    h.path.splitArguments_located closes
  have parsed := parse_located h.path closes
    (fun s hs => (locates s (List.mem_of_mem_head? hs)).call)
  have split := h.splitLocator_located locates
  have bound : (scope.binding? owner).isSome = !base.isEmpty := by
    have same := congrArg Option.isSome h.bound
    rw [Option.isSome_map] at same
    rw [same, selectorOf]
    cases base with
    | nil => rfl
    | cons s base => rfl
  have selector : (if ((scope.binding? owner).isSome ||
        ((some page).isSome && !(steps.map Segment.trimmed).isEmpty)) = true
      then selectorOf (base ++ steps.map Segment.trimmed) else none) =
        selectorOf (base ++ steps.map Segment.trimmed) := by
    rw [bound]
    cases base with
    | nil =>
      cases steps with
      | nil => rfl
      | cons s steps => rfl
    | cons s base => rfl
  obtain ⟨last, hlast⟩ := exists_last_call matched
  simp only [classifyAssertion, calls_expect, lastCall?_expect hlast, List.head?_cons,
    Option.map_some, Segment.arguments, Option.getD_some, subject, List.headD_cons, parsed, split,
    h.page, selector]
  rfl

/-- What an expectation says is told by the steps that its subject stands for. -/
theorem classifyCall_expecting (h : scope.Denotes owner base page) {steps matchers : List Segment}
    (locates : ∀ s ∈ steps, s.Locates) (closes : ∀ s ∈ matchers, s.Closes)
    (matched : ∃ s ∈ matchers, s.isCall = true) :
    classifyCall scope (expecting (located owner steps) matchers) = some
      { classifyAssertion {} ⟨[], ⟨"expect", some []⟩ :: matchers.map Segment.trimmed, []⟩ with
        selector := selectorOf (base ++ steps.map Segment.trimmed), pageVariable := some page } := by
  have own : ∀ s ∈ steps, s.Closes := fun s hs => (locates s hs).toCloses
  have named : isIdentifier "expect" = true := by decide
  have all : ∀ s ∈ ⟨"expect", some (located owner steps)⟩ :: matchers, s.Closes := by
    refine List.forall_mem_cons.mpr ⟨⟨named, ?_⟩, closes⟩
    intro args hargs
    obtain rfl := Option.some.inj hargs
    exact h.path.balanced_located own
  have callFirst : ∀ s ∈ (⟨"expect", some (located owner steps)⟩ :: matchers).head?,
      s.isCall = true := by
    intro s hs
    obtain rfl := Option.some.inj hs
    rfl
  have parsed : Chain.parse (expecting (located owner steps) matchers) = _ :=
    Chain.parse_render_of_closes nofun all callFirst
  have subject : (⟨"expect", some (located owner steps)⟩ : Segment).trimmed =
      ⟨"expect", some (located owner steps)⟩ := by
    rw [Segment.trimmed, Option.map_some, h.path.trim_located own]
  rw [List.map_cons, subject] at parsed
  obtain ⟨s, among, call⟩ := matched
  have kept : ∃ s ∈ matchers.map Segment.trimmed, s.isCall = true :=
    ⟨s.trimmed, List.mem_map_of_mem among, by rw [Segment.isCall_trimmed, call]⟩
  rw [classifyCall, parsed, ← h.classifyAssertion_eq locates kept]
  rfl

end Scope.Denotes

/-- A name in front of a dot is read up to that dot only. -/
theorem eq_of_prefix_dot {lead name rest behind : Text} {c : Char}
    (parts : ∀ d ∈ lead, isIdentifierPart d = true) (named : ∀ d ∈ name, isIdentifierPart d = true)
    (stop : isIdentifierPart c = false) (h : lead ++ c :: rest <+: name ++ '.' :: behind) :
    lead = name ∧ c = '.' ∧ rest <+: behind := by
  induction lead generalizing name with
  | nil =>
    cases name with
    | nil => simpa [List.cons_prefix_cons] using h
    | cons d name =>
      have same : c = d := (List.cons_prefix_cons.mp h).1
      rw [same, named d List.mem_cons_self] at stop
      cases stop
  | cons d lead ih =>
    obtain ⟨first, parts⟩ := List.forall_mem_cons.mp parts
    cases name with
    | nil =>
      have same : d = '.' := (List.cons_prefix_cons.mp h).1
      rw [same] at first
      exact absurd first (by decide)
    | cons e name =>
      rw [List.cons_append, List.cons_append, List.cons_prefix_cons] at h
      obtain ⟨rfl, h⟩ := h
      obtain ⟨-, named⟩ := List.forall_mem_cons.mp named
      obtain ⟨rfl, rest⟩ := ih parts named h
      exact ⟨rfl, rest⟩

/-- No locator is the function that awaits several promises. -/
theorem not_all_prefix {s : Segment} (h : isAccessor s = true) (rest : Text) :
    ¬("all" : Text) <+: s.name ++ rest := by
  have names : ∀ name ∈ locatorAccessors, 2 ≤ name.length ∧ name.take 2 ≠ ['a', 'l'] := by decide
  obtain ⟨long, other⟩ := names s.name (by simpa [isAccessor] using h)
  intro all
  have start := List.prefix_iff_eq_take.mp ((List.take_prefix 2 "all".toList).trans all)
  rw [← List.take_append_of_le_length long] at other
  exact other start.symm

theorem IsPagePath.located_eq {owner : List Text} (h : IsPagePath owner) {steps : List Segment}
    (locates : ∀ s ∈ steps, s.Locates) (filled : steps ≠ []) :
    ∃ first rest, isIdentifier first = true ∧ located owner steps = first ++ '.' :: rest ∧
      (first = "Promise" → ¬("all" : Text) <+: rest) := by
  obtain ⟨s, steps, rfl⟩ := List.exists_cons_of_ne_nil filled
  obtain ⟨first, -⟩ := List.forall_mem_cons.mp locates
  rw [located, Chain.render_eq]
  cases h with
  | @name p named free =>
    refine ⟨p, renderSegments (s :: steps), named, ?_, fun _ => ?_⟩
    · rw [Chain.steps, List.map_singleton, List.singleton_append, Chain.renderSegments_cons]
      rfl
    · obtain ⟨args, call⟩ := Option.isSome_iff_exists.mp first.call
      have step : s.render = s.name ++ ('(' :: args ++ [')']) := by
        rw [← Segment.render_call, ← call]
      rw [Chain.renderSegments_cons, step, List.append_assoc]
      exact not_all_prefix first.accessor _
  | @field p named =>
    refine ⟨"this", renderSegments (⟨p, none⟩ :: s :: steps), by decide, ?_, ?_⟩
    · rw [Chain.steps, List.map_cons, List.map_singleton, List.cons_append, List.singleton_append,
        Chain.renderSegments_cons]
      rfl
    · intro same
      exact absurd same (by decide)

theorem not_prefix_word {lead first rest : Text} (named : isIdentifier first = true)
    (parts : ∀ d ∈ lead, isIdentifierPart d = true) :
    Text.dropPrefix? (lead ++ [' ']) (first ++ '.' :: rest) = none := by
  have other : (lead ++ [' ']).isPrefixOf (first ++ '.' :: rest) = false := by
    refine Bool.eq_false_iff.mpr fun start => ?_
    obtain ⟨-, space, -⟩ := eq_of_prefix_dot parts (isIdentifierPart_of_mem named)
      (by decide) (List.isPrefixOf_iff_prefix.mp start)
    exact absurd space (by decide)
  rw [Text.dropPrefix?, other]
  rfl

theorem stripPrefixes_located {owner : List Text} (path : IsPagePath owner) {steps : List Segment}
    (locates : ∀ s ∈ steps, s.Locates) (filled : steps ≠ []) :
    stripPrefixes (located owner steps) = located owner steps := by
  obtain ⟨first, rest, named, whole, -⟩ := path.located_eq locates filled
  have closes : ∀ s ∈ steps, s.Closes := fun s hs => (locates s hs).toCloses
  have bare : Text.dropEndWhile (· == ';') (located owner steps) = located owner steps := by
    have part : ∀ c, isIdentifierPart c = true → (c == ';') = false := by
      intro c hc
      refine beq_false_of_ne ?_
      rintro rfl
      exact absurd hc (by decide)
    have back := Chain.back_renderSegments part rfl (path.closes_steps closes)
    rw [← Chain.render_eq] at back
    rw [Text.dropEndWhile_eq_rdropWhile, List.rdropWhile_eq_self_iff]
    intro filled
    exact Bool.eq_false_iff.mp (back _ (List.getLast?_eq_some_getLast filled))
  have noReturn : Text.dropPrefix? "return " (located owner steps) = none := by
    rw [whole]
    exact @not_prefix_word "return" _ _ named (isIdentifierPart_of_mem (by decide))
  have noAwait : Text.dropPrefix? "await " (located owner steps) = none := by
    rw [whole]
    exact @not_prefix_word "await" _ _ named (isIdentifierPart_of_mem (by decide))
  simp only [stripPrefixes, path.trim_located closes, bare, noReturn, noAwait]

theorem not_joint_located {owner : List Text} (path : IsPagePath owner) {steps : List Segment}
    (locates : ∀ s ∈ steps, s.Locates) (filled : steps ≠ []) :
    List.isPrefixOf "Promise.all" (located owner steps) = false := by
  obtain ⟨first, rest, named, whole, other⟩ := path.located_eq locates filled
  refine Bool.eq_false_iff.mpr fun start => ?_
  rw [whole] at start
  obtain ⟨same, -, all⟩ := @eq_of_prefix_dot "Promise" first "all" rest '.'
    (isIdentifierPart_of_mem (by decide)) (isIdentifierPart_of_mem named)
    (by decide) (List.isPrefixOf_iff_prefix.mp start)
  exact other same.symm all

theorem not_pattern_name {name : Text} (h : isIdentifier name = true) :
    (name.head? == some '[' || name.head? == some '\x7b') = false := by
  obtain ⟨c, r, rfl⟩ := exists_cons_of_isIdentifier h
  have part := isIdentifierPart_of_mem h c List.mem_cons_self
  have square : c ≠ '[' := by
    rintro rfl
    exact absurd part (by decide)
  have curly : c ≠ '\x7b' := by
    rintro rfl
    exact absurd part (by decide)
  simp [square, curly]

namespace Scope.Denotes

variable {scope : Scope} {owner : List Text} {base : List Segment} {page : Text}

/-- A declared variable stands for the steps that its receiver stands for and the declared ones. -/
theorem denotes_of_wellFormed (h : scope.Denotes owner base page) {d : Declaration}
    (formed : d.WellFormed) :
    (classifyAssignment scope d.name (located owner d.steps)).2.Denotes [d.name]
      (base ++ d.steps.map Segment.trimmed) page := by
  obtain ⟨name, steps⟩ := d
  obtain ⟨named, free, filled, locates⟩ := formed
  have closes : ∀ s ∈ steps, s.Closes := fun s hs => (locates s hs).toCloses
  have parsed := parse_located h.path closes
    (fun s hs => (locates s (List.mem_of_mem_head? hs)).call)
  have declared : isDeclaration scope ⟨owner, steps.map Segment.trimmed, []⟩ = true := by
    have accessors : (steps.map Segment.trimmed).all isAccessor = true :=
      List.all_eq_true.mpr fun s hs => (locates_trimmed locates s hs).accessor
    simp [isDeclaration, h.page, filled, accessors]
  have split := h.splitLocator_located locates
  have selector : selectorOf (base ++ steps.map Segment.trimmed) =
      some (renderSegments (base ++ steps.map Segment.trimmed)) := by
    simp [selectorOf, filled]
  have after : (classifyAssignment scope name (located owner steps)).2 =
      scope.bind name ⟨renderSegments (base ++ steps.map Segment.trimmed), some page⟩ := by
    rw [classifyAssignment, stripPrefixes_located h.path locates filled]
    simp only [not_joint_located h.path locates filled, parsed, declared, split, selector, h.page,
      h.path.not_startsFromContext, not_pattern_name named, Bool.false_eq_true, if_false, if_true]
  have found : valueAt? name (scope.bind name
      ⟨renderSegments (base ++ steps.map Segment.trimmed), some page⟩).bindings =
        some ⟨renderSegments (base ++ steps.map Segment.trimmed), some page⟩ :=
    valueAt?_setEntry_self _ _ _
  rw [after]
  have plain : name ∉ contextNames := fun own => free (List.mem_cons_of_mem _ own)
  refine ⟨.name named plain, ?_, ?_, ?_⟩
  · simp only [pageVariable?, receiverName?, found]
  · intro s hs
    rcases List.mem_append.mp hs with before | own
    · exact h.closes s before
    · exact (locates_trimmed locates s own).toCloses
  · rw [binding?, receiverName?, Option.bind_some, found, selector]
    rfl

/-- The last of several declared variables stands for all the steps that were declared. -/
theorem declareAll (h : scope.Denotes owner base page) {decls : List Declaration}
    (formed : ∀ d ∈ decls, d.WellFormed) : (PageObjects.declareAll scope owner decls).1.Denotes
      (PageObjects.declareAll scope owner decls).2
      (base ++ (decls.flatMap Declaration.steps).map Segment.trimmed) page := by
  induction decls generalizing scope owner base with
  | nil => simpa [PageObjects.declareAll] using h
  | cons d decls ih =>
    obtain ⟨first, formed⟩ := List.forall_mem_cons.mp formed
    have rest := ih (h.denotes_of_wellFormed first) formed
    rw [PageObjects.declareAll, List.flatMap_cons, List.map_append, ← List.append_assoc]
    exact rest

end Scope.Denotes

theorem declareAll_ne_expect {scope : Scope} {owner : List Text} {decls : List Declaration}
    (other : owner ≠ [("expect" : Text)]) (formed : ∀ d ∈ decls, d.WellFormed) :
    (declareAll scope owner decls).2 ≠ [("expect" : Text)] := by
  induction decls generalizing scope owner with
  | nil => exact other
  | cons d decls ih =>
    obtain ⟨first, formed⟩ := List.forall_mem_cons.mp formed
    rw [declareAll]
    refine ih ?_ formed
    intro same
    have name : d.name = "expect" := (List.cons.inj same).1
    exact first.free (List.mem_cons.mpr (.inl name))

theorem Scope.IsPage.denotes {scope : Scope} {owner : List Text} (h : scope.IsPage owner) :
    ∃ page, scope.Denotes owner [] page := by
  obtain ⟨page, known⟩ := Option.isSome_iff_exists.mp h.known
  refine ⟨page, h.path, known, nofun, ?_⟩
  rw [h.unbound]
  rfl

/-- After any chain of declarations from a page on, a call on the last variable does what the call
on the page does that has all declared steps written out, and an expectation of the one says what
the expectation of the other does. -/
theorem locator_variables_inline {scope : Scope} {owner : List Text} (page : scope.IsPage owner)
    {decls : List Declaration} (formed : ∀ d ∈ decls, d.WellFormed) {steps : List Segment}
    (locates : ∀ s ∈ steps, s.Locates) :
    let after := declareAll scope owner decls
    let inlined := decls.flatMap Declaration.steps ++ steps
    (owner ≠ [("expect" : Text)] → ∀ action : Segment, action.Acts → ∃ content,
      classifyCall after.1 (located after.2 (steps ++ [action])) = some content ∧
        classifyCall scope (located owner (inlined ++ [action])) = some content) ∧
    ∀ matchers : List Segment, (∀ s ∈ matchers, s.Closes) → (∃ s ∈ matchers, s.isCall = true) →
      ∃ content, classifyCall after.1 (expecting (located after.2 steps) matchers) = some content ∧
        classifyCall scope (expecting (located owner inlined) matchers) = some content := by
  intro after inlined
  obtain ⟨name, start⟩ := page.denotes
  have declared := start.declareAll formed
  have all : ∀ s ∈ inlined, s.Locates := by
    intro s hs
    rcases List.mem_append.mp hs with before | own
    · obtain ⟨d, hd, among⟩ := List.mem_flatMap.mp before
      exact (formed d hd).locates s among
    · exact locates s own
  have same : ([] ++ (decls.flatMap Declaration.steps).map Segment.trimmed) ++
      steps.map Segment.trimmed = [] ++ inlined.map Segment.trimmed := by
    rw [List.map_append, List.append_assoc]
  constructor
  · intro other action acts
    have short := declared.classifyCall_eq (declareAll_ne_expect other formed) locates acts
    rw [same] at short
    exact ⟨_, short, start.classifyCall_eq other all acts⟩
  · intro matchers closes matched
    have short := declared.classifyCall_expecting locates closes matched
    rw [same] at short
    exact ⟨_, short, start.classifyCall_expecting all closes matched⟩

/-- A table and its rows, each a variable of its own. -/
def rowDeclarations : List Declaration := [
  ⟨"orders", [⟨"locator", some "'#orders'"⟩]⟩,
  ⟨"row", [⟨"getByRole", some "'row', \x7b name: 'open' \x7d"⟩, ⟨"first", some []⟩]⟩]

/-- What is known after them, and the receiver of the row. -/
def afterRows : Scope × List Text := declareAll {} ["page"] rowDeclarations

theorem locator_variables_inline_row :
    Scope.IsPage {} ["page"] ∧ (∀ d ∈ rowDeclarations, d.WellFormed) ∧
      (∃ content, classifyCall afterRows.1 (located afterRows.2
          [⟨"getByText", some "'Ship'"⟩, ⟨"click", some []⟩]) = some content ∧
        classifyCall {} (located ["page"] (rowDeclarations.flatMap Declaration.steps ++
          [⟨"getByText", some "'Ship'"⟩] ++ [⟨"click", some []⟩])) = some content) ∧
      ∃ content, classifyCall afterRows.1 (expecting (located afterRows.2 [])
          [⟨"not", none⟩, ⟨"toHaveText", some "'Sent'"⟩]) = some content ∧
        classifyCall {} (expecting (located ["page"]
          (rowDeclarations.flatMap Declaration.steps ++ []))
          [⟨"not", none⟩, ⟨"toHaveText", some "'Sent'"⟩]) = some content := by
  have page : Scope.IsPage {} ["page"] :=
    ⟨.name (by decide) (by decide), rfl, by decide⟩
  have formed : ∀ d ∈ rowDeclarations, d.WellFormed := by
    have locates : ∀ d ∈ rowDeclarations, ∀ s ∈ d.steps,
        s.Closes ∧ s.isCall = true ∧ isAccessor s = true := by decide
    have names : ∀ d ∈ rowDeclarations, isIdentifier d.name = true ∧ d.name ∉ reservedNames ∧
        d.steps ≠ [] := by decide
    intro d hd
    obtain ⟨named, free, filled⟩ := names d hd
    refine ⟨named, free, filled, fun s hs => ?_⟩
    obtain ⟨closes, call, accessor⟩ := locates d hd s hs
    exact ⟨closes, call, accessor⟩
  have text : ∀ s ∈ [(⟨"getByText", some "'Ship'"⟩ : Segment)], s.Locates :=
    List.forall_mem_singleton.mpr ⟨by decide, rfl, by decide⟩
  have click : Segment.Acts ⟨"click", some []⟩ := ⟨by decide, rfl, by decide, by decide⟩
  have matchers : ∀ s ∈ [(⟨"not", none⟩ : Segment), ⟨"toHaveText", some "'Sent'"⟩], s.Closes := by
    decide
  have matched : ∃ s ∈ [(⟨"not", none⟩ : Segment), ⟨"toHaveText", some "'Sent'"⟩],
      s.isCall = true := ⟨⟨"toHaveText", some "'Sent'"⟩, by simp, rfl⟩
  exact ⟨page, formed, (locator_variables_inline page formed text).1 (by decide) _ click,
    (@locator_variables_inline _ _ page _ formed [] nofun).2 _ matchers matched⟩

/-- The selectors of a click and of an expectation on a variable that a page with the given name
declares, and of those that have the declared locator written out. -/
def selectorPairs (name : Text) : List (Option Text × Option Text) :=
  let scope := Scope.addPage {} name
  let locator : List Segment := [⟨"locator", some "'#a'"⟩]
  let after := declareAll scope [name] [⟨"x", locator⟩]
  let selector (scope : Scope) (call : Text) := (classifyCall scope call).bind (·.selector)
  [(selector after.1 (located after.2 [⟨"click", some []⟩]),
      selector scope (located [name] (locator ++ [⟨"click", some []⟩]))),
    (selector after.1 (expecting (located after.2 []) [⟨"toBeVisible", some []⟩]),
      selector scope (expecting (located [name] locator) [⟨"toBeVisible", some []⟩]))]

/-- A page may have a reserved name, but what is called on it is then taken for an expectation, and
what is declared from it for work on a context. -/
theorem reserved_pages_not_inlined :
    (reservedNames.all fun name => isIdentifier name &&
      (Scope.pageVariable? (Scope.addPage {} name) [name]).isSome &&
      (Scope.binding? (Scope.addPage {} name) [name]).isNone) = true ∧
    let written : Option Text := some "locator('#a')"
    selectorPairs "expect" = [(written, none), (written, written)] ∧
      selectorPairs "context" = [(none, none), (none, written)] ∧
      selectorPairs "browserContext" = [(none, none), (none, written)] := by
  decide +kernel

end PageObjects
