import PageObjects.Page.Basic
import PageObjects.Proofs.Locator.Canonical
import PageObjects.Proofs.Script.SelectorFirst

namespace PageObjects

open Text

/-- The call that locates by an argument, as it is written. -/
def locatorCall (arg : Text) : Text := "locator" ++ '(' :: arg ++ [')']

/-- The step that it is. -/
def locatorStep (arg : Text) : Segment := ⟨"locator", some arg⟩

/-- The arguments of a call whose first one is `first`. -/
def argumentsFrom (first : Text) : Option Text → Text
  | none => first
  | some further => first ++ ',' :: further

/-- What a call is recorded with: the text of its selector, its verb, its arguments and its page. -/
def Content.record (options : SelectorOptions) (c : Content) :
    Option Text × Option Text × List Text × Option Text :=
  ((c.assessed? options).map (·.raw), c.verb, c.arguments, c.pageVariable)

/-- A call on a page and, if the page is `page`, a line with nothing but the call have a content. -/
structure Scope.Yields (scope : Scope) (owner : List Text) (steps : List Segment) (c : Content) :
    Prop where
  call : classifyCall scope (located owner steps) = some c
  line : owner = ["page"] → ∀ line, IsLineOf (located owner steps) line →
    classifyLine scope line = (c, scope)

section Call

variable {args : Text}

theorem renderSegments_locatorStep (args : Text) :
    renderSegments [locatorStep args] = locatorCall args := by
  rw [Chain.renderSegments_cons, Chain.dotted, List.append_nil]
  rfl

theorem closes_locatorStep (closed : Balanced args) : (locatorStep args).Closes := by
  have named : isIdentifier "locator" = true := by decide
  refine ⟨named, fun arg harg => ?_⟩
  obtain rfl := Option.some.inj harg
  exact closed

theorem accessorChain?_locatorCall (closed : Balanced args) :
    accessorChain? (locatorCall args) = some ⟨[], [locatorStep (trim args)], []⟩ ∧
      withoutReceiver (locatorCall args) = locatorCall args := by
  have closes : ∀ s ∈ [locatorStep args], s.Closes :=
    List.forall_mem_singleton.mpr (closes_locatorStep closed)
  have read := accessorChain?_of_closes closes rfl
  rwa [renderSegments_locatorStep] at read

/-- A page in front of the call is left out. -/
theorem withoutReceiver_page {receiver gap : Text} (page : IsPageReceiver receiver)
    (blank : ∀ c ∈ gap, isBlank c = true) (closed : Balanced args) :
    withoutReceiver (receiver ++ (gap ++ '.' :: locatorCall args)) = locatorCall args := by
  rw [withoutReceiver, page.afterPageReceiver?_gap blank rfl]
  dsimp only
  rw [(accessorChain?_locatorCall closed).1]
  rfl

end Call

theorem isComma_of_blank {c : Char} (h : isBlank c = true) : isComma c = false := by
  refine Bool.eq_false_iff.mpr fun comma => ?_
  rw [eq_of_isComma comma] at h
  exact absurd h (by decide)

/-- The blanks around arguments belong to none of them. -/
theorem splitArguments_trim {t : Text} (settled : Settled t) :
    splitArguments (trim t) = splitArguments t := by
  obtain ⟨lead, tail, whole, front, back⟩ := exists_trim_append t
  conv => rhs; rw [whole]
  rw [splitArguments, splitArguments, List.append_assoc,
    splitTopLevel_blanks front fun c hc => isComma_of_blank (front c hc),
    settled.trim.splitTopLevel_append_blanks back fun c hc => isComma_of_blank (back c hc)]

theorem isBlank_of_mem_gapOf (blanks : Text) : ∀ c ∈ gapOf blanks, isBlank c = true := by
  intro c hc
  cases blanks with
  | nil => cases hc
  | cons b blanks =>
    obtain rfl := List.mem_singleton.mp hc
    rfl

namespace IsStringLiteral

variable {q : Text}

/-- In a call with a string literal, squeezing leaves at most a space around the squeezed one. -/
theorem exists_respaced_locatorCall (h : IsStringLiteral q) : ∃ args, Balanced args ∧
    trim args = squeeze q ∧ Neat (locatorCall args) ∧
      Respaced (locatorCall q) (locatorCall args) := by
  obtain ⟨lead, tail, whole, front, back⟩ := exists_trim_append q
  have plain : ∀ blanks, Balanced (gapOf blanks) := fun blanks =>
    balanced_of_plain fun c hc => isPlain_of_isBlank (isBlank_of_mem_gapOf blanks c hc)
  refine ⟨gapOf lead ++ squeeze q ++ gapOf tail, ?_, ?_, ?_, ?_⟩
  · exact ((plain lead).append h.closed_squeeze.balanced).append (plain tail)
  · rw [trim_append_blanks (isBlank_of_mem_gapOf tail),
      trim_append_of_blank (isBlank_of_mem_gapOf lead), h.closed_squeeze.trim_eq]
  · have word : Neat "locator" := .of_words (by decide) (others_of_any (by decide))
    have opening : Neat ['('] := .singleton rfl
    have closing : Neat [')'] := .singleton rfl
    have neat := (word.append opening).gapped lead (h.neat_squeeze.gapped tail closing)
    unfold locatorCall
    simpa using neat
  · have inner := (respaced_gapOf front).append (respaced_squeeze q)
    have args := inner.append (respaced_gapOf back)
    rw [← whole] at args
    have opening : Respaced ('(' :: q) ('(' :: _) := .cons rfl args
    have word := Respaced.refl ("locator" : Text)
    exact (word.append opening).append (.refl [')'])

section Normal

variable {t : Text}

/-- What reads as the call with the squeezed literal has the normal form of the literal. -/
theorem normalizeSelector_of_locatorCall (h : IsStringLiteral q) {args : Text}
    (closed : Balanced args) (same : trim args = squeeze q)
    (left : withoutReceiver (squeeze t) = locatorCall args) :
    normalizeSelector t = normalizeSelector q := by
  obtain ⟨value, read⟩ := h.exists_string?_squeeze
  have chain := (accessorChain?_locatorCall closed).1
  rw [same] at chain
  have arguments : (locatorStep (squeeze q)).arguments = [squeeze q] :=
    (h.closed_squeeze.isPart isComma).splitTopLevel_eq
  have lone : loneLocator? ⟨[], [locatorStep (squeeze q)], []⟩ = some value :=
    loneLocator?_eq_some_iff.mpr ⟨_, _, rfl, rfl, arguments, read⟩
  rw [← left] at chain
  rw [normalizeSelector_of_read chain, lone, normalizeSelector, read]

theorem normalizeSelector_locatorCall (h : IsStringLiteral q) :
    normalizeSelector (locatorCall q) = normalizeSelector q := by
  obtain ⟨args, closed, same, neat, respaced⟩ := h.exists_respaced_locatorCall
  refine h.normalizeSelector_of_locatorCall closed same ?_
  rw [respaced.squeeze_eq, neat.squeeze_eq, (accessorChain?_locatorCall closed).2]

theorem normalizeSelector_page (h : IsStringLiteral q) {receiver gap : Text}
    (page : IsPageReceiver receiver) (blank : ∀ c ∈ gap, isBlank c = true) :
    normalizeSelector (receiver ++ (gap ++ '.' :: locatorCall q)) = normalizeSelector q := by
  obtain ⟨args, closed, same, neat, respaced⟩ := h.exists_respaced_locatorCall
  refine h.normalizeSelector_of_locatorCall closed same ?_
  have dot : Neat ['.'] := .singleton rfl
  rw [page.neat.squeeze_gapped blank (.cons rfl respaced) (dot.append neat)]
  exact withoutReceiver_page page (isBlank_of_mem_gapOf gap) closed

end Normal

theorem trim (h : IsStringLiteral q) : IsStringLiteral (trim q) where
  read := by
    rw [Literal.string?, Literal.read?, trim_trim, ← Literal.read?, ← Literal.string?, h.read]
  single := by rw [trim_trim, h.single]
  outside := h.closed_trim.outside

theorem normalizeSelector_trim (h : IsStringLiteral q) :
    normalizeSelector (Text.trim q) = normalizeSelector q := by
  have same : squeeze (Text.trim q) = squeeze q := by
    rw [(respaced_squeeze q).squeeze_eq, h.neat_squeeze.squeeze_eq]
  rw [normalizeSelector, normalizeSelector, same]

section Arguments

variable {further : Option Text}

theorem balanced (h : IsStringLiteral q) : Balanced q := by
  obtain ⟨lead, tail, whole, front, back⟩ := exists_trim_append q
  rw [whole]
  have blank : ∀ {s : Text}, (∀ c ∈ s, isBlank c = true) → Balanced s := fun all =>
    balanced_of_plain fun c hc => isPlain_of_isBlank (all c hc)
  exact ((blank front).append h.closed_trim.balanced).append (blank back)

theorem solid (h : IsStringLiteral q) : Solid isComma q := by
  obtain ⟨lead, tail, whole, front, back⟩ := exists_trim_append q
  rw [whole]
  have blank : ∀ {s : Text}, (∀ c ∈ s, isBlank c = true) → Solid isComma s := fun all =>
    .of_plain (fun c hc => isPlain_of_isBlank (all c hc)) fun c hc => isComma_of_blank (all c hc)
  exact ((blank front).append (h.closed_trim.solid isComma)).append (blank back)

theorem balanced_argumentsFrom (h : IsStringLiteral q) (closed : ∀ args ∈ further, Balanced args) :
    Balanced (argumentsFrom q further) := by
  cases further with
  | none => exact h.balanced
  | some args =>
    have comma : Balanced [','] := balanced_of_plain (List.forall_mem_singleton.mpr isPlain_comma)
    exact h.balanced.append (comma.append (closed args rfl))

/-- The first argument is the literal, and the others follow. -/
theorem splitArguments_argumentsFrom (h : IsStringLiteral q) :
    splitArguments (argumentsFrom q further) = Text.trim q :: splitArguments (further.getD []) := by
  have filled : (Text.trim q).isEmpty = false := by simpa using h.closed_trim.filled
  cases further with
  | none =>
    rw [argumentsFrom, splitArguments, splitTopLevel, h.solid.topLevelPieces_eq, List.map_singleton,
      List.filter_cons_of_pos (by simp [filled])]
    rfl
  | some args =>
    rw [argumentsFrom, splitArguments, splitTopLevel_append h.solid rfl isPlain_comma,
      if_neg (by simp [filled])]
    rfl

end Arguments

end IsStringLiteral

/-- A call on `page` starts with the variable and ends with a bracket. -/
theorem located_page (steps : List Segment) (verb args : Text) :
    ("page." : Text) <+: located ["page"] (steps ++ [⟨verb, some args⟩]) ∧
      (located ["page"] (steps ++ [⟨verb, some args⟩])).getLast? = some ')' := by
  obtain ⟨s, rest, whole⟩ : ∃ s rest, steps ++ [(⟨verb, some args⟩ : Segment)] = s :: rest :=
    List.exists_cons_of_ne_nil (by simp)
  have page : located ["page"] (steps ++ [⟨verb, some args⟩]) =
      ("page" : Text) ++ '.' :: renderSegments (steps ++ [⟨verb, some args⟩]) := by
    rw [located, Chain.render_eq, Chain.steps, List.map_singleton, List.singleton_append, whole,
      Chain.renderSegments_cons]
    rfl
  constructor
  · rw [page]
    exact ⟨renderSegments (steps ++ [⟨verb, some args⟩]), rfl⟩
  · obtain ⟨before, ends⟩ : ∃ before, renderSegments (steps ++ [⟨verb, some args⟩]) =
        before ++ [')'] := by
      have single : renderSegments [⟨verb, some args⟩] = (verb ++ '(' :: args) ++ [')'] := by
        rw [Chain.renderSegments_cons, Chain.dotted, List.append_nil, Segment.render]
      cases steps with
      | nil => exact ⟨verb ++ '(' :: args, single⟩
      | cons s steps =>
        refine ⟨renderSegments (s :: steps) ++ '.' :: (verb ++ '(' :: args), ?_⟩
        rw [renderSegments_append (List.cons_ne_nil s steps) (List.cons_ne_nil _ []), single]
        exact (List.append_assoc (renderSegments (s :: steps))
          ('.' :: (verb ++ '(' :: args)) [')']).symm
    rw [page, ends, ← List.cons_append, ← List.append_assoc, List.getLast?_concat]

theorem Scope.yields {scope : Scope} {owner : List Text} (steps : List Segment) {verb args : Text}
    {c : Content}
    (call : classifyCall scope (located owner (steps ++ [⟨verb, some args⟩])) = some c) :
    scope.Yields owner (steps ++ [⟨verb, some args⟩]) c := by
  refine ⟨call, ?_⟩
  rintro rfl line h
  obtain ⟨start, last⟩ := located_page steps verb args
  exact classifyLine_call h start last call

/-- A content is recorded with the normal form of its selector. -/
theorem Content.record_eq {c : Content} {e : Text} (selector : c.selector = some e)
    (filled : e ≠ []) (options : SelectorOptions) :
    c.record options = (some (normalizeSelector e), c.verb, c.arguments, c.pageVariable) := by
  have kept : nonEmpty (some e) = some e := by
    rw [nonEmpty, Option.filter_some, if_pos (by simp [filled])]
  rw [record, assessed?, selector, kept, Option.map_some, Option.map_some]
  rfl

section Record

variable {q verb : Text} {scope : Scope} {owner : List Text} {page : Text} {further : Option Text}

theorem acts_of_selectorFirst (verbs : verb ∈ selectorFirstVerbs) {args : Text}
    (closed : Balanced args) : (⟨verb, some args⟩ : Segment).Acts := by
  obtain ⟨named, other, -, -, -, event⟩ := selectorFirst_spec verb verbs
  refine ⟨⟨named, fun arg harg => ?_⟩, rfl, ?_, event⟩
  · obtain rfl := Option.some.inj harg
    exact closed
  · rw [isAccessor, List.contains_eq_mem]
    exact decide_eq_false other

/-- A call that is given the literal before its other arguments is recorded with what the literal
locates. -/
theorem IsStringLiteral.exists_direct (h : IsStringLiteral q)
    (denotes : scope.Denotes owner [] page) (other : owner ≠ [("expect" : Text)])
    (verbs : verb ∈ selectorFirstVerbs) (closed : ∀ args ∈ further, Balanced args) :
    ∃ c, scope.Yields owner [⟨verb, some (argumentsFrom q further)⟩] c ∧
      ∀ options, c.record options =
        (some (normalizeSelector q), some verb, splitArguments (further.getD []), some page) := by
  have balanced := h.balanced_argumentsFrom closed
  have call : classifyCall scope (located owner ([] ++ [_])) = some _ :=
    denotes.classifyCall_eq other nofun (acts_of_selectorFirst verbs balanced)
  have taken : (⟨verb, some (Text.trim (argumentsFrom q further))⟩ : Segment).arguments =
      Text.trim q :: (⟨verb, further⟩ : Segment).arguments := by
    rw [Segment.arguments, Option.getD_some, splitArguments_trim balanced.settled,
      h.splitArguments_argumentsFrom]
    rfl
  have same := classifyAction_selectorFirst (some page) [] verbs taken
  obtain ⟨own, arguments, on, -⟩ := classifyAction_of_selector (some page) [] verbs
  refine ⟨_, Scope.yields [] (call.trans (congrArg some same)), fun options => ?_⟩
  rw [Content.record_eq rfl h.closed_trim.filled, h.normalizeSelector_trim, own, arguments, on]
  rfl

/-- The call with the other arguments is recorded alike on the locator of the literal. -/
theorem IsStringLiteral.exists_chained (h : IsStringLiteral q)
    (denotes : scope.Denotes owner [] page) (other : owner ≠ [("expect" : Text)])
    (verbs : verb ∈ selectorFirstVerbs) (closed : ∀ args ∈ further, Balanced args) :
    ∃ c, scope.Yields owner [locatorStep q, ⟨verb, some (further.getD [])⟩] c ∧
      ∀ options, c.record options =
        (some (normalizeSelector q), some verb, splitArguments (further.getD []), some page) := by
  have balanced : Balanced (further.getD []) := by
    cases further with
    | none => exact balanced_of_plain nofun
    | some args => exact closed args rfl
  have step : ∀ s ∈ [locatorStep q], s.Locates :=
    List.forall_mem_singleton.mpr ⟨closes_locatorStep h.balanced, rfl, rfl⟩
  have call := denotes.classifyCall_eq other step (acts_of_selectorFirst verbs balanced)
  have selector : selectorOf ([] ++ [locatorStep q].map Segment.trimmed) =
      some (locatorCall (Text.trim q)) :=
    congrArg some (renderSegments_locatorStep (Text.trim q))
  have action : (⟨verb, some (further.getD [])⟩ : Segment).trimmed =
      ⟨verb, some (Text.trim (further.getD []))⟩ := rfl
  rw [selector, action] at call
  obtain ⟨own, arguments, on, located⟩ :=
    classifyAction_of_selector (some page) (locatorCall (Text.trim q)) verbs
  have filled : locatorCall (Text.trim q) ≠ [] := List.append_ne_nil_of_right_ne_nil _ (by simp)
  refine ⟨_, Scope.yields [locatorStep q] call, fun options => ?_⟩
  rw [Content.record_eq located filled, h.trim.normalizeSelector_locatorCall,
    h.normalizeSelector_trim, own, arguments, on, Segment.arguments, Option.getD_some,
    splitArguments_trim balanced.settled]

end Record

/-- A string literal has the same normal form by itself, as the argument of `locator` and so behind
any page. On any page, a call that is given the literal before further arguments and the call with
these on the locator of the literal are recorded with that normal form and otherwise alike, and so
is every line that is nothing but such a call on `page`. -/
theorem string_locators_alike {q : Text} (h : IsStringLiteral q) :
    (normalizeSelector (locatorCall q) = normalizeSelector q ∧
      ∀ receiver gap, IsPageReceiver receiver → (∀ c ∈ gap, isBlank c = true) →
        normalizeSelector (receiver ++ gap ++ '.' :: locatorCall q) = normalizeSelector q) ∧
    ∀ (scope : Scope) (owner : List Text), scope.IsPage owner → owner ≠ [("expect" : Text)] →
      ∀ verb ∈ selectorFirstVerbs, ∀ further : Option Text, (∀ args ∈ further, Balanced args) →
        ∃ direct chained, scope.Yields owner [⟨verb, some (argumentsFrom q further)⟩] direct ∧
          scope.Yields owner [locatorStep q, ⟨verb, some (further.getD [])⟩] chained ∧
          ∀ options, direct.record options = (some (normalizeSelector q), some verb,
              splitArguments (further.getD []), scope.pageVariable? owner) ∧
            chained.record options = direct.record options := by
  refine ⟨⟨h.normalizeSelector_locatorCall, fun receiver gap page blank => ?_⟩, ?_⟩
  · rw [List.append_assoc]
    exact h.normalizeSelector_page page blank
  · intro scope owner page other verb verbs further closed
    obtain ⟨name, denotes⟩ := page.denotes
    obtain ⟨direct, yields, record⟩ := h.exists_direct denotes other verbs closed
    obtain ⟨chained, yields', record'⟩ := h.exists_chained denotes other verbs closed
    refine ⟨direct, chained, yields, yields', fun options => ⟨?_, ?_⟩⟩
    · rw [record, denotes.page]
    · rw [record', record]

/-- A name with wide gaps, a quote of another kind and an escaped one. -/
def spacedName : Text := " \"text=It's   \n \\\"new\\\"\" "

theorem string_locators_alike_spacedName :
    (IsStringLiteral spacedName ∧ IsPageReceiver "this.loginPage" ∧
      (∀ c ∈ [' ', '\n'], isBlank c = true) ∧ Scope.IsPage {} ["page"] ∧ Balanced " 'Ann'") ∧
    normalizeSelector spacedName = "text=It's \"new\"" ∧
    normalizeSelector (("this.loginPage" : Text) ++ [' ', '\n'] ++ '.' :: locatorCall spacedName) =
      normalizeSelector spacedName ∧
    ∃ direct chained, Scope.Yields {} ["page"]
        [⟨"fill", some (argumentsFrom spacedName (some " 'Ann'"))⟩] direct ∧
      Scope.Yields {} ["page"] [locatorStep spacedName, ⟨"fill", some " 'Ann'"⟩] chained ∧
      ∀ options, direct.record options = (some (normalizeSelector spacedName),
          some ("fill" : Text), [("'Ann'" : Text)], some ("page" : Text)) ∧
        chained.record options = direct.record options := by
  have literal : IsStringLiteral spacedName :=
    ⟨by decide +kernel, by decide +kernel, by decide +kernel⟩
  have receiver : IsPageReceiver "this.loginPage" :=
    @IsPageReceiver.field "loginPage" (by decide) (List.all_eq_true.mp (by decide))
  have blank : ∀ c ∈ [' ', '\n'], isBlank c = true := List.all_eq_true.mp (by decide)
  have page : Scope.IsPage {} ["page"] := ⟨.name (by decide) (by decide), rfl, by decide⟩
  have closed : Balanced " 'Ann'" := by decide
  obtain ⟨⟨-, behind⟩, calls⟩ := string_locators_alike literal
  have filled := calls {} ["page"] page (by decide) "fill" (by decide) (some " 'Ann'")
    fun args own => Option.some.inj own ▸ closed
  have arguments : splitArguments " 'Ann'" = [("'Ann'" : Text)] := by decide
  have name : Scope.pageVariable? {} ["page"] = some ("page" : Text) := by decide
  rw [Option.getD_some, arguments, name] at filled
  have value : normalizeSelector spacedName = "text=It's \"new\"" := by decide +kernel
  exact ⟨⟨literal, receiver, blank, page, closed⟩, value, behind _ _ receiver blank, filled⟩

end PageObjects
