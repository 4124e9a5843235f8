import PageObjects.Proofs.Locator.Canonical
import PageObjects.Proofs.Locator.Position
import PageObjects.Proofs.Script.StringLiteral

namespace PageObjects

open Text

/-- A call with its arguments. -/
def callStep (name : Text) (args : List Text) : Segment := ⟨name, some (joinWith [',', ' '] args)⟩

/-- An argument that stands for itself. -/
structure IsArgument (arg : Text) : Prop where
  part : IsPart isComma arg
  neat : Neat arg
  balanced : Balanced arg

/-- A call of an accessor with such arguments. -/
structure IsCall (name : Text) (args : List Text) : Prop where
  accessor : name ∈ locatorAccessors
  filled : args ≠ []
  arguments : ∀ arg ∈ args, IsArgument arg

namespace IsCall

variable {name t : Text} {args : List Text}

theorem arguments_eq (h : IsCall name args) : (callStep name args).arguments = args :=
  splitArguments_joinWith fun arg harg => (h.arguments arg harg).part

theorem neat_joinWith (h : IsCall name args) : Neat (joinWith [',', ' '] args) :=
  neat_joinWith_comma h.filled fun arg harg => (h.arguments arg harg).neat

theorem wellFormed (h : IsCall name args) : (callStep name args).WellFormed := by
  obtain ⟨named, -⟩ := accessor_spec name h.accessor
  have closed : Balanced (joinWith [',', ' '] args) :=
    balanced_joinWith fun arg harg => (h.arguments arg harg).balanced
  refine ⟨named, fun args' ha => ?_, fun args' ha => ?_⟩
  · obtain rfl := Option.some.inj ha
    exact h.neat_joinWith.trim_eq
  · obtain rfl := Option.some.inj ha
    exact closed

theorem neat (h : IsCall name args) : Neat (callStep name args).render := by
  obtain ⟨-, filled, -, -, word⟩ := accessor_spec name h.accessor
  have front : Neat name :=
    .of_words filled fun c hc => isBlank_of_isWord (List.all_eq_true.mp word c hc)
  have opened : Neat ['('] := .singleton rfl
  have closed : Neat [')'] := .singleton rfl
  have apart : (callStep name args).render =
      (name ++ (['('] ++ joinWith [',', ' '] args)) ++ [')'] := rfl
  rw [apart]
  exact (front.append (opened.append h.neat_joinWith)).append closed

theorem accessorChain?_eq (h : IsCall name args) :
    accessorChain? (callStep name args).render = some ⟨[], [callStep name args], []⟩ ∧
      withoutReceiver (callStep name args).render = (callStep name args).render := by
  have formed : ∀ s ∈ [callStep name args], s.WellFormed :=
    List.forall_mem_singleton.mpr h.wellFormed
  have first : [callStep name args].head?.any (fun s => isAccessor s && s.isCall) = true :=
    Bool.and_eq_true_iff.mpr ⟨List.contains_iff_mem.mpr h.accessor, rfl⟩
  have read := accessorChain?_renderSegments formed first
  rwa [Chain.renderSegments_cons, Chain.dotted, List.append_nil] at read

/-- The normal form of a call is made of the normal forms of its arguments. -/
theorem normalizeSelector_eq (h : IsCall name args) (other : name ≠ "locator")
    (same : squeeze t = (callStep name args).render) :
    normalizeSelector t = (callStep name (args.map normalizeValue)).render := by
  obtain ⟨read, bare⟩ := h.accessorChain?_eq
  have chain : accessorChain? (withoutReceiver (squeeze t)) =
      some ⟨[], [callStep name args], []⟩ := by
    rw [same, bare, read]
  have lone : loneLocator? ⟨[], [callStep name args], []⟩ = none := if_neg other
  have step : (callStep name args).normalize = callStep name (args.map normalizeValue) := by
    have parts := h.arguments_eq
    rw [Segment.arguments, callStep, Option.getD_some] at parts
    rw [Segment.normalize, callStep, Option.map_some, parts, ← callStep]
  rw [PageObjects.normalizeSelector_eq chain lone, List.map_singleton, step,
    Chain.renderSegments_cons, Chain.dotted, List.append_nil]

theorem ofNormal_eq (h : IsCall name args) : Selector.ofNormal (callStep name args).render =
    ⟨(callStep name args).render, (Chain.classify ⟨[], [callStep name args], []⟩).1,
      (Chain.classify ⟨[], [callStep name args], []⟩).2⟩ := by
  rw [Selector.ofNormal, h.accessorChain?_eq.1]

/-- The string that a call is given first. -/
theorem firstString?_eq {arg value : Text} (h : IsCall name (arg :: args))
    (read : Literal.string? arg = some value) :
    (callStep name (arg :: args)).firstString? = some value := by
  rw [Segment.firstString?, h.arguments_eq, List.head?_cons, Option.bind_some, read]

end IsCall

/-- The option that gives an accessible name. -/
def nameEntry (content : Text) : Text := "name" ++ ':' :: ' ' :: quote content

def nameOptions (content : Text) : Text := objectText [nameEntry content]

/-- A text that is read as it was when it is quoted, and that picks no element by its place. -/
structure IsQuotable (v : Text) : Prop where
  spaced : IsSpaced v
  read : Literal.string? (quote v) = some v
  placeless : IsPlaceless v

section Argument

variable {content v : Text}

theorem isArgument_quote (spaced : IsSpaced v) : IsArgument (quote v) where
  part := isPart_quote (neat_quote spaced)
  neat := neat_quote spaced
  balanced := balanced_iff.mpr ⟨settled_quote v, avoids_quote _ 0 v⟩

theorem isArgument_nameEntry (spaced : IsSpaced content) : IsArgument (nameEntry content) := by
  obtain ⟨part, neat, closed⟩ := isArgument_quote spaced
  have lead : Neat "name:" := .of_words (by decide) (others_of_any (by decide))
  have neat : Neat (nameEntry content) := lead.spaced neat
  have plain : ∀ c ∈ ("name: " : Text), IsPlain c ∧ isComma c = false := by
    have each : ("name: " : Text).all
        (fun c => !isQuote c && !isOpener c && !isCloser c && !isComma c) = true := by decide
    intro c hc
    have own := List.all_eq_true.mp each c hc
    simp only [Bool.and_eq_true, Bool.not_eq_true'] at own
    exact ⟨⟨own.1.1.1, own.1.1.2, own.1.2⟩, own.2⟩
  have front : Solid isComma "name: " :=
    .of_plain (fun c hc => (plain c hc).1) fun c hc => (plain c hc).2
  have balanced : Balanced "name: " := balanced_of_plain fun c hc => (plain c hc).1
  exact ⟨⟨front.append part.toSolid, neat.trim_eq, neat.filled⟩, neat, balanced.append closed⟩

theorem isArgument_nameOptions (spaced : IsSpaced content) : IsArgument (nameOptions content) := by
  obtain ⟨-, neat, closed⟩ := isArgument_nameEntry spaced
  have neat : Neat (nameOptions content) := neat_objectText (List.forall_mem_singleton.mpr neat)
  have space : Balanced [' '] := by decide
  have inside : Balanced (objectInside [nameEntry content]) := by
    rw [objectInside, joinWith_singleton]
    exact (space.append closed).append space
  exact ⟨⟨.bracketed rfl rfl inside, neat.trim_eq, neat.filled⟩, neat, inside.bracketed rfl rfl⟩

theorem isPart_name : IsPart isColon "name" := by
  have inert : ("name" : Text).all (fun c => decide (IsInert c)) = true := by decide
  have own : ∀ c ∈ ("name" : Text), IsInert c := fun c hc =>
    of_decide_eq_true (List.all_eq_true.mp inert c hc)
  have solid : Solid isColon "name" :=
    .of_plain (fun c hc => (own c hc).toIsPlain) fun c hc => (own c hc).colon
  exact ⟨solid, by decide, by decide⟩

theorem normalizeValue_nameOptions (name : IsQuotable content) :
    normalizeValue (nameOptions content) = nameOptions content := by
  obtain ⟨part, neat, -⟩ := isArgument_nameEntry name.spaced
  have bare : bareKey "name" = "name" := by decide
  have value : IsPart isColon (quote content) := isPart_quote (neat_quote name.spaced)
  have stable := normalizeValue_quote name.spaced name.read
  refine normalizeValue_objectText (List.forall_mem_singleton.mpr ⟨part, neat⟩)
    (List.forall_mem_singleton.mpr ?_)
  refine normalizeEntry_option isPart_name bare value.filled ?_ stable
  rw [value.splitTopLevel_eq, joinWith_singleton]

theorem entryParts?_nameEntry (spaced : IsSpaced content) :
    Literal.entryParts? (nameEntry content) = some (("name" : Text), quote content) :=
  entryParts?_entryText isPart_name (by decide) (isPart_quote (neat_quote spaced))

/-- The name is the only option, and it is read as it was given. -/
theorem objectEntries_nameOptions (name : IsQuotable content) :
    Literal.objectEntries (nameOptions content) = [(("name" : Text), Literal.text content)] := by
  obtain ⟨part, -, -⟩ := isArgument_nameEntry name.spaced
  obtain ⟨-, options, -⟩ := isArgument_nameOptions name.spaced
  have value : Literal.read? (quote content) = some (.text content) := by
    have read := name.read
    rw [Literal.string?_quote] at read
    rw [Literal.read?_quote, Option.some.inj read]
  rw [nameOptions, objectEntries_objectText (List.forall_mem_singleton.mpr part), List.foldl_cons,
    List.foldl_nil, takeEntry, entryParts?_nameEntry name.spaced]
  dsimp only
  rw [value]
  rfl

end Argument

/-- A proposed test id. -/
def testIdText (id : Text) : Text := (callStep "getByTestId" [quote id]).render

/-- A proposed role with a name. -/
def roleText (role content : Text) : Text :=
  (callStep "getByRole" [quote role, nameOptions content]).render

/-- The score of a selector that shows one signal. -/
theorem score_of_shows {s : Selector} {g : Signal} (only : ∀ x, s.shows x = decide (x = g)) :
    s.score = max 0 (min 100 (baseScore + g.weight)) := by
  have single : Signal.all.filter s.shows = [g] := by
    rw [List.filter_congr fun x _ => only x]
    cases g <;> rfl
  rw [Selector.score, Selector.signals, single, List.map_singleton, List.foldr_cons, List.foldr_nil,
    Int.add_zero]

section TestId

variable {id : Text}

theorem testIdText_eq (id : Text) : testIdText id = "getByTestId(" ++ quote id ++ [')'] := by
  have lead : ("getByTestId(" : Text) = "getByTestId" ++ ['('] := rfl
  rw [testIdText, Segment.render, callStep]
  dsimp only
  rw [joinWith_singleton, lead, List.append_assoc, List.append_assoc]
  rfl

theorem isCall_testId (h : IsQuotable id) : IsCall "getByTestId" [quote id] where
  accessor := by decide
  filled := List.cons_ne_nil _ _
  arguments := List.forall_mem_singleton.mpr (isArgument_quote h.spaced)

theorem normalizeSelector_testIdText (h : IsQuotable id) :
    normalizeSelector (testIdText id) = testIdText id := by
  have call := isCall_testId h
  have again := call.normalizeSelector_eq (by decide) call.neat.squeeze_eq
  rwa [List.map_singleton, normalizeValue_quote h.spaced h.read] at again

theorem ofExpression_testIdText (h : IsQuotable id) :
    Selector.ofExpression (testIdText id) =
      ⟨testIdText id, .testId, [.depth 0, .attributes [(("data-testid" : Text), id)]]⟩ := by
  have call := isCall_testId h
  have first := call.firstString?_eq h.read
  have sort : Chain.classify ⟨[], [callStep "getByTestId" [quote id]], []⟩ =
      (.testId, [.depth 0, .attributes [(("data-testid" : Text), id)]]) := by
    have named : Chain.callNamed? "getByTestId" ⟨[], [callStep "getByTestId" [quote id]], []⟩ =
        some (callStep "getByTestId" [quote id]) := rfl
    unfold Chain.classify
    rw [named]
    dsimp only
    rw [first]
    rfl
  rw [Selector.ofExpression, normalizeSelector_testIdText h, testIdText, call.ofNormal_eq, sort]

theorem score_testIdText (h : IsQuotable id) :
    (Selector.ofExpression (testIdText id)).score = 10 := by
  have placeless : IsPlaceless (testIdText id) := by
    rw [testIdText_eq]
    exact .quoted (by decide) h.placeless (by decide)
  have shown : ∀ x, (Selector.ofExpression (testIdText id)).shows x =
      decide (x = .testId) := by
    rw [ofExpression_testIdText h]
    intro x
    cases x with
    | positional => exact Bool.or_eq_false_iff.mpr ⟨placeless, rfl⟩
    | _ => rfl
  exact score_of_shows shown

end TestId

theorem isStringLiteral_quote (v : Text) : IsStringLiteral (quote v) where
  read := by rw [Literal.string?_quote]; rfl
  single := by rw [Literal.trim_quote]; exact isSingleString_quote v
  outside := (settled_quote v).outside

section Role

variable {role role' content : Text}

/-- What is read of a quoted text whose blanks are squeezed is spaced, and it is read as it was from
then on. -/
theorem isSpaced_of_string?_squeeze (read : Literal.string? (squeeze (quote role)) = some role') :
    IsSpaced role' ∧ Literal.string? (quote role') = some role' := by
  have literal := isStringLiteral_quote role
  have neat := literal.neat_squeeze
  rcases Literal.cases_of_string? neat.trim_eq read with slash | ⟨-, rfl⟩
  · exact absurd slash (literal.closed_squeeze.head?_ne rfl)
  · exact ⟨isSpaced_unescape (neat.toTidy.mono (infix_inside _)), Literal.string?_quote_unescape _⟩

theorem normalizeValue_squeeze_quote
    (read : Literal.string? (squeeze (quote role)) = some role') :
    normalizeValue (squeeze (quote role)) = quote role' := by
  have literal := isStringLiteral_quote role
  have closed := literal.closed_squeeze
  have same := literal.neat_squeeze.squeeze_eq
  rw [← same] at read
  refine normalizeValue_of_string ?_ read ?_
  · rw [same]
    refine Option.eq_none_iff_forall_ne_some.mpr fun inside braced => ?_
    have front := congrArg List.head? (eq_of_bracedInside? braced)
    exact closed.head?_ne rfl front
  · rw [same]
    exact closed.head?_ne rfl

theorem string?_quote_of_notMem {v : Text} (unescaped : '\\' ∉ v) :
    Literal.string? (quote v) = some v := by
  have apart : ¬ ['\\', 'n'] <:+: v := fun part => unescaped (part.subset List.mem_cons_self)
  exact (Literal.quoted_readBack v).2.2.2.mpr apart

/-- A text comes back from between quotes, its blanks squeezed, exactly if it is spaced. -/
theorem string?_squeeze_quote_iff (read : Literal.string? (squeeze (quote role)) = some role')
    (unescaped : '\\' ∉ role) : role' = role ↔ IsSpaced role := by
  constructor
  · rintro rfl
    exact (isSpaced_of_string?_squeeze read).1
  · intro spaced
    rw [(neat_quote spaced).squeeze_eq, string?_quote_of_notMem unescaped] at read
    exact (Option.some.inj read).symm

theorem render_role (first content : Text) :
    (callStep "getByRole" [first, nameOptions content]).render =
      "getByRole(" ++ first ++ ", \x7b name: " ++ quote content ++ " \x7d)" := by
  have lead : ("getByRole(" : Text) = "getByRole" ++ ['('] := rfl
  have between : (", \x7b name: " : Text) = [',', ' ', '{', ' '] ++ "name" ++ [':', ' '] := rfl
  have behind : (" \x7d)" : Text) = [' ', '}', ')'] := rfl
  rw [Segment.render, callStep]
  dsimp only
  rw [joinWith_cons_cons, joinWith_singleton, nameOptions, objectText, objectInside, nameEntry, lead,
    between, behind, joinWith_singleton]
  simp

theorem respaced_roleText (role content : Text) : Respaced (roleText role content)
    (callStep "getByRole" [squeeze (quote role), nameOptions content]).render := by
  have inner := respaced_squeeze (quote role)
  rw [Literal.trim_quote] at inner
  rw [roleText, render_role, render_role]
  exact (((Respaced.refl _).append inner).append (.refl _)).append (.refl _) |>.append (.refl _)

theorem isCall_role {first : Text} (h : IsArgument first) (name : IsQuotable content) :
    IsCall "getByRole" [first, nameOptions content] where
  accessor := by decide
  filled := List.cons_ne_nil _ _
  arguments := List.forall_mem_cons.mpr
    ⟨h, List.forall_mem_singleton.mpr (isArgument_nameOptions name.spaced)⟩

theorem isArgument_squeeze_quote (role : Text) : IsArgument (squeeze (quote role)) := by
  have literal := isStringLiteral_quote role
  have closed := literal.closed_squeeze
  exact ⟨closed.isPart isComma, literal.neat_squeeze, closed.balanced⟩

theorem normalizeSelector_roleText (name : IsQuotable content)
    (read : Literal.string? (squeeze (quote role)) = some role') :
    normalizeSelector (roleText role content) = roleText role' content := by
  have call := isCall_role (isArgument_squeeze_quote role) name
  have same : squeeze (roleText role content) =
      (callStep "getByRole" [squeeze (quote role), nameOptions content]).render := by
    rw [(respaced_roleText role content).squeeze_eq, call.neat.squeeze_eq]
  rw [call.normalizeSelector_eq (by decide) same, List.map_cons, List.map_singleton,
    normalizeValue_squeeze_quote read, normalizeValue_nameOptions name]
  rfl

theorem normalizeSelector_roleText_iff (name : IsQuotable content) (unescaped : '\\' ∉ role) :
    normalizeSelector (roleText role content) = roleText role content ↔ IsSpaced role := by
  obtain ⟨role', read⟩ := (isStringLiteral_quote role).exists_string?_squeeze
  have readRole := (isSpaced_of_string?_squeeze read).2
  rw [normalizeSelector_roleText name read, ← string?_squeeze_quote_iff read unescaped]
  refine ⟨fun same => ?_, fun same => by rw [same]⟩
  rw [roleText, roleText, render_role, render_role] at same
  have quoted : quote role' = quote role := by
    simpa using same
  rw [quoted, string?_quote_of_notMem unescaped] at readRole
  exact (Option.some.inj readRole).symm

theorem ofExpression_roleText (name : IsQuotable content)
    (read : Literal.string? (squeeze (quote role)) = some role') :
    Selector.ofExpression (roleText role content) =
      ⟨roleText role' content, .role, [.role role', .accessibleName content, .depth 0]⟩ := by
  obtain ⟨spacedRole, readRole⟩ := isSpaced_of_string?_squeeze read
  have call := isCall_role (isArgument_quote spacedRole) name
  have first := call.firstString?_eq readRole
  have options : (callStep "getByRole" [quote role', nameOptions content]).options =
      [(("name" : Text), Literal.text content)] := by
    rw [Segment.options, call.arguments_eq]
    exact objectEntries_nameOptions name
  have sort : Chain.classify ⟨[], [callStep "getByRole" [quote role', nameOptions content]], []⟩ =
      (.role, [.role role', .accessibleName content, .depth 0]) := by
    have details : Chain.roleDetails (callStep "getByRole" [quote role', nameOptions content]) =
        [.role role', .accessibleName content] := by
      rw [Chain.roleDetails, first, options]
      rfl
    have noTestId : Chain.callNamed? "getByTestId"
        ⟨[], [callStep "getByRole" [quote role', nameOptions content]], []⟩ = none := rfl
    have named : Chain.callNamed? "getByRole"
        ⟨[], [callStep "getByRole" [quote role', nameOptions content]], []⟩ =
          some (callStep "getByRole" [quote role', nameOptions content]) := rfl
    unfold Chain.classify
    rw [noTestId, named]
    dsimp only
    rw [details]
    rfl
  rw [Selector.ofExpression, normalizeSelector_roleText name read, roleText,
    call.ofNormal_eq, sort]

theorem score_roleText (h : IsQuotable role) (name : IsQuotable content) :
    (Selector.ofExpression (roleText role content)).score = 20 := by
  have placeless : IsPlaceless (roleText role content) := by
    rw [roleText, render_role]
    exact .quoted (.quoted (by decide) h.placeless (by decide)) name.placeless (by decide)
  have read : Literal.string? (squeeze (quote role)) = some role := by
    rw [(neat_quote h.spaced).squeeze_eq, h.read]
  have shown : ∀ x, (Selector.ofExpression (roleText role content)).shows x =
      decide (x = .role) := by
    rw [ofExpression_roleText name read]
    intro x
    cases x with
    | positional => exact Bool.or_eq_false_iff.mpr ⟨placeless, rfl⟩
    | _ => rfl
  exact score_of_shows shown

end Role

end PageObjects
