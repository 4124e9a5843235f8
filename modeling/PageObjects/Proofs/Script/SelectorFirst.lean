import PageObjects.Proofs.Script.LocatorVariable
import PageObjects.Proofs.Script.StringLiteral

namespace PageObjects

open Text

/-- The words and marks that tell a line of its own kind at its start. -/
def lineLeads : List Text := [
  "//", "/*", "*", "import ", "export ", "const", "let", "var", "test", "it", "describe",
  "beforeEach", "afterEach", "beforeAll", "afterAll", "if", "else", "switch", "try", "catch",
  "finally", "for", "while", "do"]

/-- A line that is a call, or awaits one and ends in a semicolon. -/
inductive IsLineOf (call : Text) : Text → Prop where
  | bare : IsLineOf call call
  | awaited : IsLineOf call ("await " ++ call ++ [';'])

section Lead

variable {t : Text} {leads : List Text}

theorem dropPrefix?_eq_none {lead : Text} (h : ¬ lead <+: t) : dropPrefix? lead t = none := by
  rw [dropPrefix?, if_neg (mt List.isPrefixOf_iff_prefix.mp h)]

theorem dropAnyPrefix?_eq_none (h : ∀ lead ∈ leads, ¬ lead <+: t) :
    dropAnyPrefix? leads t = none :=
  List.findSome?_eq_none_iff.mpr fun lead own => dropPrefix?_eq_none (h lead own)

theorem startsWithAny_eq_false (h : ∀ lead ∈ leads, ¬ lead <+: t) :
    startsWithAny leads t = false :=
  List.any_eq_false.mpr fun lead own => mt List.isPrefixOf_iff_prefix.mp (h lead own)

/-- A line that starts with none of the words does not declare anything. -/
theorem afterDeclaration?_eq_none (other : ∀ lead ∈ lineLeads, ¬ lead <+: t) :
    afterDeclaration? t = none := by
  have words : ∀ lead ∈ declarationWords, lead ∈ lineLeads := by decide
  rw [afterDeclaration?, dropAnyPrefix?_eq_none fun lead own => other lead (words lead own)]

/-- A line that starts with none of the words, and neither opens nor closes a block, plays no role
in the structure of a script. -/
theorem structuralRole?_eq_none (other : ∀ lead ∈ lineLeads, ¬ lead <+: t)
    (calm : opensBlock t = false) (front : ∀ c ∈ t.head?, isCloser c = false) :
    structuralRole? t = none := by
  have among : ∀ leads : List Text, (∀ lead ∈ leads, lead ∈ lineLeads) →
      ∀ lead ∈ leads, ¬ lead <+: t := fun leads own lead hlead => other lead (own lead hlead)
  have comment := startsWithAny_eq_false (among ["//", "/*", "*"] (by decide))
  have imports : isImport t = false := by
    rw [isImport, startsWithAny_eq_false (among ["import ", "export "] (by decide)),
      afterDeclaration?_eq_none other]
    rfl
  have title : testTitle? t = none := by
    rw [testTitle?, dropAnyPrefix?_eq_none (among ["test", "it"] (by decide))]
    rfl
  have group : dropPrefix "test." t = t := by
    have longer : ("test" : Text) <+: "test." := by decide
    have test := other "test" (by decide)
    rw [dropPrefix, dropPrefix?_eq_none fun start => test (longer.trans start), Option.getD_none]
  have describe : isDescribe t = false := by
    rw [isDescribe, group, dropPrefix?_eq_none (other "describe" (by decide))]
  have hook : isHook t = false := by
    rw [isHook, group, dropAnyPrefix?_eq_none
      (among ["beforeEach", "afterEach", "beforeAll", "afterAll"] (by decide))]
  have opens : t.head? ≠ some '\x7d' := by
    intro start
    exact absurd (front _ start) (by decide)
  have words := dropAnyPrefix?_eq_none
    (among ["if", "else", "switch", "try", "catch", "finally"] (by decide))
  have branch : isBranch t = false := by
    rw [isBranch.eq_def]
    split
    next => exact absurd rfl opens
    next =>
      dsimp only
      rw [afterWord?, words]
      rfl
  have close : List.elem t [(")" : Text), ");", "])", "]);"] = false := by
    have closers : [(")" : Text), ");", "])", "]);"].all (fun close => close.head?.any isCloser) =
        true := by decide
    refine Bool.eq_false_iff.mpr fun own => ?_
    obtain ⟨c, start, closes⟩ := (Option.any_eq_true _ _).mp
      (List.all_eq_true.mp closers t (List.elem_iff.mp own))
    rw [front c start] at closes
    cases closes
  rw [structuralRole?, comment, imports, title, describe, hook, branch, calm, close]
  simp [opens]

/-- Of two texts that differ within their length, at most one is at the start of a text. -/
theorem not_prefix_of_apart {lead front : Text} (start : front <+: t)
    (apart : ¬ lead <+: front ∧ ¬ front <+: lead) : ¬ lead <+: t := by
  intro h
  rcases List.prefix_or_prefix_of_prefix h start with before | before
  · exact apart.1 before
  · exact apart.2 before

end Lead

section Line

variable {call line : Text}

theorem opensBlock_eq_false {t : Text} {c : Char} (last : t.getLast? = some c)
    (blank : isBlank c = false) (other : c ≠ '\x7b') : opensBlock t = false := by
  obtain ⟨r, rfl⟩ := List.getLast?_eq_some_iff.mp last
  have kept : (trimEnd (r ++ [c])).reverse = c :: r.reverse := by
    rw [trimEnd, dropEndWhile, List.reverse_reverse, List.reverse_append, List.reverse_singleton,
      List.singleton_append, List.dropWhile_cons_of_neg (by simp [blank])]
  rw [opensBlock, kept]
  split
  next same => exact absurd (List.cons.inj same).1 other
  next => rfl

/-- A line that starts with a name and ends in a bracket or a semicolon is taken for what stands
between the word that awaits it and the semicolon. -/
theorem stripPrefixes_line (h : IsLineOf call line) (start : ("page." : Text) <+: call)
    (last : call.getLast? = some ')') : stripPrefixes line = call := by
  have front : ∀ c ∈ call.head?, isBlank c = false := by
    obtain ⟨r, rfl⟩ := start
    intro c hc
    obtain rfl := Option.some.inj hc
    rfl
  have back : ∀ c ∈ call.getLast?, isBlank c = false := by
    rw [last]
    intro c hc
    obtain rfl := Option.some.inj hc
    rfl
  have trimmed : trim call = call := trim_eq_self front back
  have semicolon : ∀ {t : Text}, t.getLast? = some ')' → dropEndWhile (· == ';') t = t := by
    intro t last
    rw [dropEndWhile_eq_rdropWhile, List.rdropWhile_eq_self_iff]
    intro filled
    rw [List.getLast?_eq_some_getLast filled] at last
    rw [Option.some.inj last]
    decide
  have returns : ¬ ("return " : Text) <+: call := not_prefix_of_apart start (by decide)
  have awaits : ¬ ("await " : Text) <+: call := not_prefix_of_apart start (by decide)
  cases h with
  | bare =>
    simp only [stripPrefixes, trimmed, semicolon last, dropPrefix?_eq_none returns,
      dropPrefix?_eq_none awaits]
  | awaited =>
    have filled : call ≠ [] := by
      rintro rfl
      cases last
    have ends : (("await " : Text) ++ call).getLast? = some ')' := by
      rw [List.getLast?_append_of_ne_nil _ filled, last]
    have closed :
        trim (("await " : Text) ++ call ++ [';']) = ("await " : Text) ++ call ++ [';'] := by
      refine trim_eq_self ?_ ?_
      · intro c hc
        obtain rfl := Option.some.inj hc
        rfl
      · intro c hc
        rw [List.getLast?_concat] at hc
        obtain rfl := Option.some.inj hc
        rfl
    have bare : dropEndWhile (· == ';') (("await " : Text) ++ call ++ [';']) =
        ("await " : Text) ++ call := by
      rw [dropEndWhile_eq_rdropWhile, List.rdropWhile_concat_pos _ _ _ (by decide),
        ← dropEndWhile_eq_rdropWhile, semicolon ends]
    have snug : trim (("await " : Text) ++ call) = ("await " : Text) ++ call := by
      refine trim_eq_self ?_ ?_
      · intro c hc
        obtain rfl := Option.some.inj hc
        rfl
      · rw [ends, ← last]
        exact back
    have awaited : ¬ ("return " : Text) <+: ("await " : Text) ++ call :=
      not_prefix_of_apart (List.prefix_append _ call) (by decide)
    simp only [stripPrefixes, closed, bare, snug, dropPrefix?_eq_none awaited,
      dropPrefix?_append, trimmed]

/-- A line with nothing but a call on `page` does what the call does. -/
theorem classifyLine_call {scope : Scope} {c : Content} (h : IsLineOf call line)
    (start : ("page." : Text) <+: call) (last : call.getLast? = some ')')
    (does : classifyCall scope call = some c) : classifyLine scope line = (c, scope) := by
  have fronts : ∀ lead ∈ lineLeads, (¬ lead <+: ("page." : Text) ∧ ¬ ("page." : Text) <+: lead) ∧
      ¬ lead <+: ("await " : Text) ∧ ¬ ("await " : Text) <+: lead := by decide
  have apart : ∀ lead ∈ lineLeads, ¬ lead <+: call := fun lead own =>
    not_prefix_of_apart start (fronts lead own).1
  have ends : ∃ d, line.getLast? = some d ∧ isBlank d = false ∧ d ≠ '\x7b' := by
    cases h with
    | bare => exact ⟨')', last, by decide⟩
    | awaited => exact ⟨';', List.getLast?_concat, by decide⟩
  have front : ∃ d, line.head? = some d ∧ isBlank d = false ∧ isCloser d = false := by
    cases h with
    | bare =>
      obtain ⟨r, rfl⟩ := start
      exact ⟨'p', rfl, by decide⟩
    | awaited => exact ⟨'a', rfl, by decide⟩
  have other : ∀ lead ∈ lineLeads, ¬ lead <+: line := by
    cases h with
    | bare => exact apart
    | awaited =>
      intro lead own
      refine not_prefix_of_apart ?_ (fronts lead own).2
      rw [List.append_assoc]
      exact List.prefix_append _ _
  obtain ⟨d, ends, blank, brace⟩ := ends
  obtain ⟨e, starts, word, closer⟩ := front
  have trimmed : trim line = line := by
    refine trim_eq_self ?_ ?_
    · rw [starts]
      exact fun c hc => Option.some.inj hc ▸ word
    · rw [ends]
      exact fun c hc => Option.some.inj hc ▸ blank
  have role : structuralRole? line = none := by
    refine structuralRole?_eq_none other (opensBlock_eq_false ends blank brace) ?_
    rw [starts]
    exact fun c hc => Option.some.inj hc ▸ closer
  have noTarget : assignment? call = none := by
    rw [assignment?, afterDeclaration?_eq_none apart]
    rfl
  simp only [classifyLine, trimmed, role, stripPrefixes_line h start last, noTarget, does]

end Line

section Action

variable {verb first : Text} {args others : Option Text} (page : Option Text) (e : Text)

theorem selectorFirst_spec : ∀ verb ∈ selectorFirstVerbs, isIdentifier verb = true ∧
    verb ∉ locatorAccessors ∧ verb ∉ navigationVerbs ∧
      verb ≠ "on" ∧ verb ≠ "once" ∧ verb ≠ "waitForEvent" := by
  decide

/-- Verbs other than those that listen are recorded as they are, with all arguments. -/
theorem exists_interactionDetails (on : verb ≠ "on") (once : verb ≠ "once") (body : Text) :
    ∃ subtype, ∀ args, interactionDetails verb body args = (subtype, verb, args) := by
  have listens : ∀ args : List Text, ¬ ((verb = "on" ∨ verb = "once") ∧ args ≠ []) := by
    rintro args ⟨same | same, -⟩
    · exact on same
    · exact once same
  refine ⟨(interactionDetails verb body []).1, fun args => ?_⟩
  simp only [interactionDetails, if_neg (listens _)]
  repeat' split
  all_goals rfl

/-- A call that finds no selector before it takes the first of its arguments for one. -/
theorem classifyAction_selectorFirst (verbs : verb ∈ selectorFirstVerbs)
    (taken : (⟨verb, args⟩ : Segment).arguments =
      first :: (⟨verb, others⟩ : Segment).arguments) :
    classifyAction [] none page none ⟨verb, args⟩ =
      { classifyAction [] none page (some e) ⟨verb, others⟩ with
        selector := some first
        timeout := timeoutOf? args
        excess := (timeoutExcess? args).or
          (Literal.excessAmong? (⟨verb, others⟩ : Segment).arguments) } := by
  obtain ⟨-, -, calm, on, once, -⟩ := selectorFirst_spec verb verbs
  obtain ⟨subtype, details⟩ := exists_interactionDetails on once []
  have own : selectorFirstVerbs.contains verb = true := List.contains_iff_mem.mpr verbs
  have stays : navigationVerbs.contains verb = false := by simpa using calm
  simp only [classifyAction, taken, own, stays, details, reduceCtorEq, or_self, if_false,
    Option.isNone_none, Option.isNone_some, Bool.false_and, Bool.and_self, if_true,
    Bool.false_eq_true]
  split
  next => rfl
  next => rfl

/-- A call on what has been located is recorded as it is. -/
theorem classifyAction_of_selector (verbs : verb ∈ selectorFirstVerbs) :
    (classifyAction [] none page (some e) ⟨verb, args⟩).verb = some verb ∧
      (classifyAction [] none page (some e) ⟨verb, args⟩).arguments =
        (⟨verb, args⟩ : Segment).arguments ∧
      (classifyAction [] none page (some e) ⟨verb, args⟩).pageVariable = page ∧
      (classifyAction [] none page (some e) ⟨verb, args⟩).selector = some e := by
  obtain ⟨-, -, -, on, once, -⟩ := selectorFirst_spec verb verbs
  obtain ⟨subtype, details⟩ := exists_interactionDetails on once []
  simp only [classifyAction, details, reduceCtorEq, or_self, if_false, Option.isNone_some,
    Bool.false_and, Bool.and_false, Bool.false_eq_true]
  split
  next => exact ⟨rfl, rfl, rfl, rfl⟩
  next => exact ⟨rfl, rfl, rfl, rfl⟩

end Action

end PageObjects
