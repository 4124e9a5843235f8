import PageObjects.Locator.Suggest
import PageObjects.Proofs.Locator.Proposal
import PageObjects.Proofs.Name.Word

namespace PageObjects

open Text

/-- A text without a backslash, in which nothing picks an element by its place. -/
structure IsCalm (t : Text) : Prop where
  backslash : '\\' ∉ t
  placeless : IsPlaceless t

instance (t : Text) : Decidable (IsCalm t) :=
  decidable_of_iff ('\\' ∉ t ∧ IsPlaceless t)
    ⟨fun ⟨backslash, placeless⟩ => ⟨backslash, placeless⟩, fun h => ⟨h.backslash, h.placeless⟩⟩

/-- The test id that is proposed for an element of the given content. -/
def proposedTestId (content : Text) : Text :=
  if (kebab content).isEmpty then escapeValue content else kebab content

/-- What a candidate for the place of a selector promises of the selector that it renders. -/
structure Candidate.Keeps (c : Candidate) (s : Selector) (r : Text) : Prop where
  normal : normalizeSelector r = r
  strategy : (Selector.ofExpression r).strategy.name = c.kind.name
  stable : (Selector.ofExpression r).score ≤ stabilityThreshold
  better : (Selector.ofExpression r).score < s.score

/-- Characters of test ids that are made of words. -/
def isKebabChar (c : Char) : Bool := isNameChar c || c == '-'

section Content

variable {s : Selector} {t : Option Text} {content : Text}

theorem tidy_of_usableContent? (h : usableContent? t = some content) : Tidy content := by
  have squeezed : ∀ u, Tidy (squeeze u) := by
    intro u
    by_cases empty : squeeze u = []
    · rw [empty]
      exact .nil
    · exact (neat_squeeze empty).toTidy
  unfold usableContent? at h
  dsimp only at h
  split at h
  next => cases h
  next =>
    obtain rfl := Option.some.inj h
    exact (squeezed _).mono (infix_stripWhile _)

theorem tidy_of_content? (h : s.content? = some content) : Tidy content := by
  obtain ⟨t, -, own⟩ := List.exists_of_findSome?_eq_some h
  exact tidy_of_usableContent? own

theorem IsCalm.isQuotable {v : Text} (calm : IsCalm v) (spaced : IsSpaced v) : IsQuotable v :=
  ⟨spaced, string?_quote_of_notMem calm.backslash, calm.placeless⟩

theorem isKebabChar_of_mem {c : Char} (hc : c ∈ kebab content) : isKebabChar c = true := by
  have filled : (words content).take maxNameWords ≠ [] := by
    intro empty
    rw [kebab, empty] at hc
    cases hc
  have word : ∀ w ∈ (words content).take maxNameWords, ∀ c ∈ w, isKebabChar c = true := by
    intro w hw c hc
    rw [isKebabChar, (isWord_of_mem_words (List.mem_of_mem_take hw)).isNameChar hc, Bool.true_or]
  have joined : ∀ s t : Text, (∀ c ∈ s, isKebabChar c = true) → (∀ c ∈ t, isKebabChar c = true) →
      ∀ c ∈ s ++ ['-'] ++ t, isKebabChar c = true := by
    intro s t hs ht
    rw [List.forall_mem_append, List.forall_mem_append, List.forall_mem_singleton]
    exact ⟨⟨hs, rfl⟩, ht⟩
  exact joinWith_induction joined filled word c hc

theorem isQuotable_kebab (filled : kebab content ≠ []) : IsQuotable (kebab content) := by
  have noMark : ('\\' :: placeLeads).any isKebabChar = false := by decide +kernel
  have other : ∀ c ∈ kebab content, c ∉ '\\' :: placeLeads := fun c hc lead =>
    List.any_eq_false.mp noMark c lead (isKebabChar_of_mem hc)
  have word : ∀ c ∈ kebab content, isBlank c = false := fun c hc =>
    isBlank_of_class (p := isKebabChar) (by decide +kernel) (isKebabChar_of_mem hc)
  have calm : IsCalm (kebab content) :=
    ⟨fun here => other _ here List.mem_cons_self,
      .of_mem fun c hc lead => other c hc (List.mem_cons_of_mem _ lead)⟩
  exact calm.isQuotable (Neat.of_words filled word).toTidy.isSpaced

theorem isQuotable_escapeValue (tidy : Tidy content) (calm : IsCalm content) :
    IsQuotable (escapeValue content) := by
  have written : ∀ c ∈ content,
      (if c = '\\' ∨ c = '"' then ['\\', c] else [c]) = [c] ∧ c ≠ '\\' ∧ c ≠ '\n' ∨
        (if c = '\\' ∨ c = '"' then ['\\', c] else [c]) = ['\\', '"'] := by
    intro c hc
    have backslash : c ≠ '\\' := fun same => calm.backslash (same ▸ hc)
    have feed : c ≠ '\n' := by
      rintro rfl
      exact absurd (tidy.spaces _ hc rfl) (by decide)
    by_cases mark : c = '"'
    · subst c
      exact .inr rfl
    · exact .inl ⟨if_neg (not_or.mpr ⟨backslash, mark⟩), backslash, feed⟩
  have spaced : Tidy (escapeValue content) := by
    refine tidy.isSpaced.tidy_flatMap fun c hc => ?_
    rcases written c hc with ⟨same, -, feed⟩ | pair
    · exact .inl ⟨same, feed⟩
    · exact .inr ⟨'"', pair, rfl⟩
  have placeless : IsPlaceless (escapeValue content) := by
    refine calm.placeless.flatMap fun c hc => ?_
    rcases written c hc with ⟨same, -⟩ | pair
    · exact .inl same
    · exact .inr ⟨'"', pair, by decide⟩
  have apart : (escapeValue content).IsChain fun x y => ¬ (x = '\\' ∧ y = 'n') := by
    unfold escapeValue
    clear tidy calm spaced placeless
    induction content with
    | nil => exact .nil
    | cons c r ih =>
      obtain ⟨own, rest⟩ := List.forall_mem_cons.mp written
      rw [List.flatMap_cons]
      rcases own with ⟨same, backslash, -⟩ | pair
      · rw [same]
        exact List.isChain_cons.mpr ⟨fun d _ h => backslash h.1, ih rest⟩
      · rw [pair]
        refine List.isChain_cons_cons.mpr ⟨fun h => absurd h.2 (by decide), ?_⟩
        exact List.isChain_cons.mpr ⟨fun d _ h => absurd h.1 (by decide), ih rest⟩
  have noFeed : ¬ ['\\', 'n'] <:+: escapeValue content := isChain_iff_not_infix.mp apart
  exact ⟨spaced.isSpaced, (Literal.quoted_readBack _).2.2.2.mpr noFeed, placeless⟩

theorem isQuotable_proposedTestId (tidy : Tidy content) (calm : IsCalm content) :
    IsQuotable (proposedTestId content) := by
  unfold proposedTestId
  split
  next => exact isQuotable_escapeValue tidy calm
  next filled => exact isQuotable_kebab (by simpa using filled)

end Content

section Candidate

variable {s : Selector} {verb : Option Text} {content role r : Text} {c : Candidate}

theorem rendered_testIdCandidate (content : Text) :
    (testIdCandidate content).rendered = some (testIdText (proposedTestId content)) := by
  rw [testIdText_eq]
  rfl

theorem rendered_roleCandidate (role content : Text) :
    (roleCandidate role content).rendered = some (roleText role content) := by
  rw [roleText, render_role]
  rfl

theorem testIdCandidate_keeps (fragile : stabilityThreshold < s.score)
    (h : IsQuotable (proposedTestId content)) :
    (testIdCandidate content).Keeps s (testIdText (proposedTestId content)) := by
  have score := score_testIdText h
  have stable : (10 : Int) ≤ stabilityThreshold := by decide
  refine ⟨normalizeSelector_testIdText h, ?_, ?_, ?_⟩
  · rw [ofExpression_testIdText h]
    rfl
  · omega
  · omega

theorem roleCandidate_keeps (fragile : stabilityThreshold < s.score) (h : IsQuotable role)
    (name : IsQuotable content) : (roleCandidate role content).Keeps s (roleText role content) := by
  have score := score_roleText h name
  have stable : (20 : Int) ≤ stabilityThreshold := by decide
  have read : Literal.string? (squeeze (quote role)) = some role := by
    rw [(neat_quote h.spaced).squeeze_eq, h.read]
  refine ⟨normalizeSelector_roleText name read, ?_, ?_, ?_⟩
  · rw [ofExpression_roleText name read]
    rfl
  · omega
  · omega

theorem candidate?_cases {strategy : Strategy} (h : candidate? s verb content strategy = some c) :
    c = testIdCandidate content ∨
      ∃ role, s.role? verb = some role ∧ c = roleCandidate role content := by
  cases strategy with
  | testId => exact .inl (Option.some.inj h).symm
  | role =>
    obtain ⟨role, own, same⟩ := Option.map_eq_some_iff.mp h
    exact .inr ⟨role, own, same.symm⟩
  | _ => cases h

theorem name_of_candidate? {strategy : Strategy}
    (h : candidate? s verb content strategy = some c) : c.kind.name = strategy.name := by
  cases strategy with
  | testId =>
    obtain rfl := Option.some.inj h
    rfl
  | role =>
    obtain ⟨role, -, rfl⟩ := Option.map_eq_some_iff.mp h
    rfl
  | _ => cases h

variable {preferred : List Strategy}

/-- The candidates that render something other than the selector itself. -/
def candidatesFor (s : Selector) (preferred : List Strategy) (verb : Option Text) :
    List Candidate :=
  match s.content? with
  | none => []
  | some content =>
    (preferred.filterMap (candidate? s verb content)).filter fun c => c.rendered != some s.raw

theorem suggest_eq (preferred : List Strategy) (fragile : stabilityThreshold < s.score) :
    suggest s s.score preferred verb =
      if (candidatesFor s preferred verb).isEmpty then [sourceChangeCandidate s]
      else candidatesFor s preferred verb :=
  if_neg (Int.not_le.mpr fragile)

theorem suggest_of_stable (stable : ¬ stabilityThreshold < s.score) :
    suggest s s.score preferred verb = [] := if_pos (Int.not_lt.mp stable)

theorem of_mem_candidatesFor (hc : c ∈ candidatesFor s preferred verb) :
    c.rendered ≠ some s.raw ∧ ∃ content, s.content? = some content ∧
      (c = testIdCandidate content ∨
        ∃ role, s.role? verb = some role ∧ c = roleCandidate role content) := by
  unfold candidatesFor at hc
  split at hc
  next => cases hc
  next content own =>
    obtain ⟨made, other⟩ := List.mem_filter.mp hc
    obtain ⟨strategy, -, proposed⟩ := List.mem_filterMap.mp made
    exact ⟨by simpa using other, content, own, candidate?_cases proposed⟩

/-- A candidate that can be put in place stands for a fragile selector. -/
theorem of_mem_suggest (hc : c ∈ suggest s s.score preferred verb)
    (actionable : c.isActionable = true) :
    stabilityThreshold < s.score ∧ c ∈ candidatesFor s preferred verb := by
  by_cases fragile : stabilityThreshold < s.score
  · refine ⟨fragile, ?_⟩
    rw [suggest_eq preferred fragile] at hc
    split at hc
    next =>
      obtain rfl := List.mem_singleton.mp hc
      cases actionable
    next => exact hc
  · rw [suggest_of_stable fragile] at hc
    cases hc

theorem suggest_ne_nil_iff :
    suggest s s.score preferred verb ≠ [] ↔ stabilityThreshold < s.score := by
  by_cases fragile : stabilityThreshold < s.score
  · refine iff_of_true ?_ fragile
    rw [suggest_eq preferred fragile]
    split
    next => exact List.cons_ne_nil _ _
    next filled => simpa using filled
  · rw [suggest_of_stable fragile]
    exact iff_of_false (fun nothing => nothing rfl) fragile

theorem sublist_candidatesFor (s : Selector) (preferred : List Strategy) (verb : Option Text) :
    ((candidatesFor s preferred verb).map fun c => c.kind.name).Sublist
      (preferred.map Strategy.name) := by
  unfold candidatesFor
  split
  next => exact List.nil_sublist _
  next content _ =>
    refine (List.filter_sublist.map _).trans ?_
    induction preferred with
    | nil => exact .slnil
    | cons strategy preferred ih =>
      rw [List.filterMap_cons, List.map_cons]
      split
      next => exact ih.cons _
      next c proposed =>
        rw [List.map_cons, name_of_candidate? proposed]
        exact ih.cons_cons _

/-- Candidates that can be put in place come in the order of the strategies. -/
theorem sublist_suggest (s : Selector) (preferred : List Strategy) (verb : Option Text) :
    (((suggest s s.score preferred verb).filter Candidate.isActionable).map
      fun c => c.kind.name).Sublist (preferred.map Strategy.name) := by
  by_cases fragile : stabilityThreshold < s.score
  · rw [suggest_eq preferred fragile]
    split
    next => exact List.nil_sublist _
    next => exact (List.filter_sublist.map _).trans (sublist_candidatesFor s preferred verb)
  · rw [suggest_of_stable fragile]
    exact List.nil_sublist _

end Candidate

/-- What is suggested for the place of a selector. A test id is rendered as a stable selector in
normal form that has it, and a role with a name as one that has both, exactly if the role is spaced:
of neighbouring spaces the selector keeps one. The suggestions come in the order of the strategies,
and there are some exactly for a selector that is fragile. -/
theorem suggestions_keep (e : Text) (preferred : List Strategy) (verb : Option Text) :
    (∀ c ∈ ((Selector.ofExpression e).assess preferred verb true).candidates,
      c.isActionable = true → ∃ content r, (Selector.ofExpression e).content? = some content ∧
        c.rendered = some r ∧ r ≠ (Selector.ofExpression e).raw ∧
        ((c = testIdCandidate content ∧ (IsCalm content →
            c.Keeps (Selector.ofExpression e) r ∧ (Selector.ofExpression r).details.attributes =
              [(("data-testid" : Text), proposedTestId content)])) ∨
          ∃ role, (Selector.ofExpression e).role? verb = some role ∧
            c = roleCandidate role content ∧ (IsCalm content → IsCalm role →
              (Selector.ofExpression r).strategy.name = c.kind.name ∧
              (Selector.ofExpression r).details.accessibleName? = some content ∧
              (normalizeSelector r = r ↔ IsSpaced role) ∧
              ((Selector.ofExpression r).details.role? = some role ↔ IsSpaced role) ∧
              (IsSpaced role → c.Keeps (Selector.ofExpression e) r)))) ∧
    ((((Selector.ofExpression e).assess preferred verb true).candidates.filter
      Candidate.isActionable).map fun c => c.kind.name).Sublist (preferred.map Strategy.name) ∧
    (((Selector.ofExpression e).assess preferred verb true).candidates ≠ [] ↔
      stabilityThreshold < (Selector.ofExpression e).score) := by
  generalize Selector.ofExpression e = s
  refine ⟨fun c hc actionable => ?_, sublist_suggest s preferred verb, suggest_ne_nil_iff⟩
  obtain ⟨fragile, found⟩ := of_mem_suggest hc actionable
  obtain ⟨other, content, own, kinds⟩ := of_mem_candidatesFor found
  have tidy := tidy_of_content? own
  rcases kinds with rfl | ⟨role, guessed, rfl⟩
  · rw [rendered_testIdCandidate] at other
    refine ⟨content, _, own, rendered_testIdCandidate content, fun same => other (by rw [same]), ?_⟩
    refine .inl ⟨rfl, fun calm => ?_⟩
    have quotable := isQuotable_proposedTestId tidy calm
    refine ⟨testIdCandidate_keeps fragile quotable, ?_⟩
    rw [ofExpression_testIdText quotable]
    rfl
  · rw [rendered_roleCandidate] at other
    refine ⟨content, _, own, rendered_roleCandidate role content,
      fun same => other (by rw [same]), ?_⟩
    refine .inr ⟨role, guessed, rfl, fun calm calmRole => ?_⟩
    have name := calm.isQuotable tidy.isSpaced
    obtain ⟨role', read⟩ := (isStringLiteral_quote role).exists_string?_squeeze
    have same := string?_squeeze_quote_iff read calmRole.backslash
    have sort := ofExpression_roleText name read
    refine ⟨?_, ?_, ?_, ?_, fun spaced => ?_⟩
    · rw [sort]
      rfl
    · rw [sort]
      rfl
    · exact normalizeSelector_roleText_iff name calmRole.backslash
    · rw [sort, ← same]
      exact Option.some_inj
    · exact roleCandidate_keeps fragile (calmRole.isQuotable spaced) name

/-- A field that is known by its placeholder. -/
def emailField : Text := "'[placeholder=\"Email\"]'"

theorem suggestions_keep_emailField :
    (roleCandidate "textbox" "Email" ∈
        ((Selector.ofExpression emailField).assess Strategy.preferred (some "fill") true).candidates ∧
      IsCalm "Email" ∧ IsCalm "textbox" ∧ IsSpaced "textbox") ∧
    ∃ r, (roleCandidate "textbox" "Email").rendered = some r ∧ normalizeSelector r = r ∧
      (Selector.ofExpression r).details.role? = some ("textbox" : Text) ∧
      (Selector.ofExpression r).score < (Selector.ofExpression emailField).score := by
  have among : roleCandidate "textbox" "Email" ∈
      ((Selector.ofExpression emailField).assess Strategy.preferred (some "fill") true).candidates := by
    decide +kernel
  have content : (Selector.ofExpression emailField).content? = some ("Email" : Text) := by
    decide +kernel
  have role : (Selector.ofExpression emailField).role? (some "fill") = some ("textbox" : Text) := by
    decide +kernel
  have calm : IsCalm "Email" := by decide +kernel
  have calmRole : IsCalm "textbox" := by decide +kernel
  have word : Neat "textbox" := .of_words (by decide) (others_of_any (by decide))
  have spaced : IsSpaced "textbox" := word.toTidy.isSpaced
  refine ⟨⟨among, calm, calmRole, spaced⟩, ?_⟩
  obtain ⟨kept, -⟩ := suggestions_keep emailField Strategy.preferred (some "fill")
  obtain ⟨content', r, own, rendered, -, kinds⟩ := kept _ among rfl
  obtain rfl := Option.some.inj (content.symm.trans own)
  rcases kinds with ⟨test, -⟩ | ⟨role', guessed, -, keeps⟩
  · cases congrArg Candidate.kind test
  · obtain rfl := Option.some.inj (role.symm.trans guessed)
    obtain ⟨-, -, -, roleKept, keeps⟩ := keeps calm calmRole
    exact ⟨r, rendered, (keeps spaced).normal, roleKept.mpr spaced, (keeps spaced).better⟩

/-- A selector with a role in which a combinator becomes a space, quoted though it is. -/
def guardedRole : Text := "'div[role=\"a >> b\"][title=\"Save\"]'"

theorem suggestion_neighbouringSpaces :
    (Selector.ofExpression guardedRole).content? = some ("Save" : Text) ∧
    (Selector.ofExpression guardedRole).role? none = some ("a   b" : Text) ∧
    IsCalm "Save" ∧ IsCalm "a   b" ∧
    ∃ c ∈ ((Selector.ofExpression guardedRole).assess Strategy.preferred none true).candidates,
      c.isActionable = true ∧ ∃ r, c.rendered = some r ∧ normalizeSelector r ≠ r ∧
        (Selector.ofExpression r).details.role? = some ("a b" : Text) := by
  refine ⟨by decide +kernel, by decide +kernel, by decide +kernel, by decide +kernel,
    roleCandidate "a   b" "Save", by decide +kernel, rfl,
    "getByRole('a   b', \x7b name: 'Save' \x7d)", by decide +kernel, by decide +kernel,
    by decide +kernel⟩

end PageObjects
