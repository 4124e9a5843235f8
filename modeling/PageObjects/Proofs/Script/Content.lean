import PageObjects.Script.Extract

namespace PageObjects

/-- What a call can be classified as. -/
inductive CallContent : Content → Prop
  | expectation (scope : Scope) (chain : Chain) : CallContent (classifyAssertion scope chain)
  | contextPage (verb : Text) :
      CallContent { kind := .interaction, verb := some verb, subtype := some .newTab }
  | action (body : Text) (owner page selector : Option Text) (call : Segment) :
      CallContent (classifyAction body owner page selector call)

theorem callContent_of_classifyCall {scope : Scope} {body : Text} {c : Content}
    (h : classifyCall scope body = some c) : CallContent c := by
  unfold classifyCall at h
  dsimp only at h
  split at h
  next => cases h
  next =>
    split at h
    next =>
      cases h
      exact .expectation scope _
    next =>
      split at h
      next =>
        split at h
        next last _ =>
          split at h
          next =>
            cases h
            exact .contextPage last.name
          next => cases h
        next => cases h
      next =>
        split at h
        next => cases h
        next =>
          split at h
          next => cases h
          next call _ =>
            cases h
            exact .action _ _ _ _ call

/-- What a line that a known mark does not give away can be classified as. -/
inductive DeedContent : Content → Prop
  | call {c : Content} (content : CallContent c) : DeedContent c
  | jointWait (subtype : Subtype) :
      DeedContent { kind := .interaction, verb := some "waitForEvent", subtype := some subtype }
  | declaration (selector page : Option Text) :
      DeedContent { kind := .structural, role := some .locatorDeclaration, selector := selector
                    pageVariable := page }

theorem deedContent_of_classifyJointWait {scope : Scope} {target value : Text} {c : Content}
    (h : (classifyJointWait scope target value).1 = some c) : DeedContent c := by
  unfold classifyJointWait at h
  split at h
  next =>
    cases h
    exact .jointWait .newTab
  next =>
    split at h
    next =>
      cases h
      exact .jointWait .fileUpload
    next => cases h

theorem deedContent_of_classifyAssignment {scope : Scope} {target value : Text} {c : Content}
    (h : (classifyAssignment scope target value).1 = some c) : DeedContent c := by
  unfold classifyAssignment at h
  dsimp only at h
  split at h
  next => exact deedContent_of_classifyJointWait h
  next =>
    split at h
    next => exact .call (callContent_of_classifyCall h)
    next =>
      split at h
      next =>
        cases h
        exact .declaration _ _
      next => exact .call (callContent_of_classifyCall h)

/-- What a line can be classified as: by its mark, by what it does, or as a line that does
nothing. -/
inductive LineContent (t : Text) : Content → Prop
  | marked {role : StructuralRole} (mark : structuralRole? t = some role) (title : Option Text) :
      LineContent t { kind := .structural, role := some role, title := title }
  | deed {c : Content} (unmarked : structuralRole? t = none) (content : DeedContent c) :
      LineContent t c
  | code (unmarked : structuralRole? t = none) : LineContent t (.structural .code)
  | expression (unmarked : structuralRole? t = none) : LineContent t (.structural .expression)

theorem lineContent_classifyLine (scope : Scope) (source : Text) :
    LineContent (Text.trim source) (classifyLine scope source).1 := by
  unfold classifyLine
  dsimp only
  split
  next role mark => exact .marked mark _
  next unmarked =>
    split
    next c content =>
      split at content
      next => exact .deed unmarked (deedContent_of_classifyAssignment content)
      next => exact .deed unmarked (.call (callContent_of_classifyCall content))
    next =>
      split
      next => exact .code unmarked
      next => exact .expression unmarked

/-- Each statement is classified from a line. -/
theorem exists_lineContent_of_mem {state : Extraction} {lines : List LogicalLine} {s : Statement}
    (h : s ∈ statementsFrom state lines) : ∃ t, LineContent t s.toContent := by
  induction lines generalizing state with
  | nil => cases h
  | cons line rest ih =>
    rcases List.mem_cons.mp h with rfl | h
    · exact ⟨_, lineContent_classifyLine state.scope line.text⟩
    · exact ih h

theorem role_of_callContent {c : Content} (h : CallContent c) : c.role = none := by
  cases h with
  | expectation => rfl
  | contextPage => rfl
  | action body owner page selector call =>
    unfold classifyAction
    extract_lets verb args timeout
    split
    next => rfl
    next =>
      split
      next selector args _ =>
        split
        next => rfl
        next =>
          split
          next => rfl
          next => rfl

/-- A line is a comment if its mark says so, and not otherwise. -/
theorem role_eq_comment_iff {t : Text} {c : Content} (h : LineContent t c) :
    c.role = some .comment ↔ structuralRole? t = some .comment := by
  cases h with
  | marked mark => rw [mark]
  | code unmarked =>
    rw [unmarked]
    exact ⟨nofun, nofun⟩
  | expression unmarked =>
    rw [unmarked]
    exact ⟨nofun, nofun⟩
  | deed unmarked content =>
    rw [unmarked]
    refine ⟨?_, nofun⟩
    intro comment
    cases content with
    | call content =>
      rw [role_of_callContent content] at comment
      cases comment
    | jointWait => cases comment
    | declaration => cases comment

end PageObjects
