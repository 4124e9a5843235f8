import PageObjects.Proofs.Script.Excess

namespace PageObjects

/-- Whether a statement that navigates or waits does so with a verb for it. -/
structure Content.VerbFits (c : Content) : Prop where
  navigates : c.kind = .navigation → c.verbIn navigationVerbs = true
  waits : c.kind = .wait → c.verbIn waitVerbs = true

namespace Content.VerbFits

variable {c : Content}

theorem of_kind {kind : StatementKind} (h : c.kind = kind)
    (calm : kind ≠ .navigation ∧ kind ≠ .wait) : c.VerbFits := by
  rw [← h] at calm
  exact ⟨fun navigates => absurd navigates calm.1, fun waits => absurd waits calm.2⟩

theorem of_interaction (h : c.kind = .interaction) : c.VerbFits := of_kind h (by decide)

theorem of_assertion (h : c.kind = .assertion) : c.VerbFits := of_kind h (by decide)

theorem of_structural (h : c.kind = .structural) : c.VerbFits := of_kind h (by decide)

end Content.VerbFits

theorem verbFits_classifyAction (body : Text) (owner page selector : Option Text)
    (action : Segment) : (classifyAction body owner page selector action).VerbFits := by
  unfold classifyAction
  extract_lets verb args timeout
  split
  next => exact .of_interaction rfl
  next =>
    split
    next selector args _ =>
      split
      next navigates => exact ⟨fun _ => (Bool.and_eq_true_iff.mp navigates).1, nofun⟩
      next =>
        split
        next waits => exact ⟨nofun, fun _ => waits⟩
        next => exact .of_interaction rfl

theorem verbFits_of_callContent {c : Content} (h : CallContent c) : c.VerbFits := by
  cases h with
  | expectation => exact .of_assertion rfl
  | contextPage => exact .of_interaction rfl
  | action => exact verbFits_classifyAction _ _ _ _ _

theorem verbFits_of_deedContent {c : Content} (h : DeedContent c) : c.VerbFits := by
  cases h with
  | call content => exact verbFits_of_callContent content
  | jointWait => exact .of_interaction rfl
  | declaration => exact .of_structural rfl

theorem verbFits_of_lineContent {t : Text} {c : Content} (h : LineContent t c) : c.VerbFits := by
  cases h with
  | marked => exact .of_structural rfl
  | deed _ content => exact verbFits_of_deedContent content
  | code => exact .of_structural rfl
  | expression => exact .of_structural rfl

/-- Whether a statement stands in some script. -/
def Statement.IsExtracted (s : Statement) : Prop := ∃ script, s ∈ Statement.ofText script

theorem Statement.IsExtracted.verbFits {s : Statement} (h : s.IsExtracted) : s.VerbFits := by
  obtain ⟨script, hs⟩ := h
  obtain ⟨t, content⟩ := exists_lineContent_of_mem hs
  exact verbFits_of_lineContent content

theorem isExtracted_of_extract {script : Text} {statements : List Statement}
    (h : extract script = .ok statements) : ∀ s ∈ statements, s.IsExtracted := by
  obtain rfl := eq_ofText_of_extract h
  exact fun s hs => ⟨script, hs⟩

end PageObjects
