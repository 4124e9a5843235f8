import PageObjects.Proofs.Script.Parts

namespace PageObjects

open Text

variable {sep : Char → Bool} {m : Char} {pad s t p : Text} {ps : List Text}

/-- Behind a text that closes what it opens, a separator starts anew. -/
theorem Settled.splitTopLevel_append (settled : Settled s) (cut : sep m = true) (plain : IsPlain m)
    (t : Text) :
    splitTopLevel sep (s ++ m :: t) = splitTopLevel sep s ++ splitTopLevel sep t := by
  have pieces : Cuts sep s _ := cuts_topLevelPieces settled
  generalize topLevelPieces sep .code 0 s = ps at pieces
  induction pieces with
  | @whole s solid =>
    have own : splitTopLevel sep s = if (Text.trim s).isEmpty then [] else [Text.trim s] := by
      unfold splitTopLevel
      rw [solid.topLevelPieces_eq, List.map_singleton]
      cases Text.trim s with
      | nil => rfl
      | cons c r => rfl
    rw [PageObjects.splitTopLevel_append solid cut plain, own]
  | @cut s r c ps solid parts mark _ ih =>
    have rest : Settled r := (Settled.singleton mark).of_append (solid.toSettled.of_append settled)
    rw [List.append_assoc, List.cons_append, PageObjects.splitTopLevel_append solid parts mark,
      PageObjects.splitTopLevel_append solid parts mark, ih rest, List.append_assoc]

/-- A separator character that means nothing else cuts every text into parts that are not cut apart
again, not even when they are joined, and it cuts off what closes all that it opens. -/
theorem splitTopLevel_stable {c : Char} (plain : IsPlain c) (visible : isBlank c = false)
    (a : Text) :
    (∀ p ∈ splitTopLevel (· == c) a,
        p ≠ [] ∧ trim p = p ∧ splitTopLevel (· == c) p = [p]) ∧
      splitTopLevel (· == c) (joinWith [c, ' '] (splitTopLevel (· == c) a)) =
        splitTopLevel (· == c) a ∧
      (Region.code.after a = .code → bracketDelta a = 0 → ∀ b,
        splitTopLevel (· == c) (a ++ c :: b) =
          splitTopLevel (· == c) a ++ splitTopLevel (· == c) b) := by
  have row := partsInRow_splitTopLevel (· == c) a
  let sep : Char → Bool := (· == c)
  have cut : sep c = true := beq_self_eq_true c
  have space : (' ' == c) = false := by
    apply beq_false_of_ne
    rintro rfl
    cases visible
  refine ⟨?_, ?_, ?_⟩
  · intro p hp
    have whole := row.isWhole p hp
    exact ⟨whole.filled, whole.trimmed, whole.splitTopLevel_eq⟩
  · apply row.splitTopLevel_joinWith cut plain
    · exact List.forall_mem_singleton.mpr rfl
    · exact List.forall_mem_singleton.mpr space
  · intro outside even b
    have settled : Settled a := ⟨outside, even⟩
    show splitTopLevel sep (a ++ c :: b) = splitTopLevel sep a ++ splitTopLevel sep b
    exact settled.splitTopLevel_append cut plain b

/-- Arguments of which one closes a bracket too early, one is blank, and one is a quoted comma. -/
def crookedArguments : Text := "x, )a, b(, , ' , '"

theorem splitTopLevel_stable_crookedArguments :
    IsPlain ',' ∧ isBlank ',' = false ∧ Region.code.after crookedArguments = .code ∧
      bracketDelta crookedArguments = 0 ∧
      splitTopLevel (· == ',') (crookedArguments ++ ',' :: "y, [1, 2" : Text) =
        ["x", ")a, b(", "' , '", "y", "[1, 2"] := by
  have plain : IsPlain ',' := isPlain_comma
  have outside : Region.code.after crookedArguments = .code := by decide +kernel
  have even : bracketDelta crookedArguments = 0 := by decide +kernel
  obtain ⟨-, -, cutOff⟩ := splitTopLevel_stable plain rfl crookedArguments
  refine ⟨plain, rfl, outside, even, ?_⟩
  rw [cutOff outside even]
  decide +kernel

end PageObjects
