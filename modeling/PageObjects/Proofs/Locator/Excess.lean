import PageObjects.Proofs.Script.Excess
import PageObjects.Report.Document

namespace PageObjects

variable {e : Excess}

/-- What is too much about a value is the value itself, or the value of an option in it. -/
theorem normalExcess?_succ_eq_some {room : Nat} {raw : Text}
    (h : normalExcess? (room + 1) raw = some e) :
    Literal.excess? room (Text.squeeze raw) = some e ∨
      ∃ option, normalExcess? room option = some e := by
  rw [normalExcess?] at h
  split at h
  next =>
    obtain ⟨entry, -, own⟩ := List.exists_of_findSome?_eq_some h
    split at own
    next => exact .inr ⟨_, own⟩
    next => cases own
  next => exact .inl h

theorem isBeyond_of_normalExcess? {room : Nat} {raw : Text}
    (h : normalExcess? room raw = some e) : e.IsBeyond := by
  induction room generalizing raw with
  | zero =>
    cases Option.some.inj h
    trivial
  | succ room ih =>
    rcases normalExcess?_succ_eq_some h with own | ⟨option, own⟩
    · exact Literal.isBeyond_of_excess? own
    · exact ih own

theorem isBeyond_of_normalizeExcess? {expression : Text}
    (h : normalizeExcess? expression = some e) : e.IsBeyond := by
  rcases Option.or_eq_some_iff.mp h with string | ⟨-, chained⟩
  · exact Literal.isBeyond_of_excess? string
  · obtain ⟨chain, -, among⟩ := Option.bind_eq_some_iff.mp chained
    obtain ⟨arg, -, own⟩ := List.exists_of_findSome?_eq_some among
    exact isBeyond_of_normalExcess? own

theorem Selector.isBeyond_of_excess? {expression : Text} (h : excess? expression = some e) :
    e.IsBeyond := by
  rcases Option.or_eq_some_iff.mp h with normal | ⟨-, described⟩
  · exact isBeyond_of_normalizeExcess? normal
  · exact Literal.isBeyond_of_excessAmong? described

theorem Statement.isBeyond_of_selectorExcess? {s : Statement} (h : s.selectorExcess? = some e) :
    e.IsBeyond := by
  rw [selectorExcess?] at h
  split at h
  next => cases h
  next =>
    obtain ⟨expression, -, own⟩ := Option.bind_eq_some_iff.mp h
    exact Selector.isBeyond_of_excess? own

end PageObjects
