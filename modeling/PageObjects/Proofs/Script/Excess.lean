import PageObjects.Proofs.Script.Content
import PageObjects.Proofs.Text.Search
import PageObjects.Proofs.Text.Trim
import PageObjects.Script.Extract

namespace PageObjects

/-- Something that is too much: a numeral only if it is longer than numerals can be. -/
def Excess.IsBeyond : Excess → Prop
  | digits count => longestNumeral < count
  | nesting => True

theorem Text.digitExcess?_eq_some_iff {t : Text} {e : Excess} :
    digitExcess? t = some e ↔ longestNumeral < t.length ∧ e = .digits t.length := by
  rw [digitExcess?]
  split
  next long => exact ⟨fun h => ⟨long, (Option.some.inj h).symm⟩, fun h => congrArg some h.2.symm⟩
  next short => exact ⟨nofun, fun h => absurd h.1 short⟩

theorem Text.isBeyond_of_digitExcess? {t : Text} {e : Excess} (h : digitExcess? t = some e) :
    e.IsBeyond := by
  obtain ⟨long, rfl⟩ := digitExcess?_eq_some_iff.mp h
  exact long

namespace Literal

variable {t : Text} {e : Excess}

theorem digitExcess?_of_numberExcess? (h : numberExcess? t = some e) :
    Text.digitExcess? (Text.dropPrefix ['-'] t) = some e := by
  rw [numberExcess?] at h
  split at h
  next => exact h
  next => cases h

theorem exists_of_firstExcess? {excess? : Text → Option Excess} {items : List Text}
    (h : firstExcess? excess? items = some e) : ∃ item ∈ items, excess? item = some e := by
  induction items with
  | nil => cases h
  | cons item rest ih =>
    rw [firstExcess?] at h
    split at h
    next found =>
      obtain rfl := Option.some.inj h
      exact ⟨item, List.mem_cons_self, found⟩
    next =>
      split at h
      next =>
        obtain ⟨other, there, found⟩ := ih h
        exact ⟨other, List.mem_cons_of_mem item there, found⟩
      next => cases h

/-- What is too much about an argument is a numeral in it, or an item of an array that is. -/
theorem excess?_succ_eq_some {room : Nat} (h : excess? (room + 1) t = some e) :
    numberExcess? (Text.trim t) = some e ∨
      ∃ items, arrayItems? (Text.trim t) = some items ∧
        ∃ item ∈ items, excess? room item = some e := by
  rw [excess?] at h
  rcases Option.or_eq_some_iff.mp h with number | ⟨-, array⟩
  · exact .inl number
  · split at array
    next => cases array
    next =>
      obtain ⟨items, own, first⟩ := Option.bind_eq_some_iff.mp array
      exact .inr ⟨items, own, exists_of_firstExcess? first⟩

theorem isBeyond_of_excess? {room : Nat} (h : excess? room t = some e) : e.IsBeyond := by
  induction room generalizing t with
  | zero =>
    cases Option.some.inj h
    trivial
  | succ room ih =>
    rcases excess?_succ_eq_some h with number | ⟨items, -, item, -, own⟩
    · exact Text.isBeyond_of_digitExcess? (digitExcess?_of_numberExcess? number)
    · exact ih own

/-- A numeral that is too long is too much wherever it can be read. -/
theorem excess?_of_decimals {room : Nat} (deep : 0 < room) (digits : ∀ c ∈ t, isDecimal c = true)
    (long : longestNumeral < t.length) : excess? room t = some (.digits t.length) := by
  have trimmed : Text.trim t = t :=
    Text.trim_of_words fun c hc => isBlank_of_class (p := isDecimal) (by decide) (digits c hc)
  have unsigned : Text.dropPrefix ['-'] t = t := by
    rcases Text.dropPrefix_cases ['-'] t with same | signed
    · exact same
    · exact absurd (digits '-' (by rw [signed]; exact List.mem_cons_self)) (by decide)
  have number : numberExcess? t = some (.digits t.length) := by
    rw [numberExcess?, unsigned, if_pos (List.all_eq_true.mpr digits)]
    exact Text.digitExcess?_eq_some_iff.mpr ⟨long, rfl⟩
  obtain ⟨room, rfl⟩ := Nat.exists_eq_succ_of_ne_zero deep.ne'
  rw [excess?, trimmed, number]
  rfl

theorem isBeyond_of_excessAmong? {args : List Text} (h : excessAmong? args = some e) :
    e.IsBeyond := by
  obtain ⟨arg, -, own⟩ := List.exists_of_findSome?_eq_some h
  exact isBeyond_of_excess? own

end Literal

theorem isBeyond_of_timeoutExcess? {args : Option Text} {e : Excess}
    (h : timeoutExcess? args = some e) : e.IsBeyond := by
  obtain ⟨digits, -, own⟩ := Option.bind_eq_some_iff.mp h
  exact Text.isBeyond_of_digitExcess? own

/-- What is too much about a call is its timeout or one of the arguments that it keeps. -/
theorem excess_classifyAction (body : Text) (owner page selector : Option Text)
    (action : Segment) : (classifyAction body owner page selector action).excess =
      (timeoutExcess? action.args).or
        (Literal.excessAmong? (classifyAction body owner page selector action).arguments) := by
  unfold classifyAction
  extract_lets verb args timeout excess
  split
  next => rfl
  next =>
    split
    next selector args _ =>
      split
      next => rfl
      next =>
        split
        next => rfl
        next => rfl

theorem CallContent.isBeyond {c : Content} (h : CallContent c) {e : Excess}
    (he : c.excess = some e) : e.IsBeyond := by
  cases h with
  | expectation scope chain =>
    rcases Option.or_eq_some_iff.mp he with among | ⟨-, timeout⟩
    · exact Literal.isBeyond_of_excessAmong? among
    · exact isBeyond_of_timeoutExcess? timeout
  | contextPage => cases he
  | action body owner page selector call =>
    rw [excess_classifyAction] at he
    rcases Option.or_eq_some_iff.mp he with timeout | ⟨-, among⟩
    · exact isBeyond_of_timeoutExcess? timeout
    · exact Literal.isBeyond_of_excessAmong? among

/-- Where nothing is too much about a call, nothing is about its arguments. -/
theorem CallContent.arguments_fit {c : Content} (h : CallContent c) (fits : c.excess = none) :
    ∀ arg ∈ c.arguments, Literal.excess? stackRoom arg = none := by
  refine List.findSome?_eq_none_iff.mp ?_
  cases h with
  | expectation scope chain => exact (Option.or_eq_none_iff.mp fits).1
  | contextPage => rfl
  | action body owner page selector call =>
    rw [excess_classifyAction] at fits
    exact (Option.or_eq_none_iff.mp fits).2

theorem LineContent.arguments_fit {t : Text} {c : Content} (h : LineContent t c)
    (fits : c.excess = none) : ∀ arg ∈ c.arguments, Literal.excess? stackRoom arg = none := by
  cases h with
  | marked => exact nofun
  | deed _ content =>
    cases content with
    | call content => exact content.arguments_fit fits
    | jointWait => exact nofun
    | declaration => exact nofun
  | code => exact nofun
  | expression => exact nofun

theorem LineContent.isBeyond {t : Text} {c : Content} (h : LineContent t c) {e : Excess}
    (he : c.excess = some e) : e.IsBeyond := by
  cases h with
  | marked => cases he
  | deed _ content =>
    cases content with
    | call content => exact content.isBeyond he
    | jointWait => cases he
    | declaration => cases he
  | code => cases he
  | expression => cases he

theorem Statement.isBeyond_of_excess {script : Text} {s : Statement} {e : Excess}
    (hs : s ∈ Statement.ofText script) (he : s.excess = some e) : e.IsBeyond := by
  obtain ⟨t, content⟩ := exists_lineContent_of_mem hs
  exact content.isBeyond he

/-- A statement with a numeral that is too long among its arguments is too much. -/
theorem Statement.excess_of_decimals {script : Text} {s : Statement} {digits : Text}
    (hs : s ∈ Statement.ofText script) (argument : digits ∈ s.arguments)
    (decimals : ∀ c ∈ digits, isDecimal c = true) (long : longestNumeral < digits.length) :
    s.excess ≠ none := by
  intro fits
  obtain ⟨t, content⟩ := exists_lineContent_of_mem hs
  have fit := content.arguments_fit fits digits argument
  have tooMuch : Literal.excess? stackRoom digits = some (.digits digits.length) :=
    Literal.excess?_of_decimals (by decide) decimals long
  rw [tooMuch] at fit
  cases fit

/-- A script is extracted exactly if nothing in its statements is too much and some of them do
something. -/
theorem extract_eq_ok_iff {script : Text} {statements : List Statement} :
    extract script = .ok statements ↔ (∀ s ∈ Statement.ofText script, s.excess = none) ∧
      (∃ s ∈ Statement.ofText script, s.isStructural = false) ∧
      statements = Statement.ofText script := by
  have fits : (∀ s ∈ Statement.ofText script, s.excess = none) ↔
      (Statement.ofText script).findSome? (fun s => s.excess) = none :=
    List.findSome?_eq_none_iff.symm
  have acts : (∃ s ∈ Statement.ofText script, s.isStructural = false) ↔
      ¬ (Statement.ofText script).all (fun s => s.isStructural) = true := by simp
  rw [fits, acts, extract]
  split
  next e found =>
    rw [found]
    exact ⟨nofun, nofun⟩
  next found =>
    rw [found]
    split
    next idle => exact ⟨nofun, fun h => absurd idle h.2.1⟩
    next deed =>
      exact ⟨fun h => ⟨rfl, deed, (Except.ok.inj h).symm⟩, fun h => congrArg Except.ok h.2.2.symm⟩

theorem eq_ofText_of_extract {script : Text} {statements : List Statement}
    (h : extract script = .ok statements) : statements = Statement.ofText script :=
  (extract_eq_ok_iff.mp h).2.2

theorem extract_of_idle {script : Text}
    (fits : ∀ s ∈ Statement.ofText script, s.excess = none)
    (idle : ∀ s ∈ Statement.ofText script, s.isStructural = true) :
    extract script = .error (.script .nothingRecognized) := by
  rw [extract, List.findSome?_eq_none_iff.mpr fits]
  exact if_pos (List.all_eq_true.mpr idle)

/-- A statement that is too much keeps the script from being extracted. -/
theorem exists_extract_of_excess {script : Text} {s : Statement}
    (hs : s ∈ Statement.ofText script) (tooMuch : s.excess ≠ none) :
    ∃ e, extract script = .error (.excess e) ∧
      ∃ s ∈ Statement.ofText script, s.excess = some e := by
  cases found : (Statement.ofText script).findSome? fun s => s.excess with
  | none => exact absurd (List.findSome?_eq_none_iff.mp found s hs) tooMuch
  | some e =>
    refine ⟨e, ?_, List.exists_of_findSome?_eq_some found⟩
    rw [extract, found]

end PageObjects
