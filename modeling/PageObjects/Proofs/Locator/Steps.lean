import PageObjects.Proofs.Locator.Stable
import PageObjects.Proofs.Script.Rendering

namespace PageObjects

open Text

namespace Segment

theorem exists_enclosed_append (inner : Text) :
    ∃ gap, inner = (enclosed inner).1 ++ gap ++ (enclosed inner).2 := by
  rw [enclosed]
  cases cut : cutAtCloser .code 1 inner with
  | none => exact ⟨[], by simp⟩
  | some pair =>
    obtain ⟨args, rest⟩ := pair
    obtain ⟨c, -, rfl, -⟩ := (cutAtCloser_eq_some_iff Nat.one_pos).mp cut
    exact ⟨[c], by simp⟩

/-- The arguments of a step that is read stand in the text, and so does what follows the step. -/
theorem infix_of_read? {t r : Text} {s : Segment} (h : read? t = some (s, r)) :
    (∀ args ∈ s.args, args <:+: t) ∧ r <:+ t := by
  obtain ⟨-, lead, -, ⟨property, rfl⟩ | ⟨inner, rfl, call, rfl⟩⟩ := exists_of_read? h
  · exact ⟨by simp [property], List.suffix_append lead r⟩
  · obtain ⟨gap, split⟩ := exists_enclosed_append inner
    have behind : inner <:+ lead ++ '(' :: inner :=
      (List.suffix_cons '(' inner).trans (List.suffix_append lead _)
    constructor
    · intro args ha
      obtain rfl := Option.some.inj (call.symm.trans ha)
      have front : (enclosed inner).1 <+: inner := by
        refine ⟨gap ++ (enclosed inner).2, ?_⟩
        rw [← List.append_assoc, ← split]
      exact (infix_trim _).trans (front.isInfix.trans behind.isInfix)
    · exact List.IsSuffix.trans ⟨_, split.symm⟩ behind

end Segment

namespace Chain

theorem suffix_of_afterDot? {r r' : Text} (h : afterDot? (trimStart r) = some r') : r' <:+ r := by
  obtain ⟨lead, rfl, -⟩ := exists_of_afterDot? h
  exact List.suffix_append lead r'

theorem infix_of_mem_readSteps {t : Text} :
    ∀ step ∈ (readSteps t).1, ∀ args ∈ step.2.args, args <:+: t := by
  fun_induction readSteps t with
  | case1 => exact List.forall_mem_nil _
  | case2 t s r hstep hdot =>
    exact List.forall_mem_singleton.mpr (Segment.infix_of_read? hstep).1
  | case3 t s r hstep r' hdot ih =>
    obtain ⟨own, behind⟩ := Segment.infix_of_read? hstep
    have rest : r' <:+: t := ((suffix_of_afterDot? hdot).trans behind).isInfix
    exact List.forall_mem_cons.mpr ⟨own, fun step hs args ha => (ih step hs args ha).trans rest⟩

/-- The arguments of the calls of a chain stand in the text that it is read from. -/
theorem infix_of_mem_segments {t : Text} {s : Segment} (hs : s ∈ (parse t).segments) :
    ∀ args ∈ s.args, args <:+: t := by
  rw [parse_eq_ofSteps] at hs
  obtain ⟨step, hstep, rfl⟩ := List.mem_map.mp ((List.dropWhile_sublist _).mem hs)
  exact fun args ha => (infix_of_mem_readSteps step hstep args ha).trans (infix_trim t)

end Chain

/-- Arguments as they stand in a neat script. -/
structure AreArguments (args : Text) : Prop extends Tidy args where
  balanced : Balanced args
  free : ∀ arg ∈ splitArguments args, FreeKeys arg

def normalizeArguments (args : Text) : Text :=
  joinWith [',', ' '] ((splitArguments args).map normalizeValue)

theorem IsInert.sinksAt {c : Char} (h : IsInert c) (depth : Int) : sinksAt depth c = false := by
  rw [PageObjects.sinksAt, h.closer, Bool.false_and]

namespace AreArguments

variable {args arg : Text}

theorem isValue (h : AreArguments args) (harg : arg ∈ splitArguments args) : IsValue arg :=
  isValue_of_mem_splitTopLevel h.toTidy h.balanced.settled harg

theorem neat (h : AreArguments args) (harg : arg ∈ splitArguments args) :
    Neat (normalizeValue arg) :=
  neat_normalizeValue (h.free arg harg) (h.isValue harg)

theorem isPart (h : AreArguments args) (harg : arg ∈ splitArguments args) :
    IsPart isComma (normalizeValue arg) :=
  isPart_normalizeValue IsInert.comma (h.free arg harg) (h.isValue harg)
    (isPart_of_mem_splitTopLevel h.balanced.settled harg)

theorem splitArguments_normalizeArguments (h : AreArguments args) :
    splitArguments (normalizeArguments args) = (splitArguments args).map normalizeValue :=
  splitArguments_joinWith (List.forall_mem_map.mpr fun _ harg => h.isPart harg)

theorem normalizeArguments_normalizeArguments (h : AreArguments args) :
    normalizeArguments (normalizeArguments args) = normalizeArguments args := by
  have same : (splitArguments args).map (normalizeValue ∘ normalizeValue) =
      (splitArguments args).map normalizeValue :=
    List.map_congr_left fun arg harg =>
      normalizeValue_normalizeValue (h.free arg harg) (h.isValue harg)
  rw [normalizeArguments, h.splitArguments_normalizeArguments, List.map_map, same,
    ← normalizeArguments]

/-- What the arguments open they close, and no more than that. -/
theorem balanced_normalizeArguments (h : AreArguments args) :
    Balanced (normalizeArguments args) := by
  have parts : Partwise 0 fun d t => Avoids sinksAt .code d t :=
    partwise_avoids fun _ inert => inert.sinksAt _
  obtain ⟨settled, floats⟩ := balanced_iff.mp h.balanced
  obtain ⟨each, mark⟩ := parts.split (Int.le_refl 0) eq_of_isComma settled floats
  refine balanced_iff.mpr (parts.joined (Int.le_refl 0) isPlain_comma isBlank_of_mem_space ?_ ?_)
  · exact List.forall_mem_map.mpr fun arg harg =>
      parts.normalize (h.free arg harg) (Int.le_refl 0) (h.isValue harg) (each arg harg)
  · rwa [List.length_map]

theorem neat_normalizeArguments (h : AreArguments args) (filled : splitArguments args ≠ []) :
    Neat (normalizeArguments args) :=
  neat_joinWith_comma (by simpa using filled) (List.forall_mem_map.mpr fun _ harg => h.neat harg)

end AreArguments

namespace Segment

/-- A step as it stands in a neat script. -/
structure IsStep (s : Segment) : Prop where
  name : isIdentifier s.name = true
  arguments : ∀ args ∈ s.args, AreArguments args

@[simp] theorem isCall_normalize (s : Segment) : s.normalize.isCall = s.isCall :=
  Option.isSome_map

@[simp] theorem isAccessor_normalize (s : Segment) : isAccessor s.normalize = isAccessor s := rfl

namespace IsStep

variable {s : Segment}

theorem of_mem_arguments (h : s.IsStep) {arg : Text} (harg : arg ∈ s.arguments) :
    FreeKeys arg ∧ IsValue arg := by
  obtain ⟨name, args⟩ := s
  cases args with
  | none => cases harg
  | some args =>
    have own := h.arguments args rfl
    exact ⟨own.free arg harg, own.isValue harg⟩

theorem arguments_normalize (h : s.IsStep) :
    s.normalize.arguments = s.arguments.map normalizeValue := by
  obtain ⟨name, args⟩ := s
  cases args with
  | none => rfl
  | some args => exact (h.arguments args rfl).splitArguments_normalizeArguments

theorem normalize_normalize (h : s.IsStep) : s.normalize.normalize = s.normalize := by
  obtain ⟨name, args⟩ := s
  cases args with
  | none => rfl
  | some args =>
    have same := (h.arguments args rfl).normalizeArguments_normalizeArguments
    exact congrArg (fun args : Text => (⟨name, some args⟩ : Segment)) same

theorem wellFormed_normalize (h : s.IsStep) : s.normalize.WellFormed := by
  obtain ⟨name, args⟩ := s
  refine ⟨h.name, ?_, ?_⟩
  · intro args' ha
    obtain ⟨args, own, rfl⟩ := Option.map_eq_some_iff.mp ha
    by_cases empty : splitArguments args = []
    · rw [empty]
      rfl
    · exact ((h.arguments args own).neat_normalizeArguments empty).trim_eq
  · intro args' ha
    obtain ⟨args, own, rfl⟩ := Option.map_eq_some_iff.mp ha
    exact (h.arguments args own).balanced_normalizeArguments

theorem neat_name (h : s.IsStep) : Neat s.name := by
  obtain ⟨c, r, whole⟩ := exists_cons_of_isIdentifier h.name
  refine .of_words (by simp [whole]) ?_
  exact fun c hc => isBlank_of_isIdentifierPart (isIdentifierPart_of_mem h.name c hc)

theorem neat_render (h : s.IsStep) : Neat s.normalize.render := by
  have name := h.neat_name
  obtain ⟨name', args⟩ := s
  cases args with
  | none => exact name
  | some args =>
    have opened : Neat ['('] := .singleton rfl
    have closed : Neat [')'] := .singleton rfl
    have apart : (⟨name', some args⟩ : Segment).normalize.render =
        (name' ++ ['(']) ++ (normalizeArguments args ++ [')']) := by
      simp [render, normalize, normalizeArguments]
    rw [apart]
    refine (name.append opened).append ?_
    by_cases empty : splitArguments args = []
    · rw [normalizeArguments, empty]
      exact closed
    · exact ((h.arguments args rfl).neat_normalizeArguments empty).append closed

end IsStep

end Segment

theorem neat_renderSegments {steps : List Segment} (filled : steps ≠ [])
    (h : ∀ s ∈ steps, s.IsStep) : Neat (renderSegments (steps.map Segment.normalize)) := by
  have dot : Neat ['.'] := .singleton rfl
  rw [renderSegments, List.map_map]
  refine joinWith_induction (fun _ _ hs ht => (hs.append dot).append ht) (by simpa using filled) ?_
  exact List.forall_mem_map.mpr fun s hs => (h s hs).neat_render

end PageObjects
