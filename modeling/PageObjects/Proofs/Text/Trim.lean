import Mathlib.Data.List.DropRight
import PageObjects.Text.Basic

namespace PageObjects

/-- The code points of all blanks. -/
def blankPoints : List Nat := [
  9, 10, 11, 12, 13, 28, 29, 30, 31, 32, 0x85, 0xA0, 0x1680, 0x2000, 0x2001, 0x2002, 0x2003, 0x2004,
  0x2005, 0x2006, 0x2007, 0x2008, 0x2009, 0x200A, 0x2028, 0x2029, 0x202F, 0x205F, 0x3000]

theorem toNat_mem_blankPoints {c : Char} (h : isBlank c = true) : c.toNat ∈ blankPoints := by
  simp only [isBlank, Bool.or_eq_true, Bool.and_eq_true, decide_eq_true_eq, beq_iff_eq] at h
  simp only [blankPoints, List.mem_cons, List.not_mem_nil, or_false]
  omega

/-- A class of characters that holds of no blank holds of others only. -/
theorem isBlank_of_class {p : Char → Bool} (others : (blankPoints.map Char.ofNat).any p = false)
    {c : Char} (h : p c = true) : isBlank c = false := by
  refine Bool.eq_false_iff.mpr ?_
  intro blank
  have own := List.mem_map_of_mem (f := Char.ofNat) (toNat_mem_blankPoints blank)
  rw [Char.ofNat_toNat] at own
  exact List.any_eq_false.mp others c own h

namespace Text

variable {t : Text}

theorem dropEndWhile_eq_rdropWhile (p : Char → Bool) (t : Text) :
    dropEndWhile p t = List.rdropWhile p t := rfl

section Strip

variable (p : Char → Bool)

theorem front_dropWhile (t : Text) : ∀ c ∈ (t.dropWhile p).head?, p c = false := by
  intro c hc
  have kept := List.head?_dropWhile_not p t
  rw [Option.mem_def.mp hc] at kept
  exact kept

theorem front_stripWhile (t : Text) : ∀ c ∈ (stripWhile p t).head?, p c = false := by
  intro c hc
  obtain ⟨tail, whole⟩ := List.rdropWhile_prefix p (l := t.dropWhile p)
  refine front_dropWhile p t c ?_
  rw [← whole]
  exact List.mem_head?_append_of_mem_head? hc

theorem back_dropEndWhile (t : Text) : ∀ c ∈ (dropEndWhile p t).getLast?, p c = false := by
  intro c hc
  obtain ⟨filled, rfl⟩ := List.mem_getLast?_eq_getLast hc
  exact Bool.eq_false_iff.mpr (List.rdropWhile_last_not p _ filled)

theorem back_stripWhile (t : Text) : ∀ c ∈ (stripWhile p t).getLast?, p c = false :=
  back_dropEndWhile p (t.dropWhile p)

variable {p}

theorem dropWhile_eq_self (front : ∀ c ∈ t.head?, p c = false) : t.dropWhile p = t := by
  cases t with
  | nil => rfl
  | cons c r => exact List.dropWhile_cons_of_neg (by simp [front c rfl])

theorem stripWhile_eq_self (front : ∀ c ∈ t.head?, p c = false)
    (back : ∀ c ∈ t.getLast?, p c = false) : stripWhile p t = t := by
  rw [stripWhile, dropWhile_eq_self front, dropEndWhile_eq_rdropWhile, List.rdropWhile_eq_self_iff]
  intro filled
  exact Bool.eq_false_iff.mp (back _ (List.getLast?_eq_some_getLast filled))

theorem dropEndWhile_append {s : Text} (all : ∀ c ∈ t, p c = true)
    (back : ∀ c ∈ s.getLast?, p c = false) : dropEndWhile p (s ++ t) = s := by
  have all : ∀ c ∈ t.reverse, p c = true := fun c hc => all c (List.mem_reverse.mp hc)
  rw [dropEndWhile, List.reverse_append, List.dropWhile_append_of_pos all,
    dropWhile_eq_self (by rwa [List.head?_reverse]), List.reverse_reverse]

@[simp] theorem stripWhile_stripWhile (t : Text) :
    stripWhile p (stripWhile p t) = stripWhile p t :=
  stripWhile_eq_self (front_stripWhile p t) (back_stripWhile p t)

theorem infix_stripWhile (t : Text) : stripWhile p t <:+: t := by
  rw [stripWhile, dropEndWhile_eq_rdropWhile]
  exact (List.rdropWhile_prefix p _).isInfix.trans (List.dropWhile_suffix p).isInfix

end Strip

/-- A text that starts with no blank is not cut at its front. -/
theorem trimStart_eq_self (front : ∀ c ∈ t.head?, isBlank c = false) : trimStart t = t :=
  dropWhile_eq_self front

theorem front_trim (t : Text) : ∀ c ∈ (trim t).head?, isBlank c = false :=
  front_stripWhile isBlank t

theorem back_trim (t : Text) : ∀ c ∈ (trim t).getLast?, isBlank c = false :=
  back_stripWhile isBlank t

/-- A text that neither starts nor ends with a blank is trimmed already. -/
theorem trim_eq_self (front : ∀ c ∈ t.head?, isBlank c = false)
    (back : ∀ c ∈ t.getLast?, isBlank c = false) : trim t = t :=
  stripWhile_eq_self front back

@[simp] theorem trim_trim (t : Text) : trim (trim t) = trim t := stripWhile_stripWhile t

/-- A text that starts and ends with trimmed ones is trimmed, whatever stands between them. -/
theorem trim_between {s : Text} (first : trim s = s) (lead : s ≠ []) (last : trim t = t)
    (tail : t ≠ []) (gap : Text) : trim (s ++ gap ++ t) = s ++ gap ++ t := by
  have front := front_trim s
  have back := back_trim t
  rw [first] at front
  rw [last] at back
  apply trim_eq_self
  · rwa [List.append_assoc, List.head?_append_of_ne_nil _ lead]
  · rwa [List.getLast?_append_of_ne_nil _ tail]

theorem trim_append {s : Text} (first : trim s = s) (last : trim t = t) :
    trim (s ++ t) = s ++ t := by
  by_cases lead : s = []
  · rw [lead, List.nil_append, last]
  by_cases tail : t = []
  · rw [tail, List.append_nil, first]
  have between := trim_between first lead last tail []
  rwa [List.append_nil] at between

theorem trim_of_words (words : ∀ c ∈ t, isBlank c = false) : trim t = t :=
  trim_eq_self (fun c hc => words c (List.mem_of_mem_head? hc))
    fun c hc => words c (List.mem_of_getLast? hc)

theorem infix_trim (t : Text) : trim t <:+: t := infix_stripWhile t

theorem trim_append_of_blank {s : Text} (blank : ∀ c ∈ s, isBlank c = true) (t : Text) :
    trim (s ++ t) = trim t := by
  rw [trim, trim, stripWhile, stripWhile, List.dropWhile_append_of_pos blank]

theorem trim_append_blanks {s : Text} (blank : ∀ c ∈ s, isBlank c = true) (t : Text) :
    trim (t ++ s) = trim t := by
  have kept : ∀ u : Text, dropEndWhile isBlank (u ++ s) = dropEndWhile isBlank u := by
    intro u
    rw [dropEndWhile, dropEndWhile, List.reverse_append,
      List.dropWhile_append_of_pos fun c hc => blank c (List.mem_reverse.mp hc)]
  rw [trim, trim, stripWhile, stripWhile, List.dropWhile_append]
  split
  next blankFirst =>
    have gone : s.dropWhile isBlank = [] := List.dropWhile_eq_nil_iff.mpr blank
    rw [gone, List.isEmpty_iff.mp blankFirst]
  next => exact kept _

/-- Trimming cuts off blanks only. -/
theorem exists_trim_append (t : Text) : ∃ lead tail, t = lead ++ trim t ++ tail ∧
    (∀ c ∈ lead, isBlank c = true) ∧ ∀ c ∈ tail, isBlank c = true := by
  refine ⟨t.takeWhile isBlank, (t.dropWhile isBlank).rtakeWhile isBlank, ?_, ?_, ?_⟩
  · rw [trim, stripWhile, dropEndWhile_eq_rdropWhile, List.append_assoc,
      List.rdropWhile_append_rtakeWhile, List.takeWhile_append_dropWhile]
  · exact fun c hc => List.mem_takeWhile_imp hc
  · exact fun c hc => List.mem_rtakeWhile_imp hc

end Text

end PageObjects
