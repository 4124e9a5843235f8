import PageObjects.Text.Basic
import PageObjects.Script.Scan

namespace PageObjects

/-- Characters of pieces together with one separator for each. -/
def totalSize : List Text → Nat
  | [] => 0
  | p :: ps => p.length + 1 + totalSize ps

@[simp] theorem totalSize_nil : totalSize [] = 0 := rfl

@[simp] theorem totalSize_cons (p : Text) (ps : List Text) :
    totalSize (p :: ps) = p.length + 1 + totalSize ps := rfl

theorem totalSize_pieces (sep : Char → Bool) (t : Text) :
    totalSize (Text.pieces sep t) = t.length + 1 := by
  induction t with
  | nil => simp [Text.pieces]
  | cons c r ih =>
    rw [Text.pieces]
    split
    · simp [ih]
      omega
    · split
      · rename_i h
        simp [h] at ih
      · rename_i h
        simp [h] at ih
        simp
        omega

theorem totalSize_topLevelPieces (sep : Char → Bool) (region : Region) (depth : Int) (t : Text) :
    totalSize (topLevelPieces sep region depth t) = t.length + 1 := by
  induction t generalizing region depth with
  | nil => simp [topLevelPieces]
  | cons c r ih =>
    rw [topLevelPieces]
    split
    · simp [ih]
      omega
    · have ih := ih (region.next c) (depth + codeStep region c)
      split
      · rename_i h
        simp [h] at ih
      · rename_i h
        simp [h] at ih
        simp
        omega

theorem totalSize_filter_le (p : Text → Bool) (ps : List Text) :
    totalSize (ps.filter p) ≤ totalSize ps := by
  induction ps with
  | nil => simp
  | cons x xs ih =>
    rw [List.filter_cons]
    split <;> simp <;> omega

namespace Text

theorem length_trim_le (t : Text) : (trim t).length ≤ t.length := by
  have h1 := (List.dropWhile_suffix isBlank (l := t)).length_le
  have h2 := (List.dropWhile_suffix isBlank (l := (t.dropWhile isBlank).reverse)).length_le
  simp only [trim, stripWhile, dropEndWhile, List.length_reverse] at *
  omega

theorem length_joinWith_le (c : Char) {ps : List Text} {n : Nat} (h : totalSize ps ≤ n + 1) :
    (joinWith [c] ps).length ≤ n := by
  cases ps with
  | nil => simp [joinWith]
  | cons p ps =>
    induction ps generalizing p n with
    | nil =>
      simp [joinWith] at *
      omega
    | cons q qs ih =>
      simp only [totalSize_cons] at h
      have := ih q (n := n - (p.length + 1)) (by simp only [totalSize_cons]; omega)
      simp only [joinWith, List.intercalate_cons_cons, List.length_append] at *
      simp at *
      omega

theorem length_squeeze_le (t : Text) : (squeeze t).length ≤ t.length :=
  length_joinWith_le ' ' <|
    Nat.le_trans (totalSize_filter_le _ _) (Nat.le_of_eq (totalSize_pieces isBlank t))

end Text

theorem totalSize_map_trim_le (ps : List Text) : totalSize (ps.map Text.trim) ≤ totalSize ps := by
  induction ps with
  | nil => simp
  | cons p ps ih =>
    have := Text.length_trim_le p
    simp
    omega

theorem totalSize_splitTopLevel_le (sep : Char → Bool) (t : Text) :
    totalSize (splitTopLevel sep t) ≤ t.length + 1 :=
  Nat.le_trans (totalSize_filter_le _ _) <| Nat.le_trans (totalSize_map_trim_le _) <|
    Nat.le_of_eq (totalSize_topLevelPieces sep .code 0 t)

theorem length_le_totalSize {p : Text} {ps : List Text} (h : p ∈ ps) :
    p.length + 1 ≤ totalSize ps := by
  induction ps with
  | nil => simp at h
  | cons x xs ih =>
    rcases List.mem_cons.mp h with rfl | h
    · simp
    · have := ih h
      simp
      omega

theorem length_le_of_mem_splitTopLevel {sep : Char → Bool} {t p : Text}
    (h : p ∈ splitTopLevel sep t) : p.length ≤ t.length := by
  have h1 := length_le_totalSize h
  have h2 := totalSize_splitTopLevel_le sep t
  omega

/-- All parts but the first, joined again, are no longer than the text they come from. -/
theorem length_joinWith_tail_le {sep : Char → Bool} (c : Char) {t p : Text} {ps : List Text}
    (h : splitTopLevel sep t = p :: ps) : (Text.joinWith [c] ps).length ≤ t.length := by
  refine Text.length_joinWith_le c ?_
  have := totalSize_splitTopLevel_le sep t
  rw [h, totalSize_cons] at this
  omega

end PageObjects
