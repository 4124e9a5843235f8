import PageObjects.Locator.XPath
import PageObjects.Proofs.Text.Ascii
import PageObjects.Proofs.Text.Search
import PageObjects.Proofs.Text.Trim

namespace PageObjects

namespace Text

variable {v : Text} {mark : Char}

theorem cutAt_append (other : mark ∉ v) (r : Text) : cutAt mark (v ++ mark :: r) = (v, some r) := by
  induction v with
  | nil => rw [List.nil_append, cutAt, if_pos rfl]
  | cons c v ih =>
    rw [List.mem_cons, not_or] at other
    rw [List.cons_append, cutAt, if_neg (Ne.symm other.1), ih other.2]

/-- A text in quotes is read up to the next quotation mark of the kind. -/
theorem quotedBy?_append (other : mark ∉ v) (r : Text) :
    quotedBy? mark (mark :: (v ++ mark :: r)) = some (v, r) := by
  rw [quotedBy?, if_pos rfl, cutAt_append other]

theorem quotedBy?_other {c : Char} (other : c ≠ mark) (r : Text) : quotedBy? mark (c :: r) = none :=
  if_neg other

theorem trimStart_cons {c : Char} (visible : isBlank c = false) (r : Text) :
    trimStart (c :: r) = c :: r := by
  refine trimStart_eq_self fun d hd => ?_
  obtain rfl := Option.some.inj hd
  exact visible

theorem afterMark?_self (visible : isBlank mark = false) (r : Text) :
    afterMark? mark (mark :: r) = some r := by
  rw [afterMark?, trimStart_cons visible]
  exact if_pos rfl

/-- Small letters of ASCII do not depend on what stands around them. -/
theorem lower_of_ascii {t : Text} (ascii : ∀ c ∈ t, c.toNat < 128) :
    lower t = t.map Char.toLower := by
  have all : ∀ before, lowerAfter before t = t.map Char.toLower := by
    induction t with
    | nil => exact fun _ => rfl
    | cons c r ih =>
      obtain ⟨first, ascii⟩ := List.forall_mem_cons.mp ascii
      intro before
      rw [lowerAfter, if_pos first, ih ascii]
      rfl
  exact all []

end Text

namespace Details

/-- A detail that is there or not is one of a list of one. -/
theorem optional_sublist {α : Type} (o : Option α) (f : α → Detail) (a : α) :
    (o.map f).toList.Sublist [f (o.getD a)] := by
  cases o with
  | none => exact List.nil_sublist _
  | some b => exact List.Sublist.refl _

theorem listed_sublist (absent : Bool) (d : Detail) :
    (if absent then [] else [d] : Details).Sublist [d] := by
  cases absent with
  | true => exact List.nil_sublist _
  | false => exact List.Sublist.refl _

/-- Attributes that are given once are the ones that are found. -/
theorem attributes_eq {ds : Details} {pairs : List (Text × Text)}
    (alone : ds.Pairwise fun d e => d.sameKind e = false) (own : .attributes pairs ∈ ds) :
    ds.attributes = pairs := by
  induction ds with
  | nil => cases own
  | cons d ds ih =>
    obtain ⟨first, alone⟩ := List.pairwise_cons.mp alone
    rcases List.mem_cons.mp own with rfl | own
    · rfl
    · have apart := first _ own
      have rest := ih alone own
      cases d with
      | attributes => cases apart
      | _ => exact rest

theorem attributes_eq_nil {ds : Details} (noPairs : ∀ pairs, .attributes pairs ∉ ds) :
    ds.attributes = [] := by
  induction ds with
  | nil => rfl
  | cons d ds ih =>
    have rest := ih fun pairs own => noPairs pairs (List.mem_cons_of_mem _ own)
    cases d with
    | attributes pairs => exact absurd List.mem_cons_self (noPairs pairs)
    | _ => exact rest

theorem listed_iff {α : Type} {as bs : List α} : ¬ as = [] ∧ bs = as ↔ ¬ bs = [] ∧ bs = as := by
  constructor <;> rintro ⟨filled, rfl⟩ <;> exact ⟨filled, rfl⟩

end Details

/-- Characters of names in ASCII. -/
def isAsciiNamePart (c : Char) : Bool := c.isAlphanum || c == '_' || c == '-'

/-- A name in ASCII: a letter, then letters, digits, underscores and hyphens. -/
structure AsciiName where
  first : Char
  rest : Text
  letter : first.isAlpha = true
  made : ∀ c ∈ rest, isAsciiNamePart c = true

theorem isAsciiNamePart_iff {c : Char} :
    isAsciiNamePart c = true ↔ (c.isAlpha = true ∨ c.isDigit = true) ∨ c = '_' ∨ c = '-' := by
  have alphanumeric : c.isAlphanum = (c.isAlpha || c.isDigit) := rfl
  rw [isAsciiNamePart, Bool.or_eq_true, Bool.or_eq_true, beq_iff_eq, beq_iff_eq, alphanumeric,
    Bool.or_eq_true, or_assoc]

/-- Names in ASCII are names wherever names are read. -/
theorem isNamePart_of_isAsciiNamePart {c : Char} (h : isAsciiNamePart c = true) :
    isNamePart c = true ∧ isAttributePart c = true ∧ c.toNat < 128 := by
  rcases isAsciiNamePart_iff.mp h with (letter | digit) | rfl | rfl
  · have word := isWord_of_isAlpha letter
    exact ⟨by rw [isNamePart, word, Bool.true_or], by rw [isAttributePart, word]; rfl,
      toNat_lt_of_isAlpha letter⟩
  · have word := isWord_of_isDigit digit
    have range := toNat_of_isDigit digit
    exact ⟨by rw [isNamePart, word, Bool.true_or], by rw [isAttributePart, word]; rfl, by omega⟩
  · exact ⟨rfl, rfl, by decide⟩
  · exact ⟨rfl, rfl, by decide⟩

theorem ne_of_isAsciiNamePart {c d : Char} (h : isAsciiNamePart c = true)
    (other : isAsciiNamePart d = false) : c ≠ d := by
  rintro rfl
  rw [h] at other
  cases other

namespace AsciiName

variable {name : AsciiName} {c : Char} {r : Text}

def text (name : AsciiName) : Text := name.first :: name.rest

theorem isAsciiNamePart_of_mem (name : AsciiName) : ∀ c ∈ name.text, isAsciiNamePart c = true := by
  refine List.forall_mem_cons.mpr ⟨?_, name.made⟩
  exact isAsciiNamePart_iff.mpr (.inl (.inl name.letter))

theorem notMem (name : AsciiName) (other : isAsciiNamePart c = false) : c ∉ name.text :=
  fun hc => ne_of_isAsciiNamePart (name.isAsciiNamePart_of_mem c hc) other rfl

theorem text_ne_nil (name : AsciiName) : name.text ≠ [] := List.cons_ne_nil _ _

theorem isNamePart_of_mem (hc : c ∈ name.text) : isNamePart c = true :=
  (isNamePart_of_isAsciiNamePart (name.isAsciiNamePart_of_mem c hc)).1

theorem isBlank_of_mem (hc : c ∈ name.text) : isBlank c = false :=
  isBlank_of_class (by decide) (name.isAsciiNamePart_of_mem c hc)

theorem lower_text (name : AsciiName) : Text.lower name.text = name.text.map Char.toLower :=
  Text.lower_of_ascii fun c hc =>
    (isNamePart_of_isAsciiNamePart (name.isAsciiNamePart_of_mem c hc)).2.2

/-- A name of a selector ends where no character of names follows. -/
theorem takeWhile_append (name : AsciiName) (stop : ∀ c ∈ r.head?, isNamePart c = false) :
    (name.text ++ r).takeWhile isNamePart = name.text ∧
      (name.text ++ r).dropWhile isNamePart = r :=
  Text.takeWhile_append (fun _ hc => isNamePart_of_mem hc) stop

theorem run?_append (name : AsciiName) (stop : ∀ c ∈ r.head?, isAttributePart c = false) :
    Text.run? isAttributePart (name.text ++ r) = some (name.text, r) :=
  Text.run?_append name.text_ne_nil
    (fun c hc => (isNamePart_of_isAsciiNamePart (name.isAsciiNamePart_of_mem c hc)).2.1) stop

theorem leadingName?_append (name : AsciiName) (stop : ∀ c ∈ r.head?, isNamePart c = false) :
    Css.leadingName? (name.text ++ r) = some name.text := by
  have own : ∀ c ∈ name.rest, isNamePart c = true := fun c hc =>
    isNamePart_of_mem (List.mem_cons_of_mem _ hc)
  rw [text, List.cons_append, Css.leadingName?, if_pos name.letter,
    (Text.takeWhile_append own stop).1]

end AsciiName

/-- Characters that neither quote nor open nor close anything in a selector. -/
def isUnmarked (c : Char) : Bool :=
  !(c == '\'' || c == '"' || c == '[' || c == ']' || c == '(' || c == ')')

theorem ne_of_isUnmarked {c d : Char} (h : isUnmarked c = true) (other : isUnmarked d = false) :
    c ≠ d := by
  rintro rfl
  rw [h] at other
  cases other

theorem notMem_of_isUnmarked {t : Text} (h : ∀ c ∈ t, isUnmarked c = true) {d : Char}
    (other : isUnmarked d = false) : d ∉ t :=
  fun hd => ne_of_isUnmarked (h d hd) other rfl

theorem isUnmarked_of_isAsciiNamePart {c : Char} (h : isAsciiNamePart c = true) :
    isUnmarked c = true := by
  have other : ∀ d, isAsciiNamePart d = false → (c == d) = false := fun _ hd =>
    beq_false_of_ne (ne_of_isAsciiNamePart h hd)
  rw [isUnmarked, other '\'' rfl, other '"' rfl, other '[' rfl, other ']' rfl, other '(' rfl,
    other ')' rfl]
  rfl

namespace Css

variable {s t v r : Text}

theorem withoutBlocks_nil : withoutBlocks [] = [] := by
  rw [withoutBlocks]
  rfl

theorem withoutBlocks_cons {c : Char} (square : c ≠ '[') (round : c ≠ '(') (r : Text) :
    withoutBlocks (c :: r) = c :: withoutBlocks r := by
  have noBlock : afterBlock? (c :: r) = none := by
    rw [afterBlock?.eq_def]
    split
    next h => exact absurd (List.cons.inj h).1 square
    next h => exact absurd (List.cons.inj h).1 round
    next => rfl
  rw [withoutBlocks]
  split
  next block =>
    rw [noBlock] at block
    cases block
  next => rfl

theorem withoutBlocks_of_afterBlock? {rest : Text} (h : afterBlock? t = some rest) :
    withoutBlocks t = withoutBlocks rest := by
  rw [withoutBlocks]
  split
  next block =>
    rw [h] at block
    cases block
    rfl
  next noBlock =>
    rw [h] at noBlock
    cases noBlock

/-- Text that opens no block stays. -/
theorem withoutBlocks_append (h : ∀ c ∈ s, isUnmarked c = true) (r : Text) :
    withoutBlocks (s ++ r) = s ++ withoutBlocks r := by
  induction s with
  | nil => rfl
  | cons c s ih =>
    obtain ⟨first, h⟩ := List.forall_mem_cons.mp h
    rw [List.cons_append, withoutBlocks_cons (ne_of_isUnmarked first rfl)
      (ne_of_isUnmarked first rfl), ih h, List.cons_append]

theorem withoutBlocks_square (h : ']' ∉ v) (r : Text) :
    withoutBlocks ('[' :: (v ++ ']' :: r)) = withoutBlocks r := by
  apply withoutBlocks_of_afterBlock?
  rw [afterBlock?, Text.cutAt_append h]

theorem afterRound?_append (h : ∀ c ∈ v, isUnmarked c = true) (r : Text) :
    afterRound? 1 (v ++ ')' :: r) = some r := by
  induction v with
  | nil => rfl
  | cons c v ih =>
    obtain ⟨first, h⟩ := List.forall_mem_cons.mp h
    rw [List.cons_append, afterRound?, if_neg (ne_of_isUnmarked first rfl),
      if_neg (ne_of_isUnmarked first rfl), ih h]

theorem withoutBlocks_round (h : ∀ c ∈ v, isUnmarked c = true) (r : Text) :
    withoutBlocks ('(' :: (v ++ ')' :: r)) = withoutBlocks r :=
  withoutBlocks_of_afterBlock? (afterRound?_append h r)

end Css

end PageObjects
