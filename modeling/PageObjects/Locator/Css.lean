import PageObjects.Locator.Basic
import PageObjects.Text.Case
import PageObjects.Text.Search

namespace PageObjects

/-- Characters of names in selectors. -/
def isNamePart (c : Char) : Bool := isWord c || c == '-'

/-- Characters of attribute names. -/
def isAttributePart (c : Char) : Bool := isWord c || c == ':' || c == '-'

def isCombinator (c : Char) : Bool := isBlank c || c == '>' || c == '+' || c == '~'

namespace Css

/-- The pieces of a selector between the combinators outside quotes and brackets. `quote` is the
quotation mark of the string the text starts in, if any. -/
def compoundPieces (quote : Option Char) (depth : Int) : Text → List Text
  | [] => [[]]
  | c :: r =>
    let keep (pieces : List Text) : List Text :=
      match pieces with
      | [] => [[c]]
      | p :: ps => (c :: p) :: ps
    match quote with
    | some q => keep (compoundPieces (if c = q then none else some q) depth r)
    | none =>
      if c = '\'' ∨ c = '"' then keep (compoundPieces (some c) depth r)
      else if c = '[' ∨ c = '(' then keep (compoundPieces none (depth + 1) r)
      else if c = ']' ∨ c = ')' then keep (compoundPieces none (depth - 1) r)
      else if depth = 0 ∧ isCombinator c then [] :: compoundPieces none depth r
      else keep (compoundPieces none depth r)

/-- The compounds of a selector, without the combinators. -/
def compounds (t : Text) : List Text :=
  ((compoundPieces none 0 t).map Text.trim).filter fun p => !p.isEmpty

/-- What follows the round bracket that closes `depth` open ones; at most two may be open. -/
def afterRound? (depth : Nat) : Text → Option Text
  | [] => none
  | c :: r =>
    if c = '(' then if depth < 2 then afterRound? (depth + 1) r else none
    else if c = ')' then if depth ≤ 1 then some r else afterRound? (depth - 1) r
    else afterRound? depth r

/-- What follows the bracketed block at the start of a text. -/
def afterBlock? : Text → Option Text
  | '[' :: r =>
    match Text.cutAt ']' r with
    | (_, some rest) => some rest
    | _ => none
  | '(' :: r => afterRound? 1 r
  | _ => none

theorem length_of_afterRound? {depth : Nat} {t rest : Text} (h : afterRound? depth t = some rest) :
    rest.length < t.length := by
  induction t generalizing depth with
  | nil => simp [afterRound?] at h
  | cons c r ih =>
    rw [afterRound?] at h
    simp only [List.length_cons]
    split at h
    · split at h
      · have := ih h
        omega
      · simp at h
    · split at h
      · split at h
        · obtain rfl := Option.some.inj h
          omega
        · have := ih h
          omega
      · have := ih h
        omega

theorem length_of_afterBlock? {t rest : Text} (h : afterBlock? t = some rest) :
    rest.length < t.length := by
  rw [afterBlock?.eq_def] at h
  split at h
  · split at h
    · rename_i hcut
      obtain rfl := Option.some.inj h
      have := Text.length_of_cutAt hcut
      simp only [List.length_cons]
      omega
    · simp at h
  · have := length_of_afterRound? h
    simp only [List.length_cons]
    omega
  · simp at h

/-- A selector without its bracketed blocks. A bracket that does not close stays. -/
def withoutBlocks (t : Text) : Text :=
  match _hblock : afterBlock? t with
  | some rest => withoutBlocks rest
  | none =>
    match t with
    | [] => []
    | c :: r => c :: withoutBlocks r
termination_by t.length
decreasing_by
  · exact length_of_afterBlock? _hblock
  · simp

/-- A flag that may close an attribute block. -/
def dropFlag : Text → Text
  | c :: r => if c = 'i' ∨ c = 's' then r else c :: r
  | [] => []

/-- What follows the closing bracket of an attribute block, which a flag may precede. -/
def afterAttribute? (t : Text) : Option Text :=
  Text.afterMark? ']' (dropFlag (Text.trimStart t))

/-- What follows the operator of an attribute block. -/
def afterOperator? : Text → Option Text
  | '=' :: r => some (Text.trimStart r)
  | c :: '=' :: r =>
    if c = '*' ∨ c = '^' ∨ c = '$' ∨ c = '|' ∨ c = '~' then some (Text.trimStart r) else none
  | _ => none

def isBareValue (c : Char) : Bool := c != ']' && !isBlank c

/-- The value of an attribute block and what follows the block: a value in quotes, or a bare one.
Text in quotes that the block does not end behind is a bare value. -/
def attributeValue? (t : Text) : Option (Text × Text) :=
  let inQuotes := (Text.quoted? t).bind fun (value, r) =>
    (afterAttribute? r).map fun rest => (value, rest)
  inQuotes.or ((afterAttribute? (t.dropWhile isBareValue)).map fun rest =>
    (t.takeWhile isBareValue, rest))

/-- The attribute block at the start of a text: name, value and what follows it. -/
def attributeBlock? : Text → Option ((Text × Text) × Text)
  | '[' :: r => do
    let (name, r) ← Text.run? isAttributePart (Text.trimStart r)
    let r := Text.trimStart r
    match (afterOperator? r).bind attributeValue? with
    | some (value, rest) => some ((name, value), rest)
    | none => (afterAttribute? r).map fun rest => ((name, []), rest)
  | _ => none

theorem length_of_afterAttribute? {t rest : Text} (h : afterAttribute? t = some rest) :
    rest.length < t.length := by
  rw [afterAttribute?] at h
  have h1 := Text.length_of_afterMark? h
  have h2 : (dropFlag (Text.trimStart t)).length ≤ (Text.trimStart t).length := by
    cases Text.trimStart t with
    | nil => simp [dropFlag]
    | cons c r => rw [dropFlag]; split <;> simp
  have h3 := Text.length_dropWhile_le isBlank t
  simp only [Text.trimStart] at *
  omega

theorem length_of_attributeValue? {t value rest : Text}
    (h : attributeValue? t = some (value, rest)) : rest.length < t.length := by
  rw [attributeValue?, Option.or_eq_some_iff] at h
  rcases h with h | ⟨_, h⟩
  · obtain ⟨⟨inner, r⟩, hquoted, h⟩ := Option.bind_eq_some_iff.mp h
    obtain ⟨rest', hafter, heq⟩ := Option.map_eq_some_iff.mp h
    obtain ⟨_, rfl⟩ := Prod.mk.inj heq
    have := Text.length_of_quoted? hquoted
    have := length_of_afterAttribute? hafter
    omega
  · obtain ⟨rest', hafter, heq⟩ := Option.map_eq_some_iff.mp h
    obtain ⟨_, rfl⟩ := Prod.mk.inj heq
    have := length_of_afterAttribute? hafter
    have := Text.length_dropWhile_le isBareValue t
    omega

theorem length_of_afterOperator? {t rest : Text} (h : afterOperator? t = some rest) :
    rest.length < t.length := by
  rw [afterOperator?.eq_def] at h
  split at h
  · rename_i r
    obtain rfl := Option.some.inj h
    have := Text.length_dropWhile_le isBlank r
    simp only [Text.trimStart, List.length_cons]
    omega
  · rename_i r _
    split at h
    · obtain rfl := Option.some.inj h
      have := Text.length_dropWhile_le isBlank r
      simp only [Text.trimStart, List.length_cons]
      omega
    · simp at h
  · simp at h

theorem length_of_attributeBlock? {t rest : Text} {pair : Text × Text}
    (h : attributeBlock? t = some (pair, rest)) : rest.length < t.length := by
  rw [attributeBlock?.eq_def] at h
  split at h
  · rename_i r
    obtain ⟨⟨name, r'⟩, hrun, h⟩ := Option.bind_eq_some_iff.mp h
    have h1 := Text.length_of_run? hrun
    have h2 := Text.length_dropWhile_le isBlank r
    have h3 := Text.length_dropWhile_le isBlank r'
    simp only [Text.trimStart, List.length_cons] at *
    split at h
    · rename_i value rest' heq
      obtain ⟨_, rfl⟩ := Prod.mk.inj (Option.some.inj h)
      obtain ⟨r'', hop, hvalue⟩ := Option.bind_eq_some_iff.mp heq
      have := length_of_afterOperator? hop
      have := length_of_attributeValue? hvalue
      omega
    · obtain ⟨rest', hafter, heq⟩ := Option.map_eq_some_iff.mp h
      obtain ⟨_, rfl⟩ := Prod.mk.inj heq
      have := length_of_afterAttribute? hafter
      omega
  · simp at h

/-- The attribute blocks of a selector, from the left. -/
def attributePairs : Text → List (Text × Text)
  | [] => []
  | c :: r =>
    match _hblock : attributeBlock? (c :: r) with
    | some (pair, rest) => pair :: attributePairs rest
    | none => attributePairs r
termination_by t => t.length
decreasing_by
  · exact length_of_attributeBlock? _hblock
  · simp

/-- Attributes by name; the first value of a name counts. -/
def attributeMap (t : Text) : List (Text × Text) :=
  (attributePairs t).foldl (fun found (name, value) => addEntry name value found) []

/-- The names that follow a mark, from the left. -/
def namesAfter (mark : Char) : Text → List Text
  | [] => []
  | c :: r =>
    if c = mark then
      let name := r.takeWhile isNamePart
      if name.isEmpty then namesAfter mark r
      else name :: namesAfter mark (r.dropWhile isNamePart)
    else namesAfter mark r
termination_by t => t.length
decreasing_by
  · simp
  · have := (List.dropWhile_suffix isNamePart (l := r)).length_le
    simp only [List.length_cons]
    omega
  · simp

/-- The name at the start of a text; it starts with a letter. -/
def leadingName? : Text → Option Text
  | [] => none
  | c :: r => if c.isAlpha then some (c :: r.takeWhile isNamePart) else none

end Css

/-- What a CSS selector says: tag, id and pseudo-classes of its last compound, classes and
attributes of all of them, and the number of its combinators. -/
structure Css where
  tag : Option Text
  id : Option Text
  classes : List Text
  attributes : List (Text × Text)
  pseudoClasses : List Text
  depth : Nat
  deriving DecidableEq, Repr

namespace Css

def parse (t : Text) : Css :=
  let source := Text.replacePair '>' '>' [' '] (Text.dropPrefix "css=" t)
  let parts := compounds source
  let last := withoutBlocks (parts.getLastD [])
  { tag := (leadingName? last).map Text.lower
    id := (namesAfter '#' last).head?
    classes := namesAfter '.' (withoutBlocks source)
    attributes := attributeMap source
    pseudoClasses := namesAfter ':' last
    depth := parts.length - 1 }

/-- The details that a CSS selector gives; absent parts give none. -/
def details (css : Css) : Details :=
  (css.tag.map Detail.tag).toList ++ (css.id.map Detail.id).toList ++
    (if css.classes.isEmpty then [] else [.classes css.classes]) ++
    (if css.attributes.isEmpty then [] else [.attributes css.attributes]) ++
    (if css.pseudoClasses.isEmpty then [] else [.pseudoClasses css.pseudoClasses]) ++
    [.depth css.depth]

end Css

end PageObjects
