import PageObjects.Locator.Css

namespace PageObjects

/-- What an XPath says: its source, its attribute predicates, its text predicate, the element name
of its last step and the number of steps before that one. -/
structure XPath where
  path : Text
  attributes : List (Text × Text)
  text : Option (Option Text)
  tag : Option Text
  depth : Nat
  deriving DecidableEq, Repr

namespace XPath

/-- A quoted text behind an equals sign or a comma, and what follows it. -/
def comparedText? (t : Text) : Option (Text × Text) :=
  ((Text.afterMark? '=' t).or (Text.afterMark? ',' t)).bind fun r => Text.quoted? (Text.trimStart r)

/-- The attribute predicate at the start of a text and what follows it. -/
def attributeTest? : Text → Option ((Text × Text) × Text)
  | '@' :: r => do
    let (name, r) ← Text.run? isAttributePart r
    let (value, rest) ← comparedText? r
    return ((name, value), rest)
  | _ => none

theorem length_of_comparedText? {t value rest : Text} (h : comparedText? t = some (value, rest)) :
    rest.length < t.length := by
  obtain ⟨r, hmark, hquoted⟩ := Option.bind_eq_some_iff.mp h
  have h1 := Text.length_of_quoted? hquoted
  have h2 := Text.length_dropWhile_le isBlank r
  have h3 : r.length < t.length := by
    rcases Option.or_eq_some_iff.mp hmark with h | ⟨_, h⟩ <;> exact Text.length_of_afterMark? h
  simp only [Text.trimStart] at h1
  omega

theorem length_of_attributeTest? {t rest : Text} {pair : Text × Text}
    (h : attributeTest? t = some (pair, rest)) : rest.length < t.length := by
  rw [attributeTest?.eq_def] at h
  split at h
  · obtain ⟨⟨name, r'⟩, hrun, h⟩ := Option.bind_eq_some_iff.mp h
    obtain ⟨⟨value, rest'⟩, hcompared, h⟩ := Option.bind_eq_some_iff.mp h
    obtain ⟨_, rfl⟩ := Prod.mk.inj (Option.some.inj h)
    have := Text.length_of_run? hrun
    have := length_of_comparedText? hcompared
    simp only [List.length_cons]
    omega
  · simp at h

/-- The attribute predicates of a path, from the left. -/
def attributeTests : Text → List (Text × Text)
  | [] => []
  | c :: r =>
    match _htest : attributeTest? (c :: r) with
    | some (pair, rest) => pair :: attributeTests rest
    | none => attributeTests r
termination_by t => t.length
decreasing_by
  · exact length_of_attributeTest? _htest
  · simp

/-- The text of the first text predicate. An empty text in double quotes counts as none. -/
def textTest? (t : Text) : Option (Option Text) :=
  Text.find? (fun r => do
    let r ← Text.dropPrefix? "text()" r
    let r ← (Text.afterMark? '=' r).or (Text.afterMark? ',' r)
    let r := Text.trimStart r
    match Text.quotedBy? '"' r with
    | some (content, _) => some (if content.isEmpty then none else some content)
    | none => (Text.quotedBy? '\'' r).map fun (content, _) => some content) t

def isRound (c : Char) : Bool := c == '(' || c == ')'

/-- The steps of a path without their predicates. -/
def steps (t : Text) : List Text :=
  (Text.pieces (· == '/') (Css.withoutBlocks t)).filter fun s => !(Text.stripWhile isRound s).isEmpty

/-- The element name of a step, possibly behind an opening bracket. -/
def stepName? : Text → Option Text
  | '(' :: r => Css.leadingName? r
  | t => Css.leadingName? t

def parse (t : Text) : XPath :=
  let source := Text.dropPrefix "xpath=" t
  let parts := steps source
  { path := source
    attributes := (attributeTests source).foldl (fun found (name, value) =>
      addEntry name value found) []
    text := textTest? source
    tag := (parts.getLast?.bind stepName?).map Text.lower
    depth := parts.length - 1 }

/-- The details that a path gives; absent parts give none. -/
def details (x : XPath) : Details :=
  .path x.path ::
    (if x.attributes.isEmpty then [] else [.attributes x.attributes]) ++
    (x.text.map Detail.text).toList ++ (x.tag.map Detail.tag).toList ++ [.depth x.depth]

end XPath

end PageObjects
