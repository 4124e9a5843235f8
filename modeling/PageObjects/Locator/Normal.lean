import PageObjects.Script.Chain
import PageObjects.Script.Literal
import PageObjects.Script.Vocabulary

namespace PageObjects

/-- What stands between curly brackets around a whole text. -/
def bracedInside? : Text → Option Text
  | '{' :: r => if r.getLast? = some '}' then some r.dropLast else none
  | _ => none

theorem length_of_bracedInside? {t inside : Text} (h : bracedInside? t = some inside) :
    inside.length < t.length := by
  rw [bracedInside?.eq_def] at h
  split at h
  · split at h
    · obtain rfl := Option.some.inj h
      simp only [List.length_dropLast, List.length_cons]
      omega
    · simp at h
  · simp at h

/-- The normal form of one argument or option value. The options of an object literal are brought
to normal form one by one. -/
def normalizeValue (raw : Text) : Text :=
  let t := Text.squeeze raw
  match _hinside : bracedInside? t with
  | some inside =>
    let entries := (splitArguments inside).attach.map fun (entry : { e // e ∈ splitArguments inside }) =>
      match _hparts : splitTopLevel isColon entry.val with
      | key :: v :: vs =>
        Text.stripWhile Literal.isKeyQuote (Text.trim key) ++ ':' :: ' ' ::
          normalizeValue (Text.joinWith [':'] (v :: vs))
      | _ => Text.trim entry.val
    if entries.isEmpty then ['{', '}']
    else '{' :: ' ' :: Text.joinWith [',', ' '] entries ++ [' ', '}']
  | none =>
    match Literal.string? t with
    | some value => if t.head? = some '/' then t else quote value
    | none => t
termination_by raw.length
decreasing_by
  have h1 : inside.length < (Text.squeeze raw).length := length_of_bracedInside? _hinside
  have h2 := Text.length_squeeze_le raw
  have h3 := length_le_of_mem_splitTopLevel entry.property
  have h4 := length_joinWith_tail_le ':' _hparts
  omega

/-- The chain that a text is as a whole, if it starts with a call to a locator accessor. -/
def accessorChain? (t : Text) : Option Chain :=
  if t.head?.any Char.isAlpha then
    let chain := Chain.parse t
    if chain.receiver.isEmpty && chain.rest.isEmpty &&
        chain.segments.head?.any (fun s => isAccessor s && s.isCall) then some chain
    else none
  else none

/-- Names of variables that hold pages. -/
def isPageName (name : Text) : Bool :=
  List.elem name ["page", "popup"] ||
    (Text.endsWithAny ["Page"] name && 4 < name.length) ||
    (Text.endsWithAny ["Popup"] name && 5 < name.length)

/-- What follows a page receiver such as `page.` at the start of a text. -/
def afterPageReceiver? (t : Text) : Option Text := do
  let t := Text.dropPrefix "this." t
  let (name, r) ← Text.run? isWord t
  if isPageName name then
    let r ← Text.afterMark? '.' r
    let r := Text.trimStart r
    if r.head?.any Char.isAlpha then some r else none
  else none

/-- A step with its arguments in normal form. -/
def Segment.normalize (s : Segment) : Segment :=
  { s with args := s.args.map fun args =>
      Text.joinWith [',', ' '] ((splitArguments args).map normalizeValue) }

/-- The string that a lone `locator` call is given as its only argument. -/
def loneLocator? (chain : Chain) : Option Text :=
  match chain.segments with
  | [s] =>
    if s.name = "locator" then
      match s.arguments with
      | [arg] => Literal.string? arg
      | _ => none
    else none
  | _ => none

/-- A text without the page before its chain. -/
def withoutReceiver (t : Text) : Text :=
  match afterPageReceiver? t with
  | some r => if (accessorChain? r).isSome then r else t
  | none => t

/-- The normal form of a squeezed text that is no string literal. -/
def normalizeChain (t : Text) : Text :=
  let t := withoutReceiver t
  match accessorChain? t with
  | none => t
  | some chain =>
    match loneLocator? chain with
    | some inner => Text.squeeze inner
    | none => renderSegments (chain.segments.map Segment.normalize)

/-- The normal form of a locator expression. -/
def normalizeSelector (expression : Text) : Text :=
  let t := Text.squeeze expression
  match Literal.string? t with
  | some value => Text.squeeze value
  | none => normalizeChain t

end PageObjects
