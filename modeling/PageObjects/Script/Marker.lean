import PageObjects.Script.Chain
import PageObjects.Script.Line
import PageObjects.Script.Statement
import PageObjects.Text.Digit

namespace PageObjects

/-- The title that a test declaration gives in quotes of any kind. -/
def testTitle? (t : Text) : Option Text := do
  let r ← Text.dropAnyPrefix? ["test", "it"] t
  let r := (Text.dropAnyPrefix? [".only", ".skip", ".fixme", ".fail", ".slow"] r).getD r
  let r ← Text.afterMark? '(' r
  match Text.trimStart r with
  | [] => none
  | q :: inner =>
    if isQuote q then
      match Text.cutAt q inner with
      | (title, some _) => some title
      | _ => none
    else none

/-- A group of tests, possibly with a modifier. -/
def isDescribe (t : Text) : Bool :=
  let t := Text.dropPrefix "test." t
  match Text.dropPrefix? "describe" t with
  | none => false
  | some r =>
    let r := match r with
      | '.' :: s => if (s.takeWhile isWord).isEmpty then r else s.dropWhile isWord
      | _ => r
    (Text.afterMark? '(' r).isSome

def isHook (t : Text) : Bool :=
  let t := Text.dropPrefix "test." t
  match Text.dropAnyPrefix? ["beforeEach", "afterEach", "beforeAll", "afterAll"] t with
  | none => false
  | some r => (Text.afterMark? '(' r).isSome

/-- A branch of control flow, possibly behind the bracket that closes the one before. -/
def isBranch (t : Text) : Bool :=
  let t := match t with
    | '}' :: r => Text.trimStart r
    | r => r
  (Text.afterWord? ["if", "else", "switch", "try", "catch", "finally"] t).isSome

def isLoopHead (t : Text) : Bool :=
  (Text.afterWord? ["for", "while", "do"] t).isSome ||
    Text.occurs (fun r => (Text.dropPrefix? ".forEach" r).bind (Text.afterMark? '(')) t

/-- The words that declare a variable. -/
def declarationWords : List Text := ["const", "let", "var"]

/-- What follows a declaration word and at least one blank. -/
def afterDeclaration? (t : Text) : Option Text :=
  match Text.dropAnyPrefix? declarationWords t with
  | some (c :: r) => if isBlank c then some (c :: r) else none
  | _ => none

def isImport (t : Text) : Bool :=
  Text.startsWithAny ["import ", "export "] t ||
    (afterDeclaration? t).any fun r => Text.includes "require(" (r.drop 1)

/-- The structural role of a line, if its beginning or end gives it away. -/
def structuralRole? (t : Text) : Option StructuralRole :=
  if Text.startsWithAny ["//", "/*", "*"] t then some .comment
  else if isImport t then some .importing
  else if (testTitle? t).isSome then some .testDeclaration
  else if isDescribe t then some .describe
  else if isHook t then some .hook
  else if isBranch t then some .branch
  else if isLoopHead t && opensBlock t then some .loop
  else if t.head? = some '}' || List.elem t [")", ");", "])", "]);"] then some .blockClose
  else none

/-- Characters of a type annotation. -/
def isAnnotationPart (c : Char) : Bool :=
  isWord c || c == '<' || c == '>' || c == '[' || c == ']' || c == '.' || c == ',' || c == ' '

/-- The target of an assignment and what follows it: a pattern in brackets or an identifier. -/
def assignmentTarget? : Text → Option (Text × Text)
  | '[' :: r =>
    match Text.cutAt ']' r with
    | (inner, some rest) => some ('[' :: inner ++ [']'], rest)
    | _ => none
  | '{' :: r =>
    match Text.cutAt '}' r with
    | (inner, some rest) => some ('{' :: inner ++ ['}'], rest)
    | _ => none
  | t => readIdentifier? t

/-- What follows the equals sign of an assignment, which may stand behind a type annotation. -/
def assignedValue? (t : Text) : Option Text :=
  match Text.trimStart t with
  | '=' :: r => some (Text.trimStart r)
  | ':' :: r =>
    match Text.cutAt '=' r with
    | (typeText, some rest) =>
      let parts := (typeText.reverse.takeWhile isAnnotationPart)
      if !parts.isEmpty && (typeText.take (typeText.length - parts.length)).all isBlank then
        some (Text.trimStart rest)
      else none
    | _ => none
  | _ => none

/-- The target and the value of a declaration. -/
def assignment? (t : Text) : Option (Text × Text) := do
  let r ← afterDeclaration? t
  let (target, r) ← assignmentTarget? (Text.trimStart r)
  let value ← assignedValue? r
  return (target, value)

/-- The digits that a `timeout` option gives. -/
def timeoutDigits? (t : Text) : Option Text :=
  Text.search? (fun before r =>
    if before.any isWord then none
    else do
      let r ← Text.dropPrefix? "timeout" r
      let r ← Text.afterMark? ':' r
      let (digits, _) ← Text.run? isDecimal (Text.trimStart r)
      return digits) none t

/-- The number that a `timeout` option gives. -/
def timeoutOption? (t : Text) : Option Nat := (timeoutDigits? t).bind Text.natural?

/-- Whether a text waits for one of the events, named in quotes. -/
def awaitsEvent (events : List Text) (t : Text) : Bool :=
  Text.occurs (fun r => do
    let r ← Text.dropPrefix? "waitForEvent" r
    let r ← Text.afterMark? '(' r
    match Text.trimStart r with
    | q :: r =>
      if q = '\'' ∨ q = '"' then
        let r ← Text.dropAnyPrefix? events r
        if r.head? = some '\'' ∨ r.head? = some '"' then some () else none
      else none
    | [] => none) t

def awaitsPopup (t : Text) : Bool := awaitsEvent ["popup", "page"] t

def awaitsFileChooser (t : Text) : Bool := awaitsEvent ["filechooser"] t

/-- A statement without the semicolons at its end and the words before its call. -/
def stripPrefixes (t : Text) : Text :=
  let t := Text.trim (Text.dropEndWhile (· == ';') (Text.trim t))
  let t := match Text.dropPrefix? "return " t with
    | some r => Text.trim r
    | none => t
  match Text.dropPrefix? "await " t with
  | some r => Text.trim r
  | none => t

end PageObjects
