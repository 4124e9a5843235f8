import PageObjects.Json.Reader
import PageObjects.Text.Basic

namespace PageObjects

inductive YamlToken where
  | directive
  | documentStart
  | documentEnd
  | blockSequenceStart
  | blockMappingStart
  | blockEnd
  | flowSequenceStart
  | flowSequenceEnd
  | flowMappingStart
  | flowMappingEnd
  | blockEntry
  | flowEntry
  | key
  | value
  | alias (name : Text)
  | anchor (name : Text)
  | tag (name : Text)
  | scalar (content : Text) (isPlain : Bool)
  deriving DecidableEq, Repr

/-- A node that may turn out to be a key: the number of its first token and where it starts. A key
is required where nothing else can stand. -/
structure KeyCandidate where
  token : Nat
  isRequired : Bool
  index : Nat
  line : Nat
  column : Nat
  deriving DecidableEq, Repr

/-- A place in a text with what has been found up to it. The columns of open blocks are listed from
the innermost; key candidates are kept by the number of flow brackets around them. -/
structure YamlScan where
  rest : Text
  index : Nat := 0
  line : Nat := 0
  column : Nat := 0
  flow : Nat := 0
  indents : List Nat := []
  keyAllowed : Bool := true
  candidates : List (Nat × KeyCandidate) := []
  tokens : List YamlToken := []

abbrev YamlScanner := StateT YamlScan Option

/-- A candidate and the colon behind it are at most this far apart. -/
def longestKey : Nat := 1024

def isYamlBreak (c : Char) : Bool :=
  c == '\n' || c == '\r' || c.toNat == 0x85 || c.toNat == 0x2028 || c.toNat == 0x2029

/-- Characters that may stand in a YAML text. -/
def isYamlChar (c : Char) : Bool :=
  let n := c.toNat
  n == 9 || n == 10 || n == 13 || (32 ≤ n && n ≤ 126) || n == 0x85 ||
    (0xA0 ≤ n && n ≤ 0xFFFD) || 0x10000 ≤ n

/-- Whether a character ends a word: blanks, breaks and the end of the text. -/
def endsYamlWord : Option Char → Bool
  | none => true
  | some c => c == ' ' || c == '\t' || isYamlBreak c

namespace YamlScanner

def peek? (n : Nat := 0) : YamlScanner (Option Char) := return (← get).rest[n]?

/-- Whether the next character is `c`. -/
def sees (c : Char) : YamlScanner Bool := return (← get).rest.head? == some c

def inFlow : YamlScanner Bool := return 0 < (← get).flow

/-- Moves over one character. -/
def advance : YamlScanner Unit :=
  modify fun s =>
    match s.rest with
    | [] => s
    | c :: r =>
      let endsLine := isYamlBreak c && !(c == '\r' && r.head? == some '\n')
      { s with
        rest := r
        index := s.index + 1
        line := if endsLine then s.line + 1 else s.line
        column := if endsLine then 0 else if c.toNat = 0xFEFF then s.column else s.column + 1 }

def skip : Nat → YamlScanner Unit
  | 0 => return ()
  | n + 1 => do
    advance
    skip n

/-- Takes the next `n` characters. -/
def take (n : Nat) : YamlScanner Text := do
  let t := (← get).rest.take n
  skip n
  return t

/-- Takes all next characters on which `p` holds. -/
def takeWhile (p : Char → Bool) : YamlScanner Text := do
  take ((← get).rest.takeWhile p).length

def skipSpaces : YamlScanner Nat := return (← takeWhile (· == ' ')).length

/-- Takes a line break; all but two kinds count as a line feed. -/
def lineBreak? : YamlScanner (Option Char) := do
  match (← get).rest with
  | '\r' :: '\n' :: _ =>
    skip 2
    return some '\n'
  | c :: _ =>
    if isYamlBreak c then
      advance
      return some (if 0x2028 ≤ c.toNat then c else '\n')
    else return none
  | [] => return none

def emit (t : YamlToken) : YamlScanner Unit := modify fun s => { s with tokens := s.tokens ++ [t] }

def allowKey (b : Bool) : YamlScanner Unit := modify fun s => { s with keyAllowed := b }

/-- Whether three characters at the start of a line part documents. -/
def seesSeparator (mark : Text) : YamlScanner Bool := do
  let s ← get
  return s.rest.take 3 == mark && endsYamlWord s.rest[3]?

def seesAnySeparator : YamlScanner Bool := do
  return (← seesSeparator "---") || (← seesSeparator "...")

/-- Drops the candidate among the flow brackets that are open; a required one cannot be dropped. -/
def dropCandidate : YamlScanner Unit := do
  let s ← get
  if ((valueAt? s.flow s.candidates).any (·.isRequired)) then failure
  set { s with candidates := s.candidates.filter fun k => k.1 != s.flow }

/-- Drops the candidates that no colon can follow any more. -/
def dropStale : YamlScanner Unit := do
  let s ← get
  let isStale (k : KeyCandidate) : Bool := k.line != s.line || longestKey < s.index - k.index
  if s.candidates.any fun k => isStale k.2 && k.2.isRequired then failure
  set { s with candidates := s.candidates.filter fun k => !isStale k.2 }

/-- Notes that a node that may be a key starts here. -/
def noteCandidate : YamlScanner Unit := do
  let s ← get
  if s.keyAllowed then
    dropCandidate
    let isRequired := s.flow == 0 && s.indents.head? == some s.column
    modify fun t => { t with
      candidates := (s.flow, ⟨s.tokens.length, isRequired, s.index, s.line, s.column⟩) ::
        t.candidates }

/-- Whether a block at a column lies deeper than the blocks that are open. -/
def isDeeper (indents : List Nat) (column : Nat) : Bool := indents.head?.all fun i => i < column

/-- Closes the blocks that lie deeper than a column; none means all of them. -/
def closeBlocks (column : Option Nat) : YamlScanner Unit := do
  let s ← get
  if s.flow = 0 then
    let isClosed (i : Nat) : Bool := column.all fun c => c < i
    let remaining := s.indents.dropWhile isClosed
    let ends := List.replicate (s.indents.length - remaining.length) YamlToken.blockEnd
    set { s with indents := remaining, tokens := s.tokens ++ ends }

/-- Opens a block here, if it lies deeper than those that are open. -/
def openBlock (token : YamlToken) : YamlScanner Unit := do
  let s ← get
  if isDeeper s.indents s.column then
    set { s with indents := s.column :: s.indents }
    emit token

/-- Passes over blanks, comments and line breaks. -/
def toNextToken : Nat → YamlScanner Unit
  | 0 => return ()
  | fuel + 1 => do
    let _ ← skipSpaces
    if ← sees '#' then
      let _ ← takeWhile fun c => !isYamlBreak c
    match ← lineBreak? with
    | none => return ()
    | some _ =>
      if !(← inFlow) then allowKey true
      toNextToken fuel

/-- Takes line breaks with blanks before each of them, and blanks behind them. -/
def takeBreaks (blank : Char → Bool) (stopsAtSeparator : Bool) : Nat → YamlScanner (Option Text)
  | 0 => return some []
  | fuel + 1 => do
    if ← seesAnySeparator then
      if stopsAtSeparator then return none else failure
    let _ ← takeWhile blank
    match ← lineBreak? with
    | none => return some []
    | some c => return (← takeBreaks blank stopsAtSeparator fuel).map (c :: ·)

/-- Line breaks inside a scalar as they are read: a single line feed is a space, further breaks
stay. -/
def foldBreaks (first : Char) (more : Text) : Text :=
  if first ≠ '\n' then first :: more else if more.isEmpty then [' '] else more

def isNameChar (c : Char) : Bool := c.isAlphanum || c == '-' || c == '_'

/-- The name of an anchor or an alias behind its mark. -/
def anchorName : YamlScanner Text := do
  advance
  let name ← takeWhile isNameChar
  let next ← peek?
  if name.isEmpty || !(endsYamlWord next || next.any fun c => "?:,]\x7d%@\x60".toList.contains c) then
    failure
  return name

/-- The characters that an escape in double quotes stands for. -/
def shortEscape? : Char → Option Nat
  | '0' => some 0
  | 'a' => some 7
  | 'b' => some 8
  | 't' => some 9
  | '\t' => some 9
  | 'n' => some 10
  | 'v' => some 11
  | 'f' => some 12
  | 'r' => some 13
  | 'e' => some 27
  | ' ' => some 32
  | '"' => some 34
  | '/' => some 47
  | '\\' => some 92
  | 'N' => some 0x85
  | '_' => some 0xA0
  | 'L' => some 0x2028
  | 'P' => some 0x2029
  | _ => none

/-- The character that hexadecimal digits write. -/
def hexEscape (count : Nat) : YamlScanner Text := do
  let digits ← take count
  match digits.mapM Json.hexValue? with
  | none => failure
  | some ds =>
    let code := ds.foldl (fun n d => 16 * n + d) 0
    if digits.length < count || 0x10FFFF < code then failure
    return [Char.ofNat code]

/-- An escape in double quotes, behind its backslash. -/
def escape (fuel : Nat) : YamlScanner Text := do
  let next ← peek?
  match next with
  | none => failure
  | some c =>
    if let some code := shortEscape? c then
      advance
      return [Char.ofNat code]
    else if c = 'x' ∨ c = 'u' ∨ c = 'U' then
      advance
      hexEscape (if c = 'x' then 2 else if c = 'u' then 4 else 8)
    else match ← lineBreak? with
      | none => failure
      | some _ => return (← takeBreaks (fun c => c == ' ' || c == '\t') false fuel).getD []

/-- The inside of a quoted scalar up to its closing quote. -/
def quotedText (quote : Char) : Nat → YamlScanner Text
  | 0 => failure
  | fuel + 1 => do
    let next ← peek?
    match next with
    | none => failure
    | some c =>
      if c = quote then
        advance
        if quote = '\'' && (← sees '\'') then
          advance
          return '\'' :: (← quotedText quote fuel)
        else return []
      else if c = '\\' ∧ quote = '"' then
        advance
        return (← escape fuel) ++ (← quotedText quote fuel)
      else if c = ' ' ∨ c = '\t' ∨ isYamlBreak c then
        let blanks ← takeWhile fun c => c == ' ' || c == '\t'
        match ← lineBreak? with
        | none => return blanks ++ (← quotedText quote fuel)
        | some first =>
          let more ← takeBreaks (fun c => c == ' ' || c == '\t') false fuel
          return foldBreaks first (more.getD []) ++ (← quotedText quote fuel)
      else
        advance
        return c :: (← quotedText quote fuel)

def isFlowMark (c : Char) : Bool := ",?[]\x7b\x7d".toList.contains c

/-- The next piece of a plain scalar: up to a blank, a colon with a blank behind it or, in flow
collections, a mark. -/
def plainPiece (inFlow : Bool) : Text → Text
  | [] => []
  | c :: r =>
    if endsYamlWord (some c) then []
    else if c = ':' ∧ (endsYamlWord r.head? ∨
        (inFlow ∧ r.head?.any fun d => ",[]\x7b\x7d".toList.contains d)) then []
    else if inFlow ∧ isFlowMark c then []
    else c :: plainPiece inFlow r

/-- The blanks behind a piece of a plain scalar; none if the scalar ends there. -/
def plainSpaces (fuel : Nat) : YamlScanner (Option Text) := do
  let blanks ← takeWhile (· == ' ')
  match ← lineBreak? with
  | none => return if blanks.isEmpty then none else some blanks
  | some first =>
    allowKey true
    match ← takeBreaks (· == ' ') true fuel with
    | none => return none
    | some more => return some (foldBreaks first more)

/-- A plain scalar, the blanks before its next piece given. -/
def plainText (least : Nat) (spaces : Text) : Nat → YamlScanner Text
  | 0 => return []
  | fuel + 1 => do
    let inFlow ← inFlow
    let piece := plainPiece inFlow (← get).rest
    if (← sees '#') || piece.isEmpty then return []
    allowKey false
    skip piece.length
    match ← plainSpaces fuel with
    | none => return spaces ++ piece
    | some more =>
      let column := (← get).column
      if (← sees '#') || (!inFlow && column < least) then return spaces ++ piece
      else return spaces ++ piece ++ (← plainText least more fuel)

/-- How the line breaks at the end of a block scalar are kept. -/
inductive Chomping where
  | strip | clip | keep
  deriving DecidableEq

/-- The marks behind the start of a block scalar, in either order. -/
def blockHeader : YamlScanner (Chomping × Option Nat) := do
  let marks ← takeWhile fun c => c == '+' || c == '-' || c.isDigit
  let chomping (c : Char) : Option Chomping :=
    if c = '+' then some .keep else if c = '-' then some .strip else none
  let digit (c : Char) : Option Nat :=
    if '1' ≤ c ∧ c ≤ '9' then some (c.toNat - '0'.toNat) else none
  match marks with
  | [] => return (.clip, none)
  | [a] =>
    match chomping a, digit a with
    | some k, _ => return (k, none)
    | none, some n => return (.clip, some n)
    | _, _ => failure
  | [a, b] =>
    match chomping a, digit b, digit a, chomping b with
    | some k, some n, _, _ => return (k, some n)
    | _, _, some n, some k => return (k, some n)
    | _, _, _, _ => failure
  | _ => failure

/-- Line breaks of empty lines before the inside of a block scalar, and the greatest indentation
among them. -/
def blockIndentation : Nat → YamlScanner (Text × Nat)
  | 0 => return ([], 0)
  | fuel + 1 => do
    let _ ← skipSpaces
    let column := (← get).column
    match ← lineBreak? with
    | none => return ([], column)
    | some c =>
      let (more, most) ← blockIndentation fuel
      return (c :: more, max column most)

/-- Spaces up to a column. -/
def skipIndent (indent : Nat) : YamlScanner Unit := do
  let s ← get
  skip (min (s.rest.takeWhile (· == ' ')).length (indent - s.column))

/-- Line breaks of empty lines in a block scalar. -/
def blockBreaks (indent : Nat) : Nat → YamlScanner Text
  | 0 => return []
  | fuel + 1 => do
    skipIndent indent
    match ← lineBreak? with
    | none => return []
    | some c =>
      let more ← blockBreaks indent fuel
      return c :: more

/-- The lines of a block scalar, the breaks before the next of them given. -/
def blockLines (folds : Bool) (chomping : Chomping) (indent : Nat) (breaks : Text)
    (lineEnd : Text) : Nat → YamlScanner Text
  | 0 => return []
  | fuel + 1 => do
    let s ← get
    if s.column ≠ indent ∨ s.rest.isEmpty then
      return (if chomping = .strip then [] else lineEnd) ++
        (if chomping = .keep then breaks else [])
    let startsWord := s.rest.head?.all fun c => c != ' ' && c != '\t'
    let line ← takeWhile fun c => !isYamlBreak c
    let lineEnd := (← lineBreak?).toList
    let more ← blockBreaks indent fuel
    let t ← get
    let goesOn := t.column = indent ∧ !t.rest.isEmpty
    if goesOn then
      let joins := folds ∧ lineEnd = ['\n'] ∧ startsWord ∧
        t.rest.head?.all fun c => c != ' ' && c != '\t'
      let between := if joins then if more.isEmpty then [' '] else [] else lineEnd
      return breaks ++ line ++ between ++ (← blockLines folds chomping indent more lineEnd fuel)
    else
      return breaks ++ line ++ (← blockLines folds chomping indent more lineEnd fuel)

/-- A block scalar, behind its mark. -/
def blockText (folds : Bool) (fuel : Nat) : YamlScanner Text := do
  let (chomping, increment) ← blockHeader
  if !endsYamlWord (← peek?) then failure
  let _ ← skipSpaces
  if ← sees '#' then
    let _ ← takeWhile fun c => !isYamlBreak c
  let atEnd := (← get).rest.isEmpty
  if (← lineBreak?).isNone && !atEnd then failure
  let outer := (← get).indents.head?
  let least := max 1 ((outer.map (· + 1)).getD 0)
  match increment with
  | some n =>
    let indent := least + n - 1
    let breaks ← blockBreaks indent fuel
    blockLines folds chomping indent breaks [] fuel
  | none =>
    let (breaks, most) ← blockIndentation fuel
    blockLines folds chomping (max least most) breaks [] fuel

/-- A node of which `token` is the first token and no key inside a key. -/
def node (token : YamlScanner YamlToken) : YamlScanner Unit := do
  noteCandidate
  allowKey false
  emit (← token)

def openFlow (token : YamlToken) : YamlScanner Unit := do
  noteCandidate
  modify fun s => { s with flow := s.flow + 1, keyAllowed := true }
  advance
  emit token

def closeFlow (token : YamlToken) : YamlScanner Unit := do
  dropCandidate
  modify fun s => { s with flow := s.flow - 1, keyAllowed := false }
  advance
  emit token

/-- An entry of a block sequence. -/
def blockEntry : YamlScanner Unit := do
  if !(← inFlow) then
    if !(← get).keyAllowed then failure
    openBlock .blockSequenceStart
  allowKey true
  dropCandidate
  advance
  emit .blockEntry

/-- A key with a question mark before it. -/
def markedKey : YamlScanner Unit := do
  let inFlow ← inFlow
  if !inFlow then
    if !(← get).keyAllowed then failure
    openBlock .blockMappingStart
  allowKey (!inFlow)
  dropCandidate
  advance
  emit .key

/-- A colon: the candidate before it is a key, and may open a block of its own. -/
def colon : YamlScanner Unit := do
  let s ← get
  match valueAt? s.flow s.candidates with
  | some k =>
    let opens := s.flow == 0 && isDeeper s.indents k.column
    let start := if opens then [YamlToken.blockMappingStart, .key] else [.key]
    set { s with
      candidates := s.candidates.filter fun c => c.1 != s.flow
      indents := if opens then k.column :: s.indents else s.indents
      tokens := s.tokens.take k.token ++ start ++ s.tokens.drop k.token
      keyAllowed := false }
  | none =>
    if s.flow = 0 then
      if !s.keyAllowed then failure
      openBlock .blockMappingStart
    allowKey (s.flow == 0)
    dropCandidate
  advance
  emit .value

/-- A line that separates documents. -/
def separator (token : YamlToken) : YamlScanner Unit := do
  closeBlocks none
  dropCandidate
  allowKey false
  skip 3
  emit token

/-- A tag up to the next blank. -/
def tagName : YamlScanner YamlToken := do
  let name ← takeWhile fun c => !endsYamlWord (some c) && !",[]\x7b\x7d".toList.contains c
  if !endsYamlWord (← peek?) then failure
  return .tag name

/-- A line of the document's head. The first number of a version has to be one. -/
def directive : YamlScanner Unit := do
  advance
  let name ← takeWhile isNameChar
  if name.isEmpty || !((← sees ' ') || endsYamlWord (← peek?)) then failure
  if name == "YAML".toList then
    let _ ← skipSpaces
    let major ← takeWhile Char.isDigit
    if !(← sees '.') || (major.dropWhile (· == '0')) != ['1'] then failure
    advance
    let minor ← takeWhile Char.isDigit
    if minor.isEmpty then failure
    let _ ← skipSpaces
    if !((← sees '#') || (← peek?).all isYamlBreak) then failure
  let _ ← takeWhile fun c => !isYamlBreak c
  emit .directive

def startsPlain (inFlow : Bool) (c : Char) (next : Option Char) : Bool :=
  !(endsYamlWord (some c) || "-?:,[]\x7b\x7d#&*!|>\x27\x22%@\x60".toList.contains c) ||
    (!endsYamlWord next && (c == '-' || (!inFlow && (c == '?' || c == ':'))))

/-- The token that starts with the given character. -/
def tokenAt (c : Char) (fuel : Nat) : YamlScanner Unit := do
  let inFlow ← inFlow
  let next ← peek? 1
  let atLineStart := (← get).column == 0
  if c = '%' ∧ atLineStart then
    closeBlocks none
    dropCandidate
    allowKey false
    directive
  else if atLineStart && (← seesSeparator "---") then separator .documentStart
  else if atLineStart && (← seesSeparator "...") then separator .documentEnd
  else if c = '[' then openFlow .flowSequenceStart
  else if c = '{' then openFlow .flowMappingStart
  else if c = ']' then closeFlow .flowSequenceEnd
  else if c = '}' then closeFlow .flowMappingEnd
  else if c = ',' then
    allowKey true
    dropCandidate
    advance
    emit .flowEntry
  else if c = '-' ∧ endsYamlWord next then blockEntry
  else if c = '?' ∧ (inFlow ∨ endsYamlWord next) then markedKey
  else if c = ':' ∧ (inFlow ∨ endsYamlWord next) then colon
  else if c = '*' then node (return .alias (← anchorName))
  else if c = '&' then node (return .anchor (← anchorName))
  else if c = '!' then node tagName
  else if (c = '|' ∨ c = '>') ∧ !inFlow then
    allowKey true
    dropCandidate
    advance
    emit (.scalar (← blockText (c == '>') fuel) false)
  else if c = '\'' ∨ c = '"' then
    node do
      advance
      return .scalar (← quotedText c fuel) false
  else if startsPlain inFlow c next then
    noteCandidate
    allowKey false
    let least := ((← get).indents.head?.map (· + 1)).getD 0
    emit (.scalar (← plainText least [] fuel) true)
  else failure

/-- Reads tokens to the end of the text. -/
def scanAll : Nat → YamlScanner Unit
  | 0 => failure
  | fuel + 1 => do
    toNextToken fuel
    dropStale
    closeBlocks (some (← get).column)
    match ← peek? with
    | none =>
      closeBlocks none
      dropCandidate
    | some c =>
      tokenAt c fuel
      scanAll fuel

end YamlScanner

/-- The tokens of a YAML text, if it has any form. -/
def YamlToken.ofText? (t : Text) : Option (List YamlToken) :=
  let t := if t.head?.any (fun c => c.toNat == 0xFEFF) then t.drop 1 else t
  if !t.all isYamlChar then none
  else (((YamlScanner.scanAll (t.length + 2)).run { rest := t }).map fun r => r.2.tokens)

end PageObjects
