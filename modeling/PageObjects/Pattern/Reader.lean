import PageObjects.Pattern.Basic
import PageObjects.Text.Digit
import PageObjects.Text.Word

namespace PageObjects

/-- What keeps a text from being a pattern. -/
inductive PatternError where
  | malformed
  | tooManyRounds
  | clashingFlags
  | excess (error : Excess)
  deriving DecidableEq, Repr

/-- A character of a pattern, by itself or behind a backslash. -/
inductive PatternMark where
  | plain (c : Char)
  | escaped (c : Char)
  deriving DecidableEq, Repr

/-- The marks of a text, unless a backslash ends it. -/
def PatternMark.ofText? : Text → Option (List PatternMark)
  | [] => some []
  | '\\' :: c :: r => (ofText? r).map (.escaped c :: ·)
  | ['\\'] => none
  | c :: r => (ofText? r).map (.plain c :: ·)

/-- What has been read of a pattern: the marks to come, the widths of the closed groups and the
places of the open ones, the named groups, the number of groups before the enclosing look behind,
the groups that conditions ask for, the flags of the whole, and how much deeper groups can stand
within each other. Each takes two readings. -/
structure PatternState where
  rest : List PatternMark
  groups : List (Option Width) := []
  names : List (Text × Nat) := []
  behind : Option Nat := none
  asked : List Nat := []
  flags : PatternFlags := {}
  unicode : Bool := false
  room : Nat := stackRoom / 2

abbrev PatternReader := StateT PatternState (Except PatternError)

namespace PatternReader

def malformed {α : Type} : PatternReader α := throw .malformed

def peek? : PatternReader (Option PatternMark) := return (← get).rest.head?

/-- The next mark. -/
def take? : PatternReader (Option PatternMark) := do
  let state ← get
  match state.rest with
  | [] => return none
  | mark :: rest =>
    set { state with rest := rest }
    return some mark

/-- The next mark, which has to be there. -/
def take : PatternReader PatternMark := do
  match ← take? with
  | some mark => return mark
  | none => malformed

/-- Passes over `c`, if it comes next. -/
def accept (c : Char) : PatternReader Bool := do
  let state ← get
  match state.rest with
  | .plain x :: rest =>
    if x = c then
      set { state with rest := rest }
      return true
    else return false
  | _ => return false

def expect (c : Char) : PatternReader Unit := do
  if !(← accept c) then malformed

/-- The plain characters at the start of marks on which `p` holds, `most` at most, and the marks
behind them. -/
def plainRun (p : Char → Bool) : Nat → List PatternMark → Text × List PatternMark
  | most + 1, .plain c :: rest =>
    if p c then
      let (run, rest) := plainRun p most rest
      (c :: run, rest)
    else ([], .plain c :: rest)
  | _, marks => ([], marks)

/-- Reads the next characters on which `p` holds, `most` at most. -/
def takeRun (p : Char → Bool) (most : Nat) : PatternReader Text := do
  let state ← get
  let (run, rest) := plainRun p most state.rest
  set { state with rest := rest }
  return run

/-- Reads all next characters on which `p` holds. -/
def takeAll (p : Char → Bool) : PatternReader Text := do
  takeRun p (← get).rest.length

/-- Passes over marks up to a character and over it; says whether it was there. -/
def skipTo (c : Char) : PatternReader Bool := do
  let state ← get
  let rest := state.rest.dropWhile (· != .plain c)
  set { state with rest := rest.drop 1 }
  return !rest.isEmpty

/-- The name of a group up to a character that ends it. -/
def takeName (last : Char) : PatternReader Text := do
  let name ← takeAll (· != last)
  expect last
  if name.isEmpty then malformed else return name

/-- Letters, digits and low lines, no digit in front. -/
def isGroupName : Text → Bool
  | [] => false
  | c :: r => isWord c && !isDecimal c && r.all isWord

def readDigits (base : Nat) (t : Text) : Nat :=
  t.foldl (fun n c =>
    let digit := if c.isDigit then c.toNat - 48 else if c.isLower then c.toNat - 87 else c.toNat - 55
    base * n + digit) 0

def isHexDigit (c : Char) : Bool :=
  c.isDigit || ('a' ≤ c && c ≤ 'f') || ('A' ≤ c && c ≤ 'F')

def isOctalDigit (c : Char) : Bool := '0' ≤ c && c ≤ '7'

/-- A code point written in exactly `count` hexadecimal digits. -/
def hexCode (count : Nat) : PatternReader Nat := do
  let digits ← takeRun isHexDigit count
  let code := readDigits 16 digits
  if digits.length = count ∧ code ≤ 0x10FFFF then return code else malformed

/-- A code point in octal digits, of which `digits` have been read. -/
def octalCode (digits : Text) : PatternReader Nat :=
  let code := readDigits 8 digits
  if code ≤ 0o377 then return code else malformed

/-- The letters that stand for control characters. -/
def controlCode? : Char → Option Nat
  | 'a' => some 7
  | 'f' => some 12
  | 'n' => some 10
  | 'r' => some 13
  | 't' => some 9
  | 'v' => some 11
  | _ => none

/-- The letters that stand for classes of characters. -/
def category? : Char → Option SetItem
  | 'd' => some (.category .digit false)
  | 'D' => some (.category .digit true)
  | 's' => some (.category .space false)
  | 'S' => some (.category .space true)
  | 'w' => some (.category .word false)
  | 'W' => some (.category .word true)
  | _ => none

/-- The letters that stand for places. -/
def anchor? : Char → Option Anchor
  | 'A' => some .textStart
  | 'Z' => some .textEnd
  | 'b' => some .boundary
  | 'B' => some .noBoundary
  | _ => none

/-- The code point that an escaped character stands for, within sets and without. Digits are left
to the caller. -/
def commonEscape (c : Char) : PatternReader Nat :=
  match controlCode? c with
  | some code => return code
  | none =>
    if c = 'x' then hexCode 2
    else if c = 'u' then hexCode 4
    else if c = 'U' then hexCode 8
    else if c.isAlpha || c.isDigit then malformed
    else return c.toNat

/-- A reference to a group that has been closed. -/
def reference (flags : PatternFlags) (index : Nat) : PatternReader Pattern := do
  let state ← get
  match index, state.groups[index - 1]? with
  | _ + 1, some (some width) =>
    if state.behind.any (· ≤ index) then malformed else return .back flags index width
  | _, _ => malformed

/-- An escaped digit other than zero: three octal digits are a character, one or two digits a
reference. -/
def digitEscape (flags : PatternFlags) (c : Char) : PatternReader Pattern := do
  let second ← takeRun Char.isDigit 1
  let third ← if isOctalDigit c && second.any isOctalDigit then takeRun isOctalDigit 1 else pure []
  if third.isEmpty then reference flags (readDigits 10 (c :: second))
  else return .char flags (← octalCode (c :: second ++ third))

/-- What an escaped character stands for outside of sets. -/
def escape (flags : PatternFlags) (c : Char) : PatternReader Pattern :=
  match category? c, anchor? c with
  | some item, _ => return .set flags false [item]
  | _, some kind => return .anchor flags kind
  | none, none =>
    if c = '0' then do
      let more ← takeRun isOctalDigit 2
      return .char flags (readDigits 8 more)
    else if c.isDigit then digitEscape flags c
    else do return .char flags (← commonEscape c)

/-- A member of a set: a class, or a code point as a range of its own. -/
def setMember (mark : PatternMark) : PatternReader SetItem :=
  match mark with
  | .plain c => return .range c.toNat c.toNat
  | .escaped c =>
    match category? c with
    | some item => return item
    | none =>
      if c = 'b' then return .range 8 8
      else if isOctalDigit c then do
        let more ← takeRun isOctalDigit 2
        let code ← octalCode (c :: more)
        return .range code code
      else do
        let code ← commonEscape c
        return .range code code

/-- The range between two members, if both are code points in order. -/
def rangeOf : SetItem → SetItem → PatternReader SetItem
  | .range low _, .range high _ => if low ≤ high then return .range low high else malformed
  | _, _ => malformed

/-- The members of a set up to its closing bracket, which may be the first member. -/
def setItems : Nat → List SetItem → PatternReader (List SetItem)
  | 0, _ => malformed
  | fuel + 1, items => do
    let mark ← take
    if mark = .plain ']' ∧ items ≠ [] then return items
    let member ← setMember mark
    if ← accept '-' then
      let last ← take
      if last = .plain ']' then return member :: .range '-'.toNat '-'.toNat :: items
      let range ← rangeOf member (← setMember last)
      setItems fuel (range :: items)
    else setItems fuel (member :: items)

def charSet (flags : PatternFlags) : PatternReader Pattern := do
  let negated ← accept '^'
  let items ← setItems ((← get).rest.length + 1) []
  return .set flags negated items

/-- The largest number of rounds that can be asked for. -/
def mostRounds : Nat := 4294967294

/-- A number of rounds, if it is written. -/
def roundCount (digits : Text) : PatternReader (Option Nat) :=
  if digits.isEmpty then return none
  else match Text.digitExcess? digits with
    | some e => throw (.excess e)
    | none =>
      let count := readDigits 10 digits
      if count ≤ mostRounds then return some count else throw .tooManyRounds

/-- The numbers in braces behind an opening brace; none if it does not open a repetition. -/
def bracedRounds? : PatternReader (Option (Nat × Option Nat)) := do
  let start ← get
  if (← peek?) = some (.plain '\x7d') then return none
  let low ← takeAll Char.isDigit
  let isRange ← accept ','
  let high ← if isRange then takeAll Char.isDigit else pure low
  if ← accept '\x7d' then
    let least := (← roundCount low).getD 0
    let most ← roundCount high
    if most.any (· < least) then malformed else return some (least, most)
  else
    set start
    return none

/-- How often a quantifier repeats what stands before it; none for a brace that is a plain
character. -/
def rounds? (c : Char) : PatternReader (Option (Nat × Option Nat)) :=
  if c = '*' then return some (0, none)
  else if c = '+' then return some (1, none)
  else if c = '?' then return some (0, some 1)
  else bracedRounds?

/-- How a repetition chooses its rounds, by the mark behind the quantifier. -/
def roundMode : PatternReader RepeatMode := do
  if ← accept '?' then return .lazy
  if ← accept '+' then return .possessive
  return .greedy

/-- Repeats the last of the patterns read, which are given in reverse. A place and a repetition
cannot be repeated. -/
def repeatLast (read : List Pattern) (low : Nat) (high : Option Nat) :
    PatternReader (List Pattern) := do
  match read with
  | [] => malformed
  | body :: before =>
    if body.isAnchor || body.isRounds then malformed
    return .rounds body low high (← roundMode) :: before

def isFlagLetter (c : Char) : Bool := ['i', 'L', 'm', 's', 'x', 'a', 't', 'u'].contains c

/-- Flags with those of some letters switched on or off. -/
def switchFlags (on : Bool) (letters : Text) (flags : PatternFlags) : PatternFlags :=
  letters.foldl (fun (f : PatternFlags) c =>
    if c = 'i' then { f with ignoreCase := on }
    else if c = 'm' then { f with multiline := on }
    else if c = 's' then { f with dotAll := on }
    else if c = 'x' then { f with verbose := on }
    else if c = 'a' then { f with ascii := on }
    else if c = 'u' then { f with ascii := !on }
    else f) flags

/-- The flags of a group that only sets flags, or those for the inside of a group. -/
inductive FlagSetting where
  | whole (letters : Text)
  | inside (flags : PatternFlags)

/-- Reads the flags behind the question mark of a group. -/
def flagSetting (flags : PatternFlags) : PatternReader FlagSetting := do
  let on ← takeAll isFlagLetter
  if on.contains 'L' || (on.contains 'a' && on.contains 'u') then malformed
  match ← take with
  | .plain ')' => if on.isEmpty then malformed else return .whole on
  | .plain ':' =>
    if on.isEmpty || on.contains 't' then malformed
    return .inside (switchFlags true on flags)
  | .plain '-' =>
    let off ← takeAll isFlagLetter
    expect ':'
    if off.isEmpty || on.contains 't' || off.any fun c => ['a', 'u', 'L', 't'].contains c || on.contains c then
      malformed
    return .inside (switchFlags false off (switchFlags true on flags))
  | _ => malformed

/-- Sets the flags of the whole pattern. -/
def setFlags (letters : Text) : PatternReader Unit :=
  modify fun state => { state with
    flags := switchFlags true (letters.filter (· != 'u')) state.flags
    unicode := state.unicode || letters.contains 'u' }

/-- Opens the next group. -/
def openGroup (name : Option Text) : PatternReader Nat := do
  let state ← get
  let index := state.groups.length + 1
  match name with
  | none => set { state with groups := state.groups ++ [none] }
  | some n =>
    if (state.names.lookup n).isSome then malformed
    set { state with groups := state.groups ++ [none], names := (n, index) :: state.names }
  return index

def closeGroup (index : Nat) (width : Width) : PatternReader Unit :=
  modify fun state => { state with groups := state.groups.set (index - 1) (some width) }

/-- The group that a condition asks for, by name or by number. -/
def askedGroup : PatternReader Nat := do
  let name ← takeName ')'
  let state ← get
  let index ← if isGroupName name then
      match state.names.lookup name with
      | some index => pure index
      | none => malformed
    else if name.all isDecimal && name.toNat ≠ 0 then pure name.toNat
    else malformed
  if !isGroupName name then set { state with asked := index :: state.asked }
  match state.behind with
  | none => return index
  | some limit =>
    if limit ≤ index || !(state.groups[index - 1]?.any Option.isSome) then malformed
    return index

/-- What a bracket opens, as far as its first marks tell. -/
inductive GroupKind where
  | comment
  | flags (letters : Text)
  | same (name : Text)
  | capture (name : Option Text)
  | inside (flags : PatternFlags)
  | atomic
  | look (ahead negated : Bool)
  | given (index : Nat)

/-- The kind of the group that starts behind an opening bracket. -/
def groupKind (flags : PatternFlags) : PatternReader GroupKind := do
  if !(← accept '?') then return .capture none
  if ← accept 'P' then
    if ← accept '<' then
      let name ← takeName '>'
      if isGroupName name then return .capture (some name) else malformed
    expect '='
    return .same (← takeName ')')
  if ← accept ':' then return .inside flags
  if ← accept '#' then
    if ← skipTo ')' then return .comment else malformed
  if ← accept '=' then return .look true false
  if ← accept '!' then return .look true true
  if ← accept '<' then
    if ← accept '=' then return .look false false
    expect '!'
    return .look false true
  if ← accept '(' then return .given (← askedGroup)
  if ← accept '>' then return .atomic
  match ← flagSetting flags with
  | .whole letters => return .flags letters
  | .inside inner => return .inside inner

/-- A reference to a named group. -/
def namedReference (flags : PatternFlags) (name : Text) : PatternReader Pattern := do
  match (← get).names.lookup name with
  | some index => reference flags index
  | none => malformed

/-- Reads what stands one group deeper. -/
def deeper {α : Type} (inside : PatternReader α) : PatternReader α := do
  let state ← get
  if state.room = 0 then throw (.excess .nesting)
  set { state with room := state.room - 1 }
  let a ← inside
  modify fun later => { later with room := state.room }
  return a

/-- White space that is passed over where blanks have no meaning. -/
def isSpacing (mark : PatternMark) : Bool :=
  match mark with
  | .plain c => c = ' ' || (9 ≤ c.toNat && c.toNat ≤ 13)
  | .escaped _ => false

mutual

/-- The alternatives up to a closing bracket or the end. Outside of groups the flags of the whole
pattern apply, and the `first` alternative may set them. -/
def alternatives (outer first : Bool) : Nat → PatternFlags → PatternReader Pattern
  | 0, _ => malformed
  | fuel + 1, flags => do
    let item ← items (outer && first) fuel flags []
    if ← accept '|' then
      let whole := (← get).flags
      return .either item (← alternatives outer false fuel (if outer then whole else flags))
    else return item

/-- Patterns one after the other; those that have been read are given in reverse. -/
def items (setsFlags : Bool) : Nat → PatternFlags → List Pattern → PatternReader Pattern
  | 0, _, _ => malformed
  | fuel + 1, flags, read => do
    match ← peek? with
    | none | some (.plain '|') | some (.plain ')') => return .sequence read.reverse
    | some mark =>
      let _ ← take?
      if flags.verbose && isSpacing mark then items setsFlags fuel flags read
      else if flags.verbose && mark = .plain '#' then
        let _ ← skipTo '\n'
        items setsFlags fuel flags read
      else match mark with
        | .escaped c => items setsFlags fuel flags ((← escape flags c) :: read)
        | .plain '[' => items setsFlags fuel flags ((← charSet flags) :: read)
        | .plain '.' => items setsFlags fuel flags (.any flags :: read)
        | .plain '^' => items setsFlags fuel flags (.anchor flags .lineStart :: read)
        | .plain '$' => items setsFlags fuel flags (.anchor flags .lineEnd :: read)
        | .plain '(' =>
          match ← groupKind flags with
          | .comment => items setsFlags fuel flags read
          | .flags letters =>
            if !setsFlags || !read.isEmpty then malformed
            setFlags letters
            let whole := (← get).flags
            items setsFlags fuel whole read
          | .same name => items setsFlags fuel flags ((← namedReference flags name) :: read)
          | kind => items setsFlags fuel flags ((← deeper (group fuel flags kind)) :: read)
        | .plain c =>
          if ['*', '+', '?', '\x7b'].contains c then
            match ← rounds? c with
            | none => items setsFlags fuel flags (.char flags c.toNat :: read)
            | some (low, high) => items setsFlags fuel flags (← repeatLast read low high)
          else items setsFlags fuel flags (.char flags c.toNat :: read)

/-- The inside of a group and its closing bracket. -/
def group : Nat → PatternFlags → GroupKind → PatternReader Pattern
  | 0, _, _ => malformed
  | fuel + 1, flags, kind => do
    match kind with
    | .capture name =>
      let index ← openGroup name
      let body ← alternatives false true fuel flags
      expect ')'
      closeGroup index body.width
      return .group index body
    | .inside inner =>
      let body ← alternatives false true fuel inner
      expect ')'
      return .plain body
    | .atomic =>
      let body ← alternatives false true fuel flags
      expect ')'
      return .atomic body
    | .look ahead negated =>
      let outside := (← get).behind
      if !ahead && outside.isNone then
        modify fun state => { state with behind := some (state.groups.length + 1) }
      let body ← alternatives false true fuel flags
      modify fun state => { state with behind := outside }
      expect ')'
      return .look ahead negated body
    | .given index =>
      let yes ← items false fuel flags []
      let no ← if ← accept '|' then items false fuel flags [] else pure .empty
      expect ')'
      return .given index yes no
    | _ => malformed

end

end PatternReader

namespace Pattern

/-- Whether all that looks behind has a fixed width. -/
def looksBackFixed : Pattern → Bool
  | seq a b => a.looksBackFixed && b.looksBackFixed
  | either a b => a.looksBackFixed && b.looksBackFixed
  | rounds body _ _ _ => body.looksBackFixed
  | group _ body => body.looksBackFixed
  | plain body => body.looksBackFixed
  | look ahead _ body => (ahead || body.width.isFixed) && body.looksBackFixed
  | atomic body => body.looksBackFixed
  | given _ yes no => yes.looksBackFixed && no.looksBackFixed
  | _ => true

/-- The pattern that a text writes. -/
def ofText (ignoreCase : Bool) (t : Text) : Except PatternError Pattern := do
  match PatternMark.ofText? t with
  | none => throw .malformed
  | some marks =>
    let start : PatternState := { rest := marks, flags := { ignoreCase := ignoreCase } }
    let (p, last) ← (PatternReader.alternatives true true (3 * marks.length + 3) start.flags).run start
    if last.unicode && last.flags.ascii then throw .clashingFlags
    if !last.rest.isEmpty || last.asked.any (last.groups.length < ·) || !p.looksBackFixed then
      throw .malformed
    return p

end Pattern

end PageObjects
