import PageObjects.Pattern.Basic
import PageObjects.Pattern.CaseFold
import PageObjects.Text.Digit
import PageObjects.Text.Word

namespace PageObjects

/-- A place in a text: what stands before it, the nearest character first, what follows it, and
the texts of the groups that have matched. -/
structure Cursor where
  back : Text
  rest : Text
  groups : List (Nat × Text)
  deriving DecidableEq, Repr

namespace Cursor

def advance? (c : Cursor) : Option (Char × Cursor) :=
  match c.rest with
  | [] => none
  | x :: r => some (x, { c with back := x :: c.back, rest := r })

/-- The cursor `n` characters before. -/
def rewind? : Nat → Cursor → Option Cursor
  | 0, c => some c
  | n + 1, c =>
    match c.back with
    | [] => none
    | x :: b => rewind? n { c with back := b, rest := x :: c.rest }

end Cursor

def wordFor (flags : PatternFlags) (c : Char) : Bool :=
  if flags.ascii then c.isAlphanum || c == '_' else isWord c

/-- Whether a character is of a class. -/
def CharClass.holds (flags : PatternFlags) (c : Char) : CharClass → Bool
  | digit => if flags.ascii then c.isDigit else isDecimal c
  | space => if flags.ascii then c == ' ' || (9 ≤ c.toNat && c.toNat ≤ 13) else isBlank c
  | word => wordFor flags c

/-- The code points that stand for a character. -/
def partners (flags : PatternFlags) (c : Char) : List Nat :=
  if flags.ignoreCase then
    if flags.ascii then asciiPartners c.toNat else casePartners c.toNat
  else [c.toNat]

def SetItem.holds (flags : PatternFlags) (c : Char) : SetItem → Bool
  | range low high => (partners flags c).any fun n => low ≤ n && n ≤ high
  | category kind negated => kind.holds flags c != negated

/-- Whether a place is the one asked for. In an empty text there is neither a word boundary nor its
opposite. -/
def Anchor.holds (flags : PatternFlags) (c : Cursor) : Anchor → Bool
  | lineStart => c.back.isEmpty || (flags.multiline && c.back.head? == some '\n')
  | lineEnd => c.rest.isEmpty || c.rest == ['\n'] || (flags.multiline && c.rest.head? == some '\n')
  | textStart => c.back.isEmpty
  | textEnd => c.rest.isEmpty
  | boundary => (c.back.head?.any (wordFor flags)) != (c.rest.head?.any (wordFor flags))
  | noBoundary =>
    !(c.back.isEmpty && c.rest.isEmpty) &&
      (c.back.head?.any (wordFor flags)) == (c.rest.head?.any (wordFor flags))

/-- What to do behind a part of a pattern. -/
abbrev Continuation := Cursor → Option Cursor

/-- Repeats `body`. A round that matches nothing is the last one. -/
def repeatRounds (body : Continuation → Continuation) (lazily : Bool) (next : Continuation) :
    Nat → Nat → Option Nat → Continuation
  | 0, _, _, _ => none
  | fuel + 1, low, high, c =>
    if 0 < low then
      body (repeatRounds body lazily next fuel (low - 1) (high.map (· - 1))) c
    else
      let again := fun (_ : Unit) =>
        if high = some 0 then none
        else body (fun d =>
          if d.rest.length = c.rest.length then next d
          else repeatRounds body lazily next fuel 0 (high.map (· - 1)) d) c
      if lazily then (next c).or (again ()) else (again ()).or (next c)

/-- Reads a text that has matched before. -/
def readAgain (flags : PatternFlags) : Text → Cursor → Option Cursor
  | [], c => some c
  | x :: t, c => c.advance?.bind fun (y, d) =>
    if (partners flags y).contains x.toNat then readAgain flags t d else none

namespace Pattern

/-- Matches a pattern at a place and goes on with `next` behind it. -/
def run : Pattern → Continuation → Continuation
  | empty, next, c => next c
  | char flags code, next, c => c.advance?.bind fun (x, d) =>
    if (partners flags x).contains code then next d else none
  | any flags, next, c => c.advance?.bind fun (x, d) =>
    if x ≠ '\n' || flags.dotAll then next d else none
  | set flags negated items, next, c => c.advance?.bind fun (x, d) =>
    if (items.any fun item => item.holds flags x) != negated then next d else none
  | anchor flags kind, next, c => if kind.holds flags c then next c else none
  | seq a b, next, c => a.run (fun d => b.run next d) c
  | either a b, next, c => (a.run next c).or (b.run next c)
  | rounds body low high mode, next, c =>
    let low := min low (c.rest.length + 1)
    let fuel := low + c.rest.length + 2
    match mode with
    | .greedy => repeatRounds body.run false next fuel low high c
    | .lazy => repeatRounds body.run true next fuel low high c
    | .possessive => (repeatRounds body.run false some fuel low high c).bind next
  | group index body, next, c =>
    body.run (fun d =>
      next { d with groups := (index, c.rest.take (c.rest.length - d.rest.length)) :: d.groups }) c
  | plain body, next, c => body.run next c
  | back flags index _, next, c =>
    match c.groups.lookup index with
    | none => none
    | some t => (readAgain flags t c).bind next
  | look ahead negated body, next, c =>
    let start := if ahead then some c else c.rewind? body.width.least
    match start.bind (body.run some), negated with
    | some d, false => next { c with groups := d.groups }
    | none, true => next c
    | _, _ => none
  | atomic body, next, c => (body.run some c).bind next
  | given index yes no, next, c =>
    if (c.groups.lookup index).isSome then yes.run next c else no.run next c

/-- Whether a pattern matches from a place on or from a later one. -/
def foundFrom (p : Pattern) (back : Text) : Text → Bool
  | [] => (p.run some ⟨back, [], []⟩).isSome
  | x :: r => (p.run some ⟨back, x :: r, []⟩).isSome || foundFrom p (x :: back) r

/-- Whether a pattern matches somewhere in a text. -/
def foundIn (p : Pattern) (t : Text) : Bool := p.foundFrom [] t

end Pattern

end PageObjects
