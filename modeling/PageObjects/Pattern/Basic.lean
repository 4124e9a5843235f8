import PageObjects.Text.Basic

namespace PageObjects

/-- What applies to a part of a pattern: ignoring case, lines as units, points that match line
feeds, blanks without meaning, and ASCII classes. -/
structure PatternFlags where
  ignoreCase : Bool := false
  multiline : Bool := false
  dotAll : Bool := false
  verbose : Bool := false
  ascii : Bool := false
  deriving DecidableEq, Repr

inductive CharClass where
  | digit | space | word
  deriving DecidableEq, Repr

/-- A member of a character set. -/
inductive SetItem where
  | range (low high : Nat)
  | category (kind : CharClass) (negated : Bool)
  deriving DecidableEq, Repr

/-- Places that a pattern can ask for. -/
inductive Anchor where
  | lineStart | lineEnd | textStart | textEnd | boundary | noBoundary
  deriving DecidableEq, Repr

/-- How a repetition chooses the number of its rounds. -/
inductive RepeatMode where
  | greedy | lazy | possessive
  deriving DecidableEq, Repr

/-- The least and the greatest number of characters, if there is one, that a pattern matches. -/
structure Width where
  least : Nat
  most : Option Nat
  deriving DecidableEq, Repr

namespace Width

def zero : Width := ⟨0, some 0⟩

def one : Width := ⟨1, some 1⟩

def isFixed (w : Width) : Bool := w.most == some w.least

def add (a b : Width) : Width :=
  ⟨a.least + b.least, a.most.bind fun m => b.most.map fun n => m + n⟩

def join (a b : Width) : Width :=
  ⟨min a.least b.least, a.most.bind fun m => b.most.map fun n => max m n⟩

/-- The width of at least `low` and at most `high` rounds. -/
def times (w : Width) (low : Nat) (high : Option Nat) : Width :=
  let most := match high, w.most with
    | _, some 0 => some 0
    | some n, some m => some (m * n)
    | _, _ => none
  ⟨w.least * low, most⟩

end Width

inductive Pattern where
  | empty
  | char (flags : PatternFlags) (code : Nat)
  | any (flags : PatternFlags)
  | set (flags : PatternFlags) (negated : Bool) (items : List SetItem)
  | anchor (flags : PatternFlags) (kind : Anchor)
  | seq (first second : Pattern)
  | either (first second : Pattern)
  | rounds (body : Pattern) (low : Nat) (high : Option Nat) (mode : RepeatMode)
  | group (index : Nat) (body : Pattern)
  | plain (body : Pattern)
  | back (flags : PatternFlags) (index : Nat) (width : Width)
  | look (ahead negated : Bool) (body : Pattern)
  | atomic (body : Pattern)
  | given (index : Nat) (yes no : Pattern)
  deriving Repr

namespace Pattern

def width : Pattern → Width
  | empty => .zero
  | char _ _ => .one
  | any _ => .one
  | set _ _ _ => .one
  | anchor _ _ => .zero
  | seq a b => a.width.add b.width
  | either a b => a.width.join b.width
  | rounds body low high _ => body.width.times low high
  | group _ body => body.width
  | plain body => body.width
  | back _ _ w => w
  | look _ _ _ => .zero
  | atomic body => body.width
  | given _ yes no => yes.width.join no.width

def isAnchor : Pattern → Bool
  | anchor _ _ => true
  | _ => false

def isRounds : Pattern → Bool
  | rounds _ _ _ _ => true
  | _ => false

/-- Patterns one after the other. -/
def sequence : List Pattern → Pattern
  | [] => empty
  | [p] => p
  | p :: ps => seq p (sequence ps)

end Pattern

end PageObjects
