import PageObjects.Component.Basic

namespace PageObjects

/-- Patterns are at most this long. -/
def longestPattern : Nat := 8

/-- Every run of digits becomes a number sign. -/
def maskNumbers : Text → Text
  | [] => []
  | c :: r =>
    if isDecimal c then
      if r.head?.any isDecimal then maskNumbers r else '#' :: maskNumbers r
    else c :: maskNumbers r

/-- A selector without regard to case, numbers and the kind of its quotes. -/
def loosen (raw : Text) : Text :=
  (maskNumbers (Text.lower raw)).map fun c => if c = '"' then '\'' else c

abbrev LooseKey := Text × Text

namespace Action

/-- Whether an action can be part of a pattern. -/
def isPatternItem (a : Action) : Bool :=
  a.kind == .interaction && a.selector.isSome &&
    a.statement.subtype != some .query && a.statement.subtype != some .custom

def looseKey (a : Action) : LooseKey := (a.verb.getD [], loosen a.raw)

def exactKey (a : Action) : Text × Text := (a.verb.getD [], a.raw)

/-- Waits, other than for a URL, do not break up a run. -/
def isTransparent (a : Action) : Bool := a.kind == .wait && a.verb != some ("waitForURL" : Text)

end Action

/-- A list by itself, or no list if it is empty. -/
def nonEmptyList {α : Type} (l : List α) : List (List α) := if l.isEmpty then [] else [l]

/-- The runs of pattern items among actions, the one that is open first. -/
def runsFrom (run : List Action) : List Action → List (List Action)
  | [] => nonEmptyList run
  | a :: rest =>
    if a.isPatternItem then runsFrom (run ++ [a]) rest
    else if a.isTransparent then runsFrom run rest
    else nonEmptyList run ++ runsFrom [] rest

/-- The runs of pattern items on a page. -/
def Page.runs (p : Page) : List (List Action) := runsFrom [] p.actions

/-- The stretches of a list that have the given length. -/
def windowsOfLength {α : Type} (length : Nat) (l : List α) : List (List α) :=
  (List.range (l.length + 1 - length)).map fun start => (l.drop start).take length

/-- All stretches of a list up to the longest pattern, the shorter ones first. -/
def windows {α : Type} (l : List α) : List (List α) :=
  ((List.range (min longestPattern l.length)).map (· + 1)).flatMap fun n => windowsOfLength n l

abbrev PatternKey := List LooseKey

/-- An occurrence with the pattern that it has. -/
abbrev KeyedOccurrence := PatternKey × Occurrence

/-- The occurrences of all patterns on a page. -/
def Page.occurrences (p : Page) : List KeyedOccurrence :=
  p.runs.flatMap fun run =>
    (windows (run.map fun a => (a.looseKey, a))).map fun window =>
      (window.map (·.1), ⟨p.number, window.map (·.2)⟩)

/-- A pattern with its occurrences, page by page; a page without any is left out. -/
structure Recurrence where
  key : PatternKey
  byPage : List (List Occurrence)
  deriving Repr

namespace Recurrence

def pageCount (r : Recurrence) : Nat := r.byPage.length

/-- The first line on which the pattern starts. -/
def firstLine (r : Recurrence) : Nat :=
  ((r.byPage.filterMap List.head?).map (·.firstLine)).min?.getD 0

/-- Longer patterns come first, then those on more pages, then those that start earlier. -/
def precedesOrEq (a b : Recurrence) : Bool :=
  if a.key.length ≠ b.key.length then b.key.length < a.key.length
  else if a.pageCount ≠ b.pageCount then b.pageCount < a.pageCount
  else a.firstLine ≤ b.firstLine

end Recurrence

/-- The occurrences of a pattern among those of some pages. -/
def recurrenceOf (pages : List (List KeyedOccurrence)) (key : PatternKey) : Recurrence :=
  { key := key
    byPage := (pages.map fun os => (os.filter fun o => o.1 == key).map (·.2)).filter fun os =>
      !os.isEmpty }

/-- The patterns that occur on at least `required` pages, in the order in which they are tried. -/
def recurrences (required : Nat) (pages : List Page) : List Recurrence :=
  let occurrences := pages.map Page.occurrences
  let keys := (occurrences.flatten.map (·.1)).eraseDups
  ((keys.map (recurrenceOf occurrences)).filter fun r => required ≤ r.pageCount).mergeSort
    Recurrence.precedesOrEq

end PageObjects
