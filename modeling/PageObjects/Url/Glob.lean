import PageObjects.Text.Basic

namespace PageObjects

inductive GlobToken where
  | star
  | any
  | char (c : Char)
  | oneOf (negated : Bool) (ranges : List (Char × Char))
  deriving DecidableEq, Repr

namespace Glob

/-- Cuts the inside of a set at the hyphens that stand between two characters. Two characters have
to follow a hyphen before the next one counts. -/
def setChunks (skip : Nat) (chunk : Text) : Text → List Text
  | [] => [chunk.reverse]
  | c :: r =>
    if c = '-' ∧ skip = 0 then chunk.reverse :: setChunks 2 [] r
    else setChunks (skip - 1) (c :: chunk) r

/-- Chunks after an empty last one has given its hyphen back to the one before. -/
def mendLast (chunks : List Text) : List Text :=
  match chunks.reverse with
  | [] :: last :: before => ((last ++ ['-']) :: before).reverse
  | _ => chunks

/-- Joins neighbouring chunks whose ranges run backwards, from the last to the first. -/
def joinBackwards : List Text → List Text
  | [] => []
  | chunk :: rest =>
    match joinBackwards rest with
    | [] => [chunk]
    | next :: more =>
      match chunk.getLast?, next.head? with
      | some a, some b =>
        if b < a then (chunk.dropLast ++ next.drop 1) :: more else chunk :: next :: more
      | _, _ => chunk :: next :: more

/-- The ranges that chunks with hyphens between them stand for; the ends of neighbouring chunks
bound a range. -/
def chunkRanges : List Text → List (Char × Char)
  | [] => []
  | [chunk] => chunk.map fun c => (c, c)
  | chunk :: next :: more =>
    let bounds := match chunk.getLast?, next.head? with
      | some a, some b => [(a, b)]
      | _, _ => []
    (chunk.dropLast.map fun c => (c, c)) ++ bounds ++
      chunkRanges ((next.drop 1) :: more)
termination_by chunks => chunks.length

/-- The set that the inside of brackets writes. -/
def setToken (inside : Text) : GlobToken :=
  let skip := if inside.head? = some '!' then 2 else 1
  let chunks := joinBackwards (mendLast (setChunks skip [] inside))
  match chunks with
  | ('!' :: chunk) :: more =>
    if chunk.isEmpty && more.isEmpty then .any else .oneOf true (chunkRanges (chunk :: more))
  | _ => .oneOf false (chunkRanges chunks)

/-- The inside of a set at the start of a text, behind its opening bracket, and what follows it. A
closing bracket in the first place belongs to the inside. -/
def readSet? (t : Text) : Option (Text × Text) :=
  let (lead, r) := match t with
    | '!' :: ']' :: r => (['!', ']'], r)
    | '!' :: r => (['!'], r)
    | ']' :: r => ([']'], r)
    | r => ([], r)
  match Text.cutAt ']' r with
  | (inner, some rest) => some (lead ++ inner, rest)
  | _ => none

/-- The tokens of a glob. The fuel is the length of the text. -/
def tokens : Nat → Text → List GlobToken
  | 0, _ => []
  | _, [] => []
  | fuel + 1, c :: r =>
    if c = '*' then .star :: tokens fuel r
    else if c = '?' then .any :: tokens fuel r
    else if c = '[' then
      match readSet? r with
      | some (inside, rest) => setToken inside :: tokens fuel rest
      | none => .char c :: tokens fuel r
    else .char c :: tokens fuel r

/-- Whether tokens match a whole text. -/
def matchesTokens : List GlobToken → Text → Bool
  | [], t => t.isEmpty
  | .star :: ts, t => (Text.suffixes t).any (matchesTokens ts)
  | .any :: ts, t => match t with
    | [] => false
    | _ :: r => matchesTokens ts r
  | .char c :: ts, t => match t with
    | [] => false
    | x :: r => x == c && matchesTokens ts r
  | .oneOf negated ranges :: ts, t => match t with
    | [] => false
    | x :: r =>
      (ranges.any fun range => range.1 ≤ x && x ≤ range.2) != negated && matchesTokens ts r

end Glob

/-- Whether a glob matches a whole text. -/
def globMatches (glob t : Text) : Bool := Glob.matchesTokens (Glob.tokens glob.length glob) t

end PageObjects
