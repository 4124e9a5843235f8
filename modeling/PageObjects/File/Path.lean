import PageObjects.Text.Basic

namespace PageObjects

/-- A path, relative unless there is a root. -/
structure FilePath where
  root : Text
  parts : List Text
  deriving DecidableEq, Repr

namespace FilePath

/-- The path that a text writes. Two slashes in front are a root of their own. -/
def ofText (t : Text) : FilePath :=
  { root := match (t.takeWhile (· == '/')).length with
      | 0 => []
      | 2 => ['/', '/']
      | _ => ['/']
    parts := (Text.pieces (· == '/') t).filter fun p => !p.isEmpty && p != ['.'] }

/-- The shortest way to write a path; a point stands for the place itself. -/
def toText (p : FilePath) : Text :=
  if p.root.isEmpty && p.parts.isEmpty then ['.'] else p.root ++ Text.joinWith ['/'] p.parts

/-- The last part. -/
def name (p : FilePath) : Text := p.parts.getLastD []

/-- The last part, cut before its last point. A point at either end of it parts nothing. -/
def splitName (p : FilePath) : Text × Text :=
  let behind := (p.name.reverse.takeWhile (· != '.')).reverse
  let before := p.name.take (p.name.length - behind.length - 1)
  if before.isEmpty || behind.isEmpty then (p.name, []) else (before, '.' :: behind)

def stem (p : FilePath) : Text := p.splitName.1

def suffix (p : FilePath) : Text := p.splitName.2

/-- The same place without ways up that lead back. -/
def direct (p : FilePath) : FilePath :=
  { p with parts := p.parts.foldl (fun parts part =>
      if part == ['.', '.'] && !parts.isEmpty then parts.dropLast else parts ++ [part]) [] }

/-- A file in a folder. -/
def child (p : FilePath) (name : Text) : FilePath := { p with parts := p.parts ++ [name] }

end FilePath

end PageObjects
