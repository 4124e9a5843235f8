import PageObjects.Pattern.Match
import PageObjects.Pattern.Reader
import PageObjects.Script.Literal
import PageObjects.Url.Glob
import PageObjects.Url.Path

namespace PageObjects

/-- Which part of a URL has to change to make another page. -/
inductive UrlThreshold where
  | full | path | domain
  deriving DecidableEq, Repr

def UrlThreshold.name : UrlThreshold → Text
  | full => "full"
  | path => "path"
  | domain => "domain"

/-- Whether an argument is a regular expression literal. -/
def isPatternArgument (argument : Option Text) : Bool :=
  argument.any fun t => (Literal.patternParts? (Text.trim t)).isSome

/-- The body and the flags of a pattern that stands for a URL; one that is no literal is all body.
A line feed may follow the literal. -/
def urlPatternParts (target : Text) : Text × Text :=
  let literal := if target.getLast? = some '\n' then target.dropLast else target
  (Literal.patternParts? literal).getD (target, [])

/-- Whether the pattern of a literal occurs in a URL. A malformed one occurs nowhere. -/
def patternOccurs (target url : Text) : Except UrlError Bool :=
  let (body, flags) := urlPatternParts target
  match Pattern.ofText (flags.contains 'i') body with
  | .ok p => .ok (p.foundIn url)
  | .error .malformed => .ok false
  | .error .tooManyRounds => .error .tooManyRounds
  | .error .clashingFlags => .error .clashingFlags
  | .error (.excess e) => .error (.excess e)

/-- Whether the hosts agree. A target without a host stays on the one that is open. -/
def sameDomain (target current : Text) : Except UrlError Bool := do
  match ← urlHost? target with
  | none => return true
  | some host => return some host == (← urlHost? current)

/-- Whether whole URLs agree, slashes at their ends apart. A glob may leave out what its leading
stars stand for. -/
def sameUrl (target current : Text) : Bool :=
  if target.contains '*' then
    globMatches target current || globMatches (target.dropWhile (· == '*')) current
  else Text.dropEndWhile (· == '/') target == Text.dropEndWhile (· == '/') current

/-- Whether the path of the target is that of the open page or lies below it. Nothing counts as
below the root. -/
def samePath (target current : Text) : Except UrlError Bool := do
  let targetPath ← urlPath target
  let currentPath ← urlPath current
  if targetPath.contains '*' then return globMatches targetPath currentPath
  return targetPath == currentPath ||
    (currentPath != ['/'] && (currentPath ++ ['/']).isPrefixOf targetPath)

/-- Whether a target, which may be a pattern, refers to the page with the given URL. An unknown URL
is never the same. -/
def samePage (threshold : UrlThreshold) (isPattern : Bool) (target : Text) :
    Option Text → Except UrlError Bool
  | none => .ok false
  | some current =>
    match threshold, isPattern with
    | .domain, _ => sameDomain target current
    | .full, true => patternOccurs target current
    | .path, true => do patternOccurs target (← urlPath current)
    | .full, false => .ok (sameUrl target current)
    | .path, false => samePath target current

end PageObjects
