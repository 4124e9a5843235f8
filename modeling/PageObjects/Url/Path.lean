import PageObjects.Text.Digit
import PageObjects.Url.Split

namespace PageObjects

def isTextQuote (c : Char) : Bool := c == '`' || c == '\'' || c == '"'

/-- A URL without quotes around it and without a substitution at its front. -/
def stripTemplate (url : Text) : Text :=
  let t := Text.stripWhile isTextQuote url
  match t with
  | '$' :: '\x7b' :: r =>
    match Text.cutAt '\x7d' r with
    | (_, some rest) => rest
    | _ => t
  | _ => t

/-- The host of a URL, if it names one. -/
def urlHost? (url : Text) : Except UrlError (Option Text) :=
  if url.isEmpty then .ok none
  else (splitUrl (stripTemplate url)).map fun parts => hostOf? parts.location

/-- Runs of slashes become one slash. -/
def collapseSlashes : Text → Text
  | '/' :: '/' :: r => collapseSlashes ('/' :: r)
  | c :: r => c :: collapseSlashes r
  | [] => []

/-- A path with one slash in front, single slashes within and none at the end. -/
def normalizePath (path : Text) : Text :=
  let path := collapseSlashes path
  let path := if path.head? = some '/' then path else '/' :: path
  if 1 < path.length then Text.dropEndWhile (· == '/') path else path

/-- The path of a URL or a URL glob; that of the root is a slash. -/
def urlPath (url : Text) : Except UrlError Text :=
  let t := stripTemplate url
  let t := match t with
    | '*' :: '*' :: r => r
    | r => r
  (splitUrl t).map fun parts =>
    normalizePath (if !parts.scheme.isEmpty || !parts.location.isEmpty then parts.path
      else upTo '#' (upTo '?' t))

/-- The segments of a path. -/
def segmentsOf (path : Text) : List Text :=
  (Text.pieces (· == '/') path).filter fun s => !s.isEmpty

def pathSegments (url : Text) : Except UrlError (List Text) := (urlPath url).map segmentsOf

def isUuidDigit (c : Char) : Bool :=
  c.isDigit || ('a' ≤ c && c ≤ 'f') || ('A' ≤ c && c ≤ 'F')

/-- Five groups of hexadecimal digits with hyphens between them; a line feed may follow. -/
def isUuid (t : Text) : Bool :=
  let t := if t.getLast? = some '\n' then t.dropLast else t
  let groups := Text.pieces (· == '-') t
  groups.map List.length == [8, 4, 4, 4, 12] && groups.all fun g => g.all isUuidDigit

/-- The placeholder for a segment that differs from visit to visit. -/
def placeholder? (segment : Text) : Option Text :=
  if Text.includes "$\x7b" segment || segment.head? == some ':' then some ":param"
  else if (!segment.isEmpty && segment.all isDigitSign) || isUuid segment then some ":id"
  else none

def isStars (segment : Text) : Bool := segment.all (· == '*')

/-- A path pattern in which numbers, keys and parameters are placeholders and globs are left out. -/
def urlPattern (url : Text) : Except UrlError Text :=
  (pathSegments url).map fun segments =>
    '/' :: Text.joinWith ['/'] ((segments.filter fun s => !isStars s).map fun s =>
      (placeholder? s).getD s)

/-- The segments that describe a page: no placeholders and no globs. -/
def meaningfulSegments (url : Text) : Except UrlError (List Text) :=
  (pathSegments url).map fun segments =>
    segments.filter fun s => !isStars s && (placeholder? s).isNone

end PageObjects
