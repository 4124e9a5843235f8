import PageObjects.Url.Address
import PageObjects.Text.Case
import PageObjects.Text.Digit
import PageObjects.Text.Printable

namespace PageObjects

/-- What is wrong with the network location of a URL, or with a pattern in the place of one. -/
inductive UrlError where
  | unbalancedBrackets
  | futureAddress
  | quadInBrackets
  | noAddress (host : Text)
  | unsafeCharacters (location : Text)
  | tooManyRounds
  | clashingFlags
  | excess (error : Excess)
  deriving DecidableEq, Repr

def UrlError.message : UrlError → Text
  | unbalancedBrackets => "Invalid IPv6 URL"
  | futureAddress => "IPvFuture address is invalid"
  | quadInBrackets => "An IPv4 address cannot be in brackets"
  | noAddress host => Text.display host ++ " does not appear to be an IPv4 or IPv6 address"
  | unsafeCharacters location =>
    "netloc '" ++ location ++ "' contains invalid characters under NFKC normalization"
  | tooManyRounds => "the repetition number is too large"
  | clashingFlags => "ASCII and UNICODE flags are incompatible"
  | excess e => e.message

/-- The parts of a URL that are looked at. -/
structure UrlParts where
  scheme : Text
  location : Text
  path : Text
  deriving DecidableEq, Repr

def isSchemePart (c : Char) : Bool := c.isAlphanum || c == '+' || c == '-' || c == '.'

/-- The scheme at the start of a URL and what follows its colon. -/
def splitScheme (t : Text) : Text × Text :=
  match Text.cutAt ':' t with
  | (scheme, some rest) =>
    if scheme.head?.any Char.isAlpha && scheme.all isSchemePart then (Text.lower scheme, rest)
    else ([], t)
  | _ => ([], t)

def endsLocation (c : Char) : Bool := c == '/' || c == '?' || c == '#'

/-- Characters that compatibility forms turn into one of those that end a location. -/
def compatibilityMarks : List Nat := [
  0x2047, 0x2048, 0x2049, 0x2100, 0x2101, 0x2105, 0x2106, 0x2A74, 0xFE13, 0xFE16, 0xFE55, 0xFE56,
  0xFE5F, 0xFE6B, 0xFF03, 0xFF0F, 0xFF1A, 0xFF1F, 0xFF20]

/-- An address of a form to come: a `v`, a hexadecimal version, a point and something more. -/
def isFutureAddress : Text → Bool
  | 'v' :: r =>
    let version := r.takeWhile isHexadecimal
    match r.dropWhile isHexadecimal with
    | '.' :: rest => !version.isEmpty && !rest.isEmpty && !rest.contains '\n'
    | _ => false
  | _ => false

/-- What is wrong with a host in brackets. -/
def bracketedHostError? (host : Text) : Option UrlError :=
  if host.head? = some 'v' then if isFutureAddress host then none else some .futureAddress
  else if isDottedQuad host then some .quadInBrackets
  else if isGroupedAddress host then none
  else some (.noAddress host)

/-- What is wrong with the brackets of a location. -/
def bracketError? (location : Text) : Option UrlError :=
  if location.contains '[' != location.contains ']' then some .unbalancedBrackets
  else if location.contains '[' then
    let behind := ((Text.cutAt '[' location).2).getD []
    bracketedHostError? (Text.cutAt ']' behind).1
  else none

def locationError? (location : Text) : Option UrlError :=
  (bracketError? location).or
    (if location.any fun c => compatibilityMarks.contains c.toNat then
      some (.unsafeCharacters location)
    else none)

/-- A text up to the first `c`. -/
def upTo (c : Char) (t : Text) : Text := (Text.cutAt c t).1

/-- A URL without control characters and spaces before it and without line breaks and tabs. -/
def cleanUrl (t : Text) : Text :=
  (t.dropWhile fun c => c.toNat ≤ 32).filter fun c => c != '\t' && c != '\r' && c != '\n'

/-- The parts of a URL. -/
def splitUrl (t : Text) : Except UrlError UrlParts :=
  let (scheme, rest) := splitScheme (cleanUrl t)
  let (location, rest) := match rest with
    | '/' :: '/' :: r => (r.takeWhile (fun c => !endsLocation c), r.dropWhile fun c => !endsLocation c)
    | r => ([], r)
  match locationError? location with
  | some e => .error e
  | none => .ok ⟨scheme, location, upTo '?' (upTo '#' rest)⟩

/-- What stands behind the last `c`, or the whole text. -/
def afterLast (c : Char) (t : Text) : Text := (t.reverse.takeWhile (· != c)).reverse

/-- The host of a location: no user, no port, in small letters up to a zone. -/
def hostOf? (location : Text) : Option Text :=
  let address := afterLast '@' location
  let host := match Text.cutAt '[' address with
    | (_, some inner) => upTo ']' inner
    | _ => upTo ':' address
  if host.isEmpty then none
  else match Text.cutAt '%' host with
    | (name, some zone) => some (Text.lower name ++ '%' :: zone)
    | (name, none) => some (Text.lower name)

end PageObjects
