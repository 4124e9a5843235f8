import PageObjects.Method.Draft
import PageObjects.Name

namespace PageObjects

/-- The words with which names begin, by verb. -/
def verbWords : List (Text × Text) := [
  ("click", "click"), ("dblclick", "doubleClick"), ("tap", "tap"), ("fill", "fill"),
  ("type", "type"), ("pressSequentially", "type"), ("press", "press"), ("check", "check"),
  ("uncheck", "uncheck"), ("setChecked", "toggle"), ("selectOption", "select"),
  ("hover", "hover"), ("focus", "focus"), ("clear", "clear"), ("setInputFiles", "upload"),
  ("dragTo", "drag"), ("handleDialog", "handle")]

/-- Words that name an action by themselves. -/
def actionWords : List Text :=
  List.append [
    "accept", "add", "apply", "back", "buy", "cancel", "checkout", "close", "confirm", "continue",
    "create", "decline", "delete", "download", "edit", "go", "login", "log"] [
    "logout", "next", "open", "place", "proceed", "register", "remove", "reset", "save", "search",
    "send", "show", "sign", "start", "submit", "update", "upload", "view"]

/-- Words of selectors that say nothing about their target. -/
def noiseWords : List Text := [
  "get", "by", "role", "locator", "name", "exact", "true", "false", "data", "testid", "test", "id",
  "nth", "first", "last", "css", "xpath", "div", "span", "text", "has", "is", "filter", "label",
  "placeholder"]

/-- What a name rests on. -/
inductive NameRule where
  | explicit | urlContext | verbNoun | generic
  deriving DecidableEq, Repr

def NameRule.confidence : NameRule → Nat
  | explicit => 90
  | urlContext => 75
  | verbNoun => 65
  | generic => 50

/-- A name with what it rests on and the names that come after it. -/
structure Naming where
  name : Text
  rule : NameRule
  alternatives : List Text
  deriving DecidableEq, Repr

/-- The names that are given away to one owner, and how many of them are generic. -/
structure NameBook where
  taken : List Text := []
  generics : Nat := 0

/-- The words of the last segment of a URL that describes a page. -/
def lastUrlWords (url : Option Text) : Except UrlError (List Text) :=
  match nonEmpty url with
  | none => .ok []
  | some u => (meaningfulSegments u).map fun segments =>
    (segments.getLast?.map Text.words).getD []

/-- The word for the verb of an action; `standard` where there is none. -/
def verbWord (standard : Text) (a : Option Action) : Text :=
  ((a.bind Action.verb).bind fun v => valueAt? v verbWords).getD standard

/-- Words of a selector that say something about its target, or those of its role. -/
def Action.nounWords (a : Action) : List Text :=
  let noun := (Text.words a.raw).filter fun w => !noiseWords.contains w && !w.all isDecimal
  lastTwo (if noun.isEmpty then wordsOf (Details.role? a.details) else noun)

namespace Draft

def doesAny (d : Draft) (verbs : List Text) : Bool := d.actions.any (·.verbIn verbs)

/-- The name that what the selector of the last action says gives. -/
def explicitName? (d : Draft) : Option Text :=
  let terminal := d.terminal?
  let verb := verbWord "perform" terminal
  let content := (wordsOf ((terminal.bind (·.selector)).bind fun s => s.content?)).take 4
  match content with
  | [] => none
  | first :: _ =>
    some (safeMethodName (camel (if actionWords.contains first then content else verb :: content))
      verb)

/-- The name that the words of a URL give. -/
def urlName? (d : Draft) (urlWords : List Text) : Option Text :=
  let terminal := d.terminal?
  if urlWords.isEmpty then none
  else if d.doesAny fillVerbs ∧ d.doesAny terminalVerbs then some (camel ("submit" :: urlWords))
  else if d.doesAny fillVerbs then some (camel ("fill" :: urlWords.concat "form"))
  else if terminal.any fun a => a.kind = .wait then some (camel ("wait" :: "for" :: urlWords))
  else some (camel (verbWord "perform" terminal :: urlWords))

/-- The name that the verb and the selector of the last action give. -/
def verbNounName? (d : Draft) : Option Text :=
  d.terminal?.bind fun terminal =>
    let verb := verbWord "perform" (some terminal)
    let noun := if terminal.selector.isSome then terminal.nounWords else []
    if !noun.isEmpty then some (safeMethodName (camel (verb :: noun)) verb)
    else if terminal.kind = .wait then some (camel (wordsOf terminal.verb))
    else none

/-- All names that a draft could have, the best first and each once. -/
def names (d : Draft) (urlWords : List Text) : List (NameRule × Text) :=
  let all := [(NameRule.explicit, d.explicitName?), (.urlContext, d.urlName? urlWords),
    (.verbNoun, d.verbNounName?)]
  let found := all.filterMap fun (rule, name) => (nonEmpty name).map fun n => (rule, n)
  found.eraseDupsBy fun a b => a.2 == b.2

/-- The name of a draft of actions, and the names given away with it. -/
def actionName (d : Draft) (urlWords : List Text) (book : NameBook) : Naming × NameBook :=
  match d.names urlWords with
  | (rule, name) :: more =>
    let name := uniqueName name book.taken
    (⟨name, rule, more.map (·.2)⟩, { book with taken := name :: book.taken })
  | [] =>
    let n := Text.ofNat (book.generics + 1)
    let name := uniqueName ("performAction" ++ n) book.taken
    (⟨name, .generic, [verbWord "do" d.terminal? ++ "Step" ++ n, "handleStep" ++ n]⟩,
      ⟨name :: book.taken, book.generics + 1⟩)

/-- The name of a draft that navigates: its verb. -/
def navigationName (d : Draft) (book : NameBook) : Except UrlError (Naming × NameBook) := do
  let first := d.actions.head?
  let urlWords ← lastUrlWords (first.bind fun a => a.statement.url)
  let name := uniqueName ((nonEmpty (first.bind Action.verb)).getD "goto") book.taken
  return (⟨name, .explicit, [if urlWords.isEmpty then "open" else camel ("open" :: urlWords)]⟩,
    { book with taken := name :: book.taken })

/-- The words for what an assertion checks. -/
def subjectWords (a : Assertion) : Except UrlError (List Text) :=
  match a.selector, a.type, a.expected with
  | some s, _, _ => .ok ((wordsOf s.content?).take 3)
  | none, .url, some (.text t) => lastUrlWords (some t)
  | _, _, _ => .ok []

/-- The word that ends the name of a check. -/
def checkWords : AssertionType → List Text
  | .text => ["text"]
  | .visible => ["visible"]
  | .url => ["url"]
  | .value => ["value"]
  | .custom => []

/-- The name of a draft that checks something. -/
def checkName (d : Draft) (book : NameBook) : Except UrlError (Naming × NameBook) := do
  let subject ← match d.assertions.head? with
    | some a => subjectWords a
    | none => .ok []
  let words := subject ++ (d.assertions.head?.map fun a => checkWords a.type).getD []
  let name := uniqueName (camel ("verify" :: words)) book.taken
  return (⟨name, if subject.isEmpty then .generic else .urlContext,
      [camel ("expect" :: words), camel ("assert" :: words)]⟩,
    { book with taken := name :: book.taken })

/-- The name of a draft whose owner has the given URL. -/
def naming (d : Draft) (url : Option Text) (book : NameBook) :
    Except UrlError (Naming × NameBook) :=
  match d.kind with
  | .navigation => d.navigationName book
  | .verification => d.checkName book
  | _ => (lastUrlWords url).map fun urlWords => d.actionName urlWords book

end Draft

end PageObjects
