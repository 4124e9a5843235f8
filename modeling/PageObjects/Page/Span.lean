import PageObjects.Locator.Classify
import PageObjects.Locator.Suggest
import PageObjects.Name
import PageObjects.Page.Paging
import PageObjects.Warning

namespace PageObjects

/-- A page as a stretch of statements, with its name and the pattern of its URL. -/
structure PageSpan extends ClosedPage where
  name : Text
  urlPattern : Option Text
  deriving Repr

/-- The words in what a locator says about its target, some left out. -/
def contentWords (expression : Option Text) (ignored : List Text) : List Text :=
  match nonEmpty expression with
  | none => []
  | some e => (wordsOf (Selector.ofExpression e).content?).filter fun w => !ignored.contains w

def lastTwo (words : List Text) : List Text := words.drop (words.length - 2)

namespace ClosedPage

/-- The words that the URL of a page gives: none of them for the root, nothing if there is no
URL. -/
def urlWords (p : ClosedPage) : Except UrlError (Option (List Text)) :=
  match p.url with
  | none => .ok none
  | some url =>
    if p.urlIsPattern then
      .ok (some (lastTwo ((Text.words url).filter fun w => w.all isLetter)))
    else (meaningfulSegments url).map fun segments =>
      some ((segments.getLast?.map Text.words).getD [])

/-- The pattern of the URL of a page; one that is written as a pattern stays as it is. -/
def pattern (p : ClosedPage) : Except UrlError (Option Text) :=
  match p.url with
  | none => .ok none
  | some url => if p.urlIsPattern then .ok (some url) else (urlPattern url).map some

/-- The title of a dialog or a tab: what its locator says, or the title of its host. -/
def partTitle (p : ClosedPage) (ignored : List Text) (host : Option Text) (kind : Text) : Text :=
  let own := contentWords p.nameHint ignored
  let words := if own.isEmpty then (wordsOf host).filter (· != ("page" : Text)) else own
  (if words.isEmpty then ("Main" : Text) else pascal words) ++ kind

/-- The title of a page with the given words. -/
def wordsTitle (words : List Text) : Text :=
  let words := if words.getLast? = some ("page" : Text) then
      if 1 < words.length then words.dropLast else ["main"]
    else words
  pascal words ++ "Page"

/-- The title of a page that is no part of another one. -/
def ownTitle (p : ClosedPage) : Except UrlError Text := do
  match ← p.urlWords with
  | some [] => return "HomePage"
  | some words => return wordsTitle words
  | none =>
    let words := if p.origin = .pageSwitch then wordsOf (p.nameHint.map (afterLast '.')) else []
    return if words.isEmpty then "MainPage" else wordsTitle words

/-- The title of a page, given those of the pages before it. -/
def title (titles : List Text) (p : ClosedPage) : Except UrlError Text :=
  let host := p.host.bind fun n => titles[n]?
  match p.origin, host with
  | .modal, _ => .ok (p.partTitle modalWords host "Modal")
  | .tab, _ => .ok (p.partTitle tabWords host "Tab")
  | .modalClose, some name => .ok name
  | _, _ => p.ownTitle

end ClosedPage

/-- Names pages, given the titles and the names of the pages before them. -/
def nameSpans (titles taken : List Text) : List ClosedPage → Except UrlError (List PageSpan)
  | [] => .ok []
  | page :: rest => do
    let title ← page.title titles
    let pattern ← page.pattern
    let name := uniqueName title taken
    let spans ← nameSpans (titles ++ [title]) (name :: taken) rest
    return { page with name := name, urlPattern := pattern } :: spans

/-- The pages of some statements. -/
def PageSpan.ofStatements (options : PageOptions) (statements : List Statement) :
    Except UrlError (List PageSpan) := do
  nameSpans [] [] (← Paging.run options {} statements).finish

/-- A single page that nothing opens is doubtful. -/
def pageWarnings : List PageSpan → List Warning
  | [page] =>
    if page.origin = .start then
      [.uncertainPages (((page.statements.filter fun s => !s.isStructural).map (·.line)).take 1)]
    else []
  | _ => []

end PageObjects
