import PageObjects.Method.Basic

namespace PageObjects

/-- The owner of methods as far as they depend on it: its URL, its page and the page behind it. -/
structure Owner where
  id : Id
  url : Option Text := none
  page : Option Page := none
  next : Option Page := none

/-- The methods that drafts of an owner become, and what is doubtful about them. -/
def buildMethods (owner : Owner) (book : NameBook) :
    List Draft → Except UrlError (List Method × List Warning)
  | [] => .ok ([], [])
  | d :: rest => do
    let (naming, book) ← d.naming owner.url book
    let m := d.toMethod owner.id naming owner.page owner.next
    let (methods, warnings) ← buildMethods owner book rest
    return (m :: methods, namelessWarnings d m ++ warnings)

/-- The methods of one owner, whose items are given. -/
def methodsOf (options : MethodOptions) (usages : List (Nat × Nat)) (owner : Owner)
    (items : List Item) : Except UrlError (List Method × List Warning) :=
  buildMethods owner {} (Draft.ofItems options usages items)

/-- Each page as an owner, with the page behind it. -/
def pageOwners : List Page → List (Owner × List Item)
  | [] => []
  | page :: rest =>
    ({ id := page.id, url := page.url, page := some page, next := rest.head? }, page.items) ::
      pageOwners rest

/-- A component as an owner; its first instance stands for the others. -/
def componentOwner (c : Component) : Owner × List Item :=
  ({ id := c.id }, c.model.map Item.action)

/-- The methods of owners, one list for each. -/
def methodsOfAll (options : MethodOptions) (usages : List (Nat × Nat)) :
    List (Owner × List Item) → Except UrlError (List (Id × List Method) × List Warning)
  | [] => .ok ([], [])
  | (owner, items) :: rest => do
    let (methods, warnings) ← methodsOf options usages owner items
    let (others, more) ← methodsOfAll options usages rest
    return ((owner.id, methods) :: others, warnings ++ more)

/-- Numbers methods on from `n`. -/
def numberMethods (n : Nat) : List Method → List Method
  | [] => []
  | m :: rest => { m with number := n } :: numberMethods (n + 1) rest

/-- Numbers the methods of all owners on from `n`. -/
def numberOwners (n : Nat) : List (Id × List Method) → List (Id × List Method)
  | [] => []
  | (owner, methods) :: rest =>
    (owner, numberMethods n methods) :: numberOwners (n + methods.length) rest

/-- The methods of a document by their owners, and what is doubtful about them. -/
structure MethodFindings where
  methods : List (Id × List Method)
  warnings : List Warning

/-- Suggests methods for all pages and components. -/
def suggestMethods (options : MethodOptions) (pages : List Page) (components : List Component) :
    Except UrlError MethodFindings := do
  let (own, warnings) ← methodsOfAll options (usages components) (pageOwners pages)
  let (shared, more) ← methodsOfAll options [] (components.map componentOwner)
  return ⟨numberOwners 1 (own ++ shared), warnings ++ more⟩

end PageObjects
