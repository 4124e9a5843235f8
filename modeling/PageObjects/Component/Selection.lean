import PageObjects.Component.Recurrence
import PageObjects.Recommendation

namespace PageObjects

/-- Confidence in a pattern from which on it is a component. -/
def componentThreshold : Nat := 50

/-- Confidence in a component of the given length that is seen on some pages. -/
def componentConfidence (length pages : Nat) (isExact : Bool) (type : ComponentType) : Nat :=
  if length = 1 ∧ pages = 2 ∧ type = .custom then 45
  else
    let base :=
      if 3 ≤ pages then if isExact then 90 + 2 * (pages - 3) else 85
      else if isExact then 80 else 72
    min (if type = .custom then base else base + 5) 100

/-- The components chosen so far, the numbers of the actions that they take, and what is
recommended instead. -/
structure Choice where
  drafts : List ComponentDraft := []
  taken : List Nat := []
  recommendations : List Recommendation := []

namespace Choice

def isFree (c : Choice) (o : Occurrence) : Bool := !o.numbers.any c.taken.contains

/-- Takes the actions of a component. -/
def accept (c : Choice) (draft : ComponentDraft) : Choice :=
  { c with
    drafts := c.drafts ++ [draft]
    taken := c.taken ++ draft.instances.flatMap Occurrence.numbers }

def recommend (c : Choice) (r : Recommendation) : Choice :=
  { c with recommendations := c.recommendations ++ [r] }

end Choice

def linesOf (instances : List Occurrence) : List Nat :=
  ((instances.flatMap (·.actions)).map (·.line)).mergeSort

/-- Whether all occurrences have the same verbs and selectors. -/
def allExact (instances : List Occurrence) : Bool :=
  match instances.map fun o => o.actions.map Action.exactKey with
  | [] => false
  | key :: keys => keys.all (· == key)

/-- The recommendation for a pattern that is too weak for a component. -/
def weakPattern (instances : List Occurrence) (confidence : Nat) : Recommendation :=
  let first := (instances.head?.bind fun o => o.actions.head?)
  .repeatedAction ((first.bind Action.verb).getD []) ((first.map Action.raw).getD [])
    (instances.map (·.page)) confidence (linesOf instances)

/-- Tries a pattern. -/
def Choice.tryPattern (options : ComponentOptions) (required : Nat) (c : Choice)
    (r : Recurrence) : Choice :=
  let instances := r.byPage.filterMap fun os => os.find? c.isFree
  if instances.length < required then c
  else
    let type := ComponentType.ofActions (instances.flatMap (·.actions))
    if !type.isEnabled options then c
    else
      let isExact := allExact instances
      let confidence := componentConfidence r.key.length instances.length isExact type
      if confidence < componentThreshold then c.recommend (weakPattern instances confidence)
      else c.accept ⟨type, confidence, instances, isExact, false⟩

/-- A component has to be seen on at least two pages, or on more if the options say so. -/
def ComponentOptions.required (options : ComponentOptions) : Nat := max options.minAppearances.val 2

/-- The components among recurring patterns. -/
def recurringComponents (options : ComponentOptions) (pages : List Page) : Choice :=
  (recurrences options.required pages).foldl (Choice.tryPattern options options.required) {}

/-- The longest stretches of a list on which `p` holds, the one that is open first. -/
def stretchesFrom {α : Type} (p : α → Bool) (stretch : List α) : List α → List (List α)
  | [] => nonEmptyList stretch
  | x :: rest =>
    if p x then stretchesFrom p (stretch ++ [x]) rest
    else nonEmptyList stretch ++ stretchesFrom p [] rest

/-- Whether the words of an action alone tell a type. -/
def Action.tellsType (a : Action) : Bool :=
  let type := ComponentType.ofActions [a]
  type != .custom && type != .form

/-- The stretches of at least two free actions on a page that tell a type. -/
def Page.landmarkStretches (c : Choice) (p : Page) : List Occurrence :=
  ((p.runs.flatMap (stretchesFrom (fun a => !c.taken.contains a.number && a.tellsType) [])).filter
    fun s => 2 ≤ s.length).map fun s => ⟨p.number, s⟩

def provisionalConfidence (o : Occurrence) : Nat :=
  if o.actions.any Action.hasLandmark then 60 else 55

/-- Takes a stretch that is seen on one page only, if one appearance is enough, or recommends to
look for more. -/
def Choice.tryStretch (options : ComponentOptions) (pageName : Text) (c : Choice)
    (o : Occurrence) : Choice :=
  let type := ComponentType.ofActions o.actions
  let confidence := provisionalConfidence o
  if !type.isEnabled options then c
  else if 1 < options.minAppearances.val then
    c.recommend (.seenOnce type pageName o.page confidence (linesOf [o]))
  else c.accept ⟨type, confidence, [o], true, true⟩

/-- Adds what is seen on one page only. -/
def Choice.addProvisional (options : ComponentOptions) (c : Choice) (p : Page) : Choice :=
  (p.landmarkStretches c).foldl (Choice.tryStretch options p.name) c

/-- All components of some pages that are not named yet, in the order of their first lines. -/
def chooseComponents (options : ComponentOptions) (pages : List Page) : Choice :=
  pages.foldl (Choice.addProvisional options) (recurringComponents options pages)

def ComponentDraft.firstLine (d : ComponentDraft) : Nat :=
  (d.instances.map (·.firstLine)).min?.getD 0

/-- Words that name a kind of component themselves. -/
def kindWords : List Text := ["modal", "dialog", "form", "component"]

/-- Words that end the name of a menu. -/
def menuTails : List Text := ["menu", "nav", "navigation", "navbar", "sidebar", "breadcrumbs"]

/-- A name from the type and from what the selector of the first action says. -/
def ComponentDraft.title (d : ComponentDraft) : Text :=
  let first := (d.instances.head?.bind fun o => o.actions.head?).bind (·.selector)
  let words := (wordsOf (first.bind fun s => s.content?)).filter fun w => !kindWords.contains w
  if d.type = .header ∨ d.type = .footer then d.type.suffix
  else if words.isEmpty then
    match d.type with
    | .navigation => "Navigation"
    | .custom => "SharedComponent"
    | type => type.suffix
  else if d.type = .navigation ∧ words.getLast?.any menuTails.contains then pascal words
  else pascal words ++ d.type.suffix

/-- Components that are numbered and named in the order of their first lines. -/
def nameComponents (drafts : List ComponentDraft) : List Component :=
  let sorted := drafts.mergeSort fun a b => a.firstLine ≤ b.firstLine
  let names := (uniqueNames [] (sorted.map ComponentDraft.title)).1
  ((sorted.zip names).zipIdx).map fun ((d, name), i) =>
    { d with number := i + 1, name := name }

/-- The components of a document and what is recommended about others. -/
structure ComponentFindings where
  components : List Component
  recommendations : List Recommendation

def findComponents (options : ComponentOptions) (pages : List Page) : ComponentFindings :=
  let choice := chooseComponents options pages
  ⟨nameComponents choice.drafts, choice.recommendations⟩

/-- The component to which each action that belongs to one is left. -/
def usages (components : List Component) : List (Nat × Nat) :=
  components.flatMap fun c =>
    (c.instances.flatMap Occurrence.numbers).map fun n => (n, c.number)

end PageObjects
