import PageObjects.Method.Suggestion

namespace PageObjects

/-- What a step does: it calls a method, or it stands for an item that no method has. -/
inductive StepTarget where
  | method (number : Nat) (component : Option Nat)
  | item (id : Id)
  deriving DecidableEq, Repr

structure Step where
  page : Nat
  target : StepTarget
  line : Nat
  deriving DecidableEq, Repr

structure Sequence where
  name : Text
  steps : List Step
  deriving DecidableEq, Repr

/-- A stretch of lines, up to another line or to the end. -/
structure Block where
  name : Text
  first : Nat
  stop : Option Nat
  deriving DecidableEq, Repr

def Block.holds (b : Block) (line : Nat) : Bool := b.first ≤ line && b.stop.all fun n => line < n

def testsOf (statements : List Statement) : List Statement :=
  statements.filter fun s => s.role == some .testDeclaration

/-- The blocks of tests, each up to the next one; `n` tests stand before them. -/
def testBlocks (n : Nat) : List Statement → List Block
  | [] => []
  | t :: rest =>
    ⟨(nonEmpty t.title).getD ("test " ++ Text.ofNat (n + 1)), t.line, rest.head?.map (·.line)⟩ ::
      testBlocks (n + 1) rest

/-- The blocks of a document: a single one if there are no tests; else one for each of them, and
one for what stands before the first, if there is something. -/
def blocksOf (tests : List Statement) (items : List Item) : List Block :=
  match tests with
  | [] => [⟨"main flow", 0, none⟩]
  | first :: _ =>
    let start := ((items.map Item.line).min?).getD 0
    (if start < first.line then [⟨"setup", 0, some first.line⟩] else []) ++ testBlocks 0 tests

/-- The methods of pages. -/
def pageMethods (methods : List (Id × List Method)) : List Method :=
  (methods.filter fun (owner, _) =>
    match owner with
    | .page _ => true
    | _ => false).flatMap (·.2)

def Method.holds (m : Method) : Id → Bool
  | .action n => m.actions.contains n
  | .assertion n => m.assertions.contains n
  | _ => false

/-- The step that an item of a page leads to. -/
def stepOf (methods : List Method) (page : Nat) (item : Item) : Step :=
  match methods.find? fun m => m.holds item.id with
  | some m => ⟨page, .method m.number m.component, item.line⟩
  | none => ⟨page, .item item.id, item.line⟩

/-- Steps without those that repeat a method. -/
def firstCalls (called : List Nat) : List Step → List Step
  | [] => []
  | s :: rest =>
    match s.target with
    | .method n _ =>
      if called.contains n then firstCalls called rest else s :: firstCalls (n :: called) rest
    | .item _ => s :: firstCalls called rest

/-- The sequence of a block. -/
def Block.sequence (methods : List Method) (pages : List Page) (b : Block) : Sequence :=
  { name := b.name
    steps := firstCalls [] (pages.flatMap fun p =>
      (p.items.filter fun i => b.holds i.line).map (stepOf methods p.number)) }

/-- The sequences of a document. Without tests there is one, even if it has no steps; else those
that have none are left out. -/
def sequencesOf (statements : List Statement) (pages : List Page)
    (methods : List (Id × List Method)) : List Sequence :=
  let tests := testsOf statements
  let all := (blocksOf tests (allItems pages)).map (Block.sequence (pageMethods methods) pages)
  if tests.isEmpty then all else all.filter fun s => !s.steps.isEmpty

end PageObjects
