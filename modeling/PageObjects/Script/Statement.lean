import PageObjects.Script.Literal

namespace PageObjects

inductive StatementKind where
  | navigation | interaction | wait | assertion | structural
  deriving DecidableEq, Repr

def StatementKind.text : StatementKind → Text
  | navigation => "navigation"
  | interaction => "interaction"
  | wait => "wait"
  | assertion => "assertion"
  | structural => "structural"

/-- What sets an interaction apart from plain work on an element. -/
inductive Subtype where
  | keyboard | mouse | newTab | dialog | fileUpload | tabSwitch | query | custom
  deriving DecidableEq, Repr

def Subtype.text : Subtype → Text
  | keyboard => "keyboard"
  | mouse => "mouse"
  | newTab => "new_tab"
  | dialog => "dialog"
  | fileUpload => "file_upload"
  | tabSwitch => "tab_switch"
  | query => "query"
  | custom => "custom"

/-- What a line is that does nothing on a page. -/
inductive StructuralRole where
  | comment | importing | testDeclaration | describe | hook | branch | loop | blockClose
  | locatorDeclaration | expression | code
  deriving DecidableEq, Repr

def StructuralRole.text : StructuralRole → Text
  | comment => "comment"
  | importing => "import"
  | testDeclaration => "test_declaration"
  | describe => "describe"
  | hook => "hook"
  | branch => "branch"
  | loop => "loop"
  | blockClose => "block_close"
  | locatorDeclaration => "locator_declaration"
  | expression => "expression"
  | code => "code"

inductive BlockKind where
  | test | describe | hook | branch | loop | callback
  deriving DecidableEq, Repr

def BlockKind.text : BlockKind → Text
  | test => "test"
  | describe => "describe"
  | hook => "hook"
  | branch => "branch"
  | loop => "loop"
  | callback => "callback"

/-- The kind of block that a line with the given role opens. -/
def StructuralRole.blockKind : Option StructuralRole → BlockKind
  | some .testDeclaration => .test
  | some .describe => .describe
  | some .hook => .hook
  | some .branch => .branch
  | some .loop => .loop
  | _ => .callback

/-- What a statement does, apart from where it stands, and what is too much about its arguments. -/
structure Content where
  kind : StatementKind
  verb : Option Text := none
  selector : Option Text := none
  literals : List Literal := []
  url : Option Text := none
  subtype : Option Subtype := none
  role : Option StructuralRole := none
  arguments : List Text := []
  pageVariable : Option Text := none
  timeout : Option Nat := none
  negated : Bool := false
  title : Option Text := none
  excess : Option Excess := none
  deriving Repr

/-- A statement: its content, its lines and its source, the blocks around it from the outermost to
the innermost, and whether more statements share its line. -/
structure Statement extends Content where
  line : Nat
  endLine : Nat
  source : Text
  blocks : List BlockKind := []
  sharesLine : Bool := false
  deriving Repr

namespace Content

def isStructural (c : Content) : Bool := c.kind == .structural

/-- Whether the verb is one of those listed. -/
def verbIn (verbs : List Text) (c : Content) : Bool := c.verb.any verbs.contains

def structural (role : StructuralRole) : Content := { kind := .structural, role := some role }

end Content

/-- The last line that any of the statements reaches. -/
def lastLine? (statements : List Statement) : Option Nat :=
  (statements.map fun s => s.endLine).max?

end PageObjects
