import PageObjects.Locator.Suggest
import PageObjects.Script.Statement

namespace PageObjects

inductive ParameterType where
  | string | number | boolean | file | key | option
  deriving DecidableEq, Repr

def ParameterType.name : ParameterType → Text
  | string => "string"
  | number => "number"
  | boolean => "boolean"
  | file => "file"
  | key => "key"
  | option => "option"

/-- A value that a method should receive, or a constant of it, with the numbers of the actions that
use it. -/
structure Parameter where
  name : Text
  type : ParameterType
  sample : Literal
  isInput : Bool
  fromVariable : Bool
  actions : List Nat := []
  deriving Repr

/-- The types of the values that verbs pass on, and the names of such values if nothing else names
them. -/
def valueVerbs : List (Text × ParameterType × Text) := [
  ("fill", .string, "value"), ("type", .string, "value"),
  ("pressSequentially", .string, "value"), ("selectOption", .option, "option"),
  ("setInputFiles", .file, "filePath"), ("press", .key, "key"),
  ("setChecked", .boolean, "checked")]

/-- The type and the standard name of the value that a statement passes on. -/
def Content.valueType? (c : Content) : Option (ParameterType × Text) :=
  if c.subtype = some .keyboard then
    if c.verbIn ["type", "insertText"] then some (.string, "text") else some (.key, "key")
  else valueAt? (c.verb.getD []) valueVerbs

def isReferencePart (c : Char) : Bool := isWord c || c == '$' || c == '.'

/-- The name in a substitution, behind its opening bracket. -/
def substitution? (t : Text) : Option Text :=
  let t := Text.trimStart t
  let name := t.takeWhile isReferencePart
  if name.isEmpty || (Text.trimStart (t.dropWhile isReferencePart)).head? != some '\x7d' then none
  else some name

/-- The names that a template substitutes. -/
def substitutions : Text → List Text
  | '$' :: '\x7b' :: r => (substitution? r).toList ++ substitutions r
  | _ :: r => substitutions r
  | [] => []

/-- Identifiers that stand for values of their own. -/
def valueIdentifiers : List Text := ["true", "false", "null", "undefined"]

/-- A name after the last identifier that an argument reads from. -/
def variableName? (argument : Text) : Option Text :=
  let t := Text.trim argument
  let t := if t.head? = some '`' then ((substitutions t).getLast?).getD [] else t
  match (identifiers t).getLast? with
  | none => none
  | some name => if valueIdentifiers.contains name then none else some (camel (Text.words name))

/-- The type of a value: a literal has its own. -/
def Literal.parameterType (standard : ParameterType) : Option Literal → ParameterType
  | some (.bool _) => .boolean
  | some (.int _) => .number
  | some (.real _) => .number
  | _ => standard

/-- Literals that say nothing about an input: empty and truth values. -/
def Literal.isConstant : Literal → Bool
  | .null => true
  | .bool _ => true
  | .text t => t.isEmpty
  | _ => false

/-- The name of the value of an argument: that of a variable, else what the selector says, else the
standard name. Keys are not named after a selector. -/
def parameterName (argument : Text) (isLiteral : Bool) (selector : Option Selector)
    (type : ParameterType) (standard : Text) : Text :=
  let ownName := if isLiteral then none else variableName? argument
  let name := match ownName, selector with
    | some name, _ => name
    | none, some s => if type = .key then [] else camel (wordsOf s.content?)
    | none, none => []
  if name.isEmpty then standard else name

/-- The parameter of a statement, if it passes a value on. -/
def Content.parameter? (c : Content) (selector : Option Selector) : Option Parameter :=
  match c.valueType?, c.arguments with
  | some (type, standard), argument :: _ =>
    let value := Literal.read? argument
    some {
      name := parameterName argument value.isSome selector type standard
      type := Literal.parameterType type value
      sample := value.getD (.text argument)
      isInput := type != .key && type != .boolean && !value.any Literal.isConstant
      fromVariable := value.isNone }
  | _, _ => none

end PageObjects
