import PageObjects.Json.Basic
import PageObjects.Decimal.Shortest
import PageObjects.Text.Printable

namespace PageObjects

namespace Json

/-- One character inside quotes. Beyond the basic plane it is written as two surrogates. -/
def escapeChar (c : Char) : Text :=
  if c = '"' then ['\\', '"']
  else if c = '\\' then ['\\', '\\']
  else if c = '\n' then ['\\', 'n']
  else if c = '\r' then ['\\', 'r']
  else if c = '\t' then ['\\', 't']
  else if c.toNat = 0x0C then ['\\', 'f']
  else if c.toNat = 0x08 then ['\\', 'b']
  else if 32 ≤ c.toNat ∧ c.toNat < 127 then [c]
  else if c.toNat < 0x10000 then '\\' :: 'u' :: hexDigits 4 c.toNat
  else
    let n := c.toNat - 0x10000
    '\\' :: 'u' :: hexDigits 4 (0xD800 + n / 0x400) ++
      '\\' :: 'u' :: hexDigits 4 (0xDC00 + n % 0x400)

def quoted (t : Text) : Text := '"' :: t.flatMap escapeChar ++ ['"']

/-- How items are set apart: spaces per level, or all on one line. -/
structure Layout where
  indent : Option Nat

/-- The break before an item at a level. -/
def Layout.break (layout : Layout) (level : Nat) : Text :=
  match layout.indent with
  | none => []
  | some n => '\n' :: List.replicate (n * level) ' '

/-- The comma between two items at a level. -/
def Layout.comma (layout : Layout) (level : Nat) : Text :=
  match layout.indent with
  | none => [',', ' ']
  | some _ => ',' :: layout.break level

mutual

def render (layout : Layout) (level : Nat) : Json → Text
  | null => "null"
  | bool true => "true"
  | bool false => "false"
  | int n => Text.ofInt n
  | real x => x.text "Infinity" "NaN"
  | text t => quoted t
  | list [] => "[]"
  | list (item :: items) =>
    '[' :: layout.break (level + 1) ++ render layout (level + 1) item ++
      renderItems layout (level + 1) items ++ layout.break level ++ [']']
  | object [] => "{}"
  | object ((key, value) :: fields) =>
    '{' :: layout.break (level + 1) ++ quoted key ++ ':' :: ' ' ::
      render layout (level + 1) value ++ renderFields layout (level + 1) fields ++
      layout.break level ++ ['}']

def renderItems (layout : Layout) (level : Nat) : List Json → Text
  | [] => []
  | item :: items => layout.comma level ++ render layout level item ++ renderItems layout level items

def renderFields (layout : Layout) (level : Nat) : List (Text × Json) → Text
  | [] => []
  | (key, value) :: fields =>
    layout.comma level ++ quoted key ++ ':' :: ' ' :: render layout level value ++
      renderFields layout level fields

end

/-- The text of a value, on one line if no indent is given. -/
def print (indent : Option Nat) (value : Json) : Text := render ⟨indent⟩ 0 value

end Json

end PageObjects
