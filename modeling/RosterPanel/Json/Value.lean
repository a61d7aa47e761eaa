import RosterPanel.Json.Token
import RosterPanel.Table

/-!
# JSON values

Values, their tokens and their compact text. An object keeps its fields in the order in which they
are written; objects that are read as values come with ascending names and no name twice.
-/

namespace RosterPanel.Json

inductive Value
  | null
  | bool (value : Bool)
  | number (value : Number)
  | string (value : String)
  | array (items : List Value)
  | object (fields : List (String × Value))
deriving Repr, Inhabited

namespace Value

mutual

/-- The tokens of a value. -/
def tokens : Value → List Token
  | .null => [.null]
  | .bool b => [.bool b]
  | .number n => [.number (some n)]
  | .string s => [.string (some s)]
  | .array items => .beginArray :: itemTokens items ++ [.endArray]
  | .object fields => .beginObject :: fieldTokens fields ++ [.endObject]

/-- The tokens of items, with commas between them. -/
def itemTokens : List Value → List Token
  | [] => []
  | [v] => tokens v
  | v :: rest => tokens v ++ .comma :: itemTokens rest

/-- The tokens of fields, with commas between them. -/
def fieldTokens : List (String × Value) → List Token
  | [] => []
  | [(name, v)] => .string (some name) :: .colon :: tokens v
  | (name, v) :: rest => .string (some name) :: .colon :: tokens v ++ .comma :: fieldTokens rest

end

/-- The compact text of a value. -/
def chars (v : Value) : List Char := v.tokens.flatMap Token.chars

/-- Model of `to_string`: the compact text of a value. -/
def text (v : Value) : String := String.ofList v.chars

/-- The object that holds the entries of a table. -/
def ofTable (t : Table Value) : Value := .object t.entries

/-- Model of `get` (`Value`): the field of an object under a name. -/
def field? (v : Value) (name : String) : Option Value :=
  match v with
  | .object fields => fields.lookup name
  | _ => none

/-- Model of `as_str`: the text that a string value holds. -/
def string? : Value → Option String
  | .string s => some s
  | _ => none

/-- The fields of an object as a table. -/
def table? : Value → Option (Table Value)
  | .object fields => some (Table.ofList fields)
  | _ => none

/-- Model of `display_value`, how a value is shown in a text field: a string is shown bare, `null`
as nothing, and all else as compact JSON. -/
def display : Value → String
  | .null => ""
  | .string s => s
  | v => v.text

end Value

end RosterPanel.Json
