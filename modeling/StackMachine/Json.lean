import StackMachine.Text.Decimal

/-!
# JSON values

`Json` is a JSON value. Integers are exact and of any size; a number with a fraction or an exponent is
kept as it is written. The members of an object are kept in order.

`Json.render` writes a value over several lines: each item of an array and each member of an object has
a line of its own, indented by two more blanks than the bracket around it. An empty array or object is
written as its two brackets.
-/

namespace StackMachine

/-- A JSON value. -/
inductive Json where
  | null
  | bool (value : Bool)
  /-- A number without fraction and exponent. -/
  | int (value : Int)
  /-- Any other number, as it is written. -/
  | real (literal : String)
  | str (value : String)
  | arr (items : List Json)
  | obj (members : List (String × Json))
deriving Inhabited

namespace Json

/-- The character in a quoted text: quotation marks, backslashes and control characters are escaped. -/
def escape (c : Char) : List Char :=
  if c = '"' then ['\\', '"']
  else if c = '\\' then ['\\', '\\']
  else if c = '\n' then ['\\', 'n']
  else if c = '\r' then ['\\', 'r']
  else if c = '\t' then ['\\', 't']
  else if c.toNat = 8 then ['\\', 'b']
  else if c.toNat = 12 then ['\\', 'f']
  else if c.toNat < 32 then
    ['\\', 'u', '0', '0', Nat.digitChar (c.toNat / 16), Nat.digitChar (c.toNat % 16)]
  else [c]

/-- A text in quotation marks. -/
def quote (text : String) : String :=
  "\"" ++ String.ofList (text.toList.flatMap escape) ++ "\""

/-- The blanks in front of a line at the given depth. -/
def indent (depth : Nat) : String :=
  String.ofList (List.replicate (2 * depth) ' ')

/-- Lines between two brackets that stand at the given depth. -/
def renderBlock (opening closing : String) (depth : Nat) : List String → String
  | [] => opening ++ closing
  | lines => opening ++ "\n" ++ ",\n".intercalate lines ++ "\n" ++ indent depth ++ closing

mutual

/-- The text of a value that begins on a line at the given depth. -/
def renderAt (depth : Nat) : Json → String
  | .null => "null"
  | .bool true => "true"
  | .bool false => "false"
  | .int value => String.ofList (Text.Decimal.ofInt value)
  | .real literal => literal
  | .str value => quote value
  | .arr items => renderBlock "[" "]" depth (itemLines (depth + 1) items)
  | .obj members => renderBlock "\x7b" "\x7d" depth (memberLines (depth + 1) members)

/-- The texts of the items of an array, each at the given depth. -/
def itemLines (depth : Nat) : List Json → List String
  | [] => []
  | item :: rest => (indent depth ++ renderAt depth item) :: itemLines depth rest

/-- The texts of the members of an object, each at the given depth. -/
def memberLines (depth : Nat) : List (String × Json) → List String
  | [] => []
  | (key, value) :: rest =>
    (indent depth ++ quote key ++ ": " ++ renderAt depth value) :: memberLines depth rest

end

/-- The text of a value. -/
def render (value : Json) : String :=
  renderAt 0 value

end Json

end StackMachine
