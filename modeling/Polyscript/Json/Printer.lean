import Polyscript.Json.Value

/-!
# Writing JSON

The printed form puts every item and member on a line of its own, two blanks
deeper than its container; an empty array or object stays on its line.
-/

namespace Polyscript.Json

/-- A lower-case hexadecimal digit. -/
def hexDigit (value : Nat) : Char :=
  if value < 10 then Char.ofNat ('0'.toNat + value) else Char.ofNat ('a'.toNat + (value - 10))

/-- The characters that stand for one character between quotes. -/
def escapeChar (c : Char) : List Char :=
  match c with
  | '"' => ['\\', '"']
  | '\\' => ['\\', '\\']
  | '\x08' => ['\\', 'b']
  | '\x0c' => ['\\', 'f']
  | '\n' => ['\\', 'n']
  | '\r' => ['\\', 'r']
  | '\t' => ['\\', 't']
  | c =>
    if c.toNat < 0x20 then ['\\', 'u', '0', '0', hexDigit (c.toNat / 16), hexDigit (c.toNat % 16)]
    else [c]

/-- A text between quotes. -/
def quote (text : String) : String :=
  "\"" ++ String.ofList (text.toList.flatMap escapeChar) ++ "\""

/-- The start of a line at a depth. -/
def newLine (depth : Nat) : String :=
  "\n" ++ String.ofList (List.replicate (2 * depth) ' ')

mutual

/-- The printed form of a value whose first line stands at the given depth. A
string that stands for no text has no written form and is printed as empty. -/
def print (depth : Nat) : Json → String
  | .null => "null"
  | .bool true => "true"
  | .bool false => "false"
  | .number spelling => spelling
  | .string value => quote (value.text.getD "")
  | .array [] => "[]"
  | .array (item :: items) =>
    "[" ++ newLine (depth + 1) ++ print (depth + 1) item ++ printItems (depth + 1) items ++
      newLine depth ++ "]"
  | .object [] => "\x7b\x7d"
  | .object (member :: members) =>
    "\x7b" ++ newLine (depth + 1) ++ printMember (depth + 1) member ++
      printMembers (depth + 1) members ++ newLine depth ++ "\x7d"

/-- Further items, each after a comma. -/
def printItems (depth : Nat) : List Json → String
  | [] => ""
  | item :: items => "," ++ newLine depth ++ print depth item ++ printItems depth items

/-- One member. -/
def printMember (depth : Nat) : Written × Json → String
  | (key, value) => quote (key.text.getD "") ++ ": " ++ print depth value

/-- Further members, each after a comma. -/
def printMembers (depth : Nat) : List (Written × Json) → String
  | [] => ""
  | member :: members =>
    "," ++ newLine depth ++ printMember depth member ++ printMembers depth members

end

/-- The printed form of a value. -/
def pretty (value : Json) : String := print 0 value

end Polyscript.Json
