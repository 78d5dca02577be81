import Polyscript.Json.Value
import Polyscript.Record

/-!
# Reading typed data from JSON

Readers of typed data share a few conventions. A structure is an object of its
fields or an array of them in order; fields it does not know are skipped, a known
field may occur once. A choice is the name of an alternative, or an object whose
only member is named for the alternative and holds its content.

The readers that enter arrays and objects take the number of levels that may still
be entered, the room; what is skipped may nest as it likes. Room decreases at each
level, which is also why such readers end.
-/

namespace Polyscript.Json

/-- The number of arrays and objects that may be entered inside each other. -/
def maxDepth : Nat := 127

/-- The text of a string value. -/
def string? : Json → Option String
  | .string value => value.text
  | _ => none

/-- The only character of a string value. -/
def char? (value : Json) : Option Char := do
  match (← value.string?).toList with
  | [c] => some c
  | _ => none

/-- A truth value. -/
def bool? : Json → Option Bool
  | .bool value => some value
  | _ => none

/-- The natural number below a bound that plain digits without needless zeros
denote. -/
def digits? (bound : Nat) (spelling : List Char) : Option Nat :=
  if spelling != [] && spelling.all Char.isDigit && (spelling.length == 1 || spelling.head? != some '0')
  then
    let value := spelling.foldl (fun n c => n * 10 + (c.toNat - '0'.toNat)) 0
    if value < bound then some value else none
  else none

/-- A number written as an integer, from 0 to below a bound. -/
def natural? (bound : Nat) : Json → Option Nat
  | .number spelling => digits? bound spelling.toList
  | _ => none

/-- A value that may be missing: `null` stands for none. -/
def nullable? {α : Type} (read : Json → Option α) : Json → Option (Option α)
  | .null => some none
  | value => (read value).map some

/-- The items of an array. -/
def items? : Json → Option (List Json)
  | .array items => some items
  | _ => none

/-- The members of an object. -/
def members? : Json → Option (List (Written × Json))
  | .object members => some members
  | _ => none

/-- The texts of an array. -/
def texts? (room : Nat) (value : Json) : Option (List String) :=
  match room with
  | 0 => none
  | _ + 1 => do (← value.items?).mapM string?

/-- A member by its name, if that is a text. -/
def named? (m : Written × Json) : Option (String × Json) := m.1.text.map (·, m.2)

/-- The fields of a structure, given the names of its fields in order. -/
def record? (names : List String) : Json → Option (Record Json)
  | .array items => if items.length ≤ names.length then some ⟨names.zip items⟩ else none
  | .object members => do
    let fields ← members.mapM named?
    if names.all fun name => (fields.filter (·.1 == name)).length ≤ 1 then
      some ⟨fields.filter fun field => names.contains field.1⟩
    else none
  | _ => none

/-- The alternative that a choice names, and its content if there is one. -/
def choice? : Json → Option (String × Option Json)
  | .string value => value.text.map (·, none)
  | .object [(key, value)] => key.text.map (·, some value)
  | _ => none

/-- The name of an alternative without content. -/
def name? (room : Nat) (value : Json) : Option String := do
  match ← value.choice? with
  | (name, none) => some name
  | (name, some .null) => if room = 0 then none else some name
  | _ => none

/-- An alternative without content, out of a table of names. -/
def oneOf? {α : Type} (table : List (String × α)) (room : Nat) (value : Json) : Option α := do
  table.lookup (← value.name? room)

end Polyscript.Json
