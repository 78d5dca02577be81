import Polyscript.Json.Value

/-!
# Outlines of written values

An outline says how a value is written as JSON, and what a writer is free in: the fields of a
structure may stand in any order, and a field that holds the value it takes of its own accord
may be left out. `Outline.toJson` leaves out nothing and keeps the order.
-/

namespace Polyscript.Json

mutual

/-- The outline of a written value. -/
inductive Outline where
  | null
  | bool (value : Bool)
  | natural (value : Nat)
  | text (value : String)
  | list (items : List Outline)
  /-- An alternative with its content: an object whose only member is named for it. -/
  | choice (tag : String) (content : Outline)
  | struct (fields : List Field)
  /-- An object whose members are named for the keys of a table. -/
  | table (entries : List (String × Outline))

/-- A field of a structure, and whether it holds the value that it takes when it is left
out. -/
structure Field where
  name : String
  isDefault : Bool
  content : Outline

end

/-- A field that has no value of its own accord. -/
def Field.required (name : String) (content : Outline) : Field := ⟨name, false, content⟩

/-- A field that has a value of its own accord. -/
def Field.optional (name : String) (isDefault : Bool) (content : Outline) : Field :=
  ⟨name, isDefault, content⟩

/-- The outline of a value that may be missing. -/
def Outline.nullable (content : Option Outline) : Outline := content.getD .null

mutual

/-- The value with all that its outline has, in order. -/
def Outline.toJson : Outline → Json
  | .null => .null
  | .bool value => .bool value
  | .natural value => Json.natural value
  | .text value => Json.text value
  | .list items => .array (Outline.listToJson items)
  | .choice tag content => tagged tag content.toJson
  | .struct fields => record (Field.listToJson fields)
  | .table entries => record (Outline.entriesToJson entries)

/-- The items of an array. -/
def Outline.listToJson : List Outline → List Json
  | [] => []
  | item :: rest => item.toJson :: Outline.listToJson rest

/-- The fields of a structure. -/
def Field.listToJson : List Field → List (String × Json)
  | [] => []
  | ⟨name, _, content⟩ :: rest => (name, content.toJson) :: Field.listToJson rest

/-- The entries of a table. -/
def Outline.entriesToJson : List (String × Outline) → List (String × Json)
  | [] => []
  | (key, content) :: rest => (key, content.toJson) :: Outline.entriesToJson rest

end

end Polyscript.Json
