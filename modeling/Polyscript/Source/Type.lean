/-!
# Source types

The types of the source language as its type checker writes them: eight primitive
types, each with a class that boxes it, and references by qualified name.
-/

namespace Polyscript

/-- The primitive types. -/
inductive Primitive where
  | boolean
  | byte
  | short
  | int
  | long
  | char
  | float
  | double
  deriving DecidableEq

namespace Primitive

/-- Every primitive type. -/
def all : List Primitive := [.boolean, .byte, .short, .int, .long, .char, .float, .double]

/-- The keyword of a primitive type. -/
def keyword : Primitive → String
  | .boolean => "boolean"
  | .byte => "byte"
  | .short => "short"
  | .int => "int"
  | .long => "long"
  | .char => "char"
  | .float => "float"
  | .double => "double"

/-- The qualified name of the class that boxes a primitive type. -/
def boxedName : Primitive → String
  | .boolean => "java.lang.Boolean"
  | .byte => "java.lang.Byte"
  | .short => "java.lang.Short"
  | .int => "java.lang.Integer"
  | .long => "java.lang.Long"
  | .char => "java.lang.Character"
  | .float => "java.lang.Float"
  | .double => "java.lang.Double"

/-- The primitive type that a class boxes. -/
def ofBoxedName? (name : String) : Option Primitive := all.find? (·.boxedName == name)

end Primitive

namespace Source

/-- A type of the source language. -/
inductive Ty where
  | primitive (kind : Primitive)
  | void
  /-- The type of the literal `null`. -/
  | null
  /-- A class or interface by its qualified name, possibly with type arguments. -/
  | declared (name : String) (args : List Ty)
  | array (component : Ty)
  /-- A type variable. -/
  | variable (name : String)

namespace Ty

/-- The type of character strings. -/
def string : Ty := .declared "java.lang.String" []

/-- The name of a class or interface type. -/
def qualifiedName? : Ty → Option String
  | .declared name _ => some name
  | _ => none

end Ty

end Source

end Polyscript
