import Polyscript.Source.Decode
import Polyscript.Types.Encode

/-!
# Reading type descriptors

A descriptor is read back from what `toJson` writes. The reading functions take the
room for further levels, as those of programs do.
-/

namespace Polyscript

open Json (string? bool? record? oneOf?)

/-- A kind of type. -/
def ClassKind.ofJson? : Nat → Json → Option ClassKind :=
  oneOf? (ClassKind.all.map fun kind => (kind.tag, kind))

/-- A class with its kind. -/
def ClassType.ofJson? (room : Nat) (value : Json) : Option ClassType :=
  match room with
  | 0 => none
  | room + 1 => do
    let r ← record? ["name", "kind"] value
    return ⟨← r.required "name" string?, ← r.required "kind" (ClassKind.ofJson? room)⟩

mutual

/-- A type descriptor. -/
def TypeInfo.ofJson? (room : Nat) (value : Json) : Option TypeInfo := do
  match ← value.choice?, room with
  | ("string", none), _ => some .string
  | ("void", none), _ => some .void
  | (tag, some body), room + 1 =>
    match tag with
    | "primitive" => return .primitive (← Source.primitiveOfJson? room body)
    | "boxed" => return .boxed (← Source.primitiveOfJson? room body)
    | "class" => return .cls (← ClassType.ofJson? room body)
    | "parameterized" => TypeInfo.parameterizedOfJson? room body
    | "array" => return .array (← TypeInfo.ofJson? room body)
    | "variable" => return .variable (← body.string?)
    | _ => none
  | _, _ => none

/-- A class with type arguments. -/
def TypeInfo.parameterizedOfJson? (room : Nat) (value : Json) : Option TypeInfo :=
  match room with
  | 0 => none
  | room + 1 => do
    let r ← record? ["raw", "args"] value
    return .parameterized (← r.required "raw" (ClassType.ofJson? room))
      (← r.required "args" (TypeInfo.listOfJson? room))

/-- The type descriptors of an array. -/
def TypeInfo.listOfJson? (room : Nat) (value : Json) : Option (List TypeInfo) :=
  match room with
  | 0 => none
  | room + 1 => do (← value.items?).mapM (TypeInfo.ofJson? room)

end

/-- A type descriptor that may be missing. -/
def TypeInfo.optionOfJson? (room : Nat) : Json → Option (Option TypeInfo) :=
  Json.nullable? (TypeInfo.ofJson? room)

/-- A signature. -/
def Signature.ofJson? (room : Nat) (value : Json) : Option Signature :=
  match room with
  | 0 => none
  | room + 1 => do
    let r ← record? ["name", "params", "varargs", "ret"] value
    return ⟨← r.required "name" string?, ← r.required "params" (TypeInfo.listOfJson? room),
      ← r.required "varargs" bool?, ← r.required "ret" (TypeInfo.ofJson? room)⟩

end Polyscript
