import Polyscript.Source.Program

/-!
# Type descriptors

A descriptor says of a type what the lowering needs to know: which kind it is
of, and for a class its qualified name. The kind of a class decides what can be done
with its values.
-/

namespace Polyscript

/-- The kinds of types. -/
inductive ClassKind where
  | primitive
  | boxedPrimitive
  | string
  | void
  | enum
  | api
  | jsonObject
  | jsonArray
  | dataObject
  | throwable
  | asyncResult
  | map
  | list
  | array
  | typeVariable
  | other
  deriving DecidableEq

/-- Every kind of types. -/
def ClassKind.all : List ClassKind :=
  [.primitive, .boxedPrimitive, .string, .void, .enum, .api, .jsonObject, .jsonArray, .dataObject,
    .throwable, .asyncResult, .map, .list, .array, .typeVariable, .other]

/-- A class by its qualified name, with its kind. -/
structure ClassType where
  name : String
  kind : ClassKind
  deriving DecidableEq

namespace ClassType

/-- The name without its package. -/
def simpleName (c : ClassType) : String := Source.simpleName c.name

/-- The package, if the class is in one. -/
def package? (c : ClassType) : Option String := Source.packageName? c.name

/-- The name as programs write it: the classes of `java.lang` go without their
package. -/
def displayName (c : ClassType) : String :=
  let language := "java.lang.".toList
  if language.isPrefixOf c.name.toList && !(c.name.toList.drop language.length).contains '.' then
    String.ofList (c.name.toList.drop language.length)
  else c.name

end ClassType

/-- A type descriptor. -/
inductive TypeInfo where
  | primitive (kind : Primitive)
  | boxed (kind : Primitive)
  | string
  | void
  | cls (type : ClassType)
  | parameterized (raw : ClassType) (args : List TypeInfo)
  | array (component : TypeInfo)
  | variable (name : String)

namespace TypeInfo

/-- The kind of a type. -/
def kind : TypeInfo → ClassKind
  | .primitive _ => .primitive
  | .boxed _ => .boxedPrimitive
  | .string => .string
  | .void => .void
  | .cls type => type.kind
  | .parameterized raw _ => raw.kind
  | .array _ => .array
  | .variable _ => .typeVariable

/-- The name of a type. -/
def name : TypeInfo → String
  | .primitive kind => kind.keyword
  | .boxed kind => kind.boxedName
  | .string => "java.lang.String"
  | .void => "void"
  | .cls type => type.name
  | .parameterized raw _ => raw.name
  | .array component => component.name ++ "[]"
  | .variable name => name

/-- The class of a class type. -/
def cls? : TypeInfo → Option ClassType
  | .cls type => some type
  | .parameterized raw _ => some raw
  | _ => none

/-- The type arguments. -/
def args : TypeInfo → List TypeInfo
  | .parameterized _ args => args
  | _ => []

/-- Whether a type is the one without values. -/
def isVoid : TypeInfo → Bool
  | .void => true
  | _ => false

end TypeInfo

/-- A method by its name, the types of its parameters and of its result. Of a method
with variable arity the last parameter stands for each of the further arguments. -/
structure Signature where
  name : String
  params : List TypeInfo
  varargs : Bool
  ret : TypeInfo

end Polyscript
