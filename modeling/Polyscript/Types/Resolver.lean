import Polyscript.Types.Classification
import Polyscript.Types.Descriptor
import Polyscript.Unsupported

/-!
# Resolving types

Source types are resolved to descriptors with the help of a program's class table
and a classification. A class counts as a throwable when a chain of supertypes leads
from it to the root of the throwables; the search for such a chain never expands a
class twice, so it ends for cyclic tables too.
-/

namespace Polyscript

open Source (Ty ClassInfo MethodType Program)

/-- The classes that are still unvisited after a class has been visited. -/
def afterVisit (current : String) (unvisited : List (String × ClassInfo)) :
    List (String × ClassInfo) :=
  unvisited.filter (·.1 != current)

theorem length_afterVisit_lt {current : String} {unvisited : List (String × ClassInfo)}
    {entry : String × ClassInfo} (found : unvisited.find? (·.1 == current) = some entry) :
    (afterVisit current unvisited).length < unvisited.length := by
  have isCurrent := List.find?_some found
  refine List.length_filter_lt_length_iff_exists.2 ⟨entry, List.mem_of_find?_eq_some found, ?_⟩
  simpa using isCurrent

/-- Whether the root can be reached from one of the pending classes by supertypes
of classes that have not been visited. -/
def reachesRoot (root : String) (unvisited : List (String × ClassInfo)) :
    List String → Bool
  | [] => false
  | current :: pending =>
    if current = root then true
    else match _found : unvisited.find? (·.1 == current) with
      | none => reachesRoot root unvisited pending
      | some (_, info) =>
        reachesRoot root (afterVisit current unvisited) (info.supertypes.reverse ++ pending)
termination_by pending => (unvisited.length, pending.length)
decreasing_by
  · exact Prod.Lex.right _ (by simp)
  · exact Prod.Lex.left _ _ (length_afterVisit_lt _found)

/-- A program whose types are resolved, with the classification to use. -/
structure Resolver where
  program : Program
  names : Classification

namespace Resolver

variable (r : Resolver)

/-- Whether a class is the root of the throwables or below it. -/
def isThrowable (name : String) : Bool :=
  reachesRoot r.names.throwableClass r.program.classes.entries [name]

/-- The kind of a class by its qualified name. -/
def kindOf (name : String) : ClassKind :=
  if name = r.names.jsonObjectClass then .jsonObject
  else if name = r.names.jsonArrayClass then .jsonArray
  else if name = r.names.asyncResultClass then .asyncResult
  else if r.names.mapClasses.contains name then .map
  else if r.names.listClasses.contains name then .list
  else if r.isThrowable name then .throwable
  else match r.program.class? name with
    | none => .other
    | some info =>
      if info.kind = .enum then .enum
      else if info.annotations.any r.names.apiAnnotations.contains then .api
      else if info.annotations.any r.names.dataObjectAnnotations.contains then .dataObject
      else .other

/-- A class by its qualified name, with its kind. -/
def classify (name : String) : ClassType := ⟨name, r.kindOf name⟩

mutual

/-- The descriptor of a type; the type of `null` has none. -/
def resolve : Ty → Except Unsupported TypeInfo
  | .primitive kind => .ok (.primitive kind)
  | .void => .ok .void
  | .null => .error .nullType
  | .declared name args =>
    if name = "java.lang.String" then .ok .string
    else if name = "java.lang.Void" then .ok .void
    else match Primitive.ofBoxedName? name with
      | some kind => .ok (.boxed kind)
      | none =>
        match args with
        | [] => .ok (.cls (r.classify name))
        | arg :: rest => do
          return .parameterized (r.classify name) ((← resolve arg) :: (← resolveAll rest))
  | .array component => do return .array (← resolve component)
  | .variable name => .ok (.variable name)

/-- The descriptors of a list of types. -/
def resolveAll : List Ty → Except Unsupported (List TypeInfo)
  | [] => .ok []
  | ty :: rest => do return (← resolve ty) :: (← resolveAll rest)

end

/-- The descriptor of an argument's type; `null` has no type to be described. -/
def resolveArg : Ty → Except Unsupported (Option TypeInfo)
  | .null => .ok none
  | ty => do return some (← r.resolve ty)

/-- The method of a symbol. -/
def method (id : SymbolId) : Except Unsupported MethodType :=
  match r.program.method? id with
  | some method => .ok method
  | none => .error (.missingSignature id)

/-- The types of a method's arguments: of a method with variable arity the component
of the last parameter stands for each further argument. -/
def argumentTypes (method : MethodType) : List Ty :=
  match method.varargs, method.params.getLast? with
  | true, some (.array component) => method.params.dropLast ++ [component]
  | _, _ => method.params

/-- The signature of the method of a symbol. -/
def signature (id : SymbolId) : Except Unsupported Signature := do
  let method ← r.method id
  return ⟨method.name, ← r.resolveAll (argumentTypes method), method.varargs,
    ← r.resolve method.ret⟩

/-- The descriptor of the class that declares the method of a symbol. -/
def owner (id : SymbolId) : Except Unsupported TypeInfo := do
  r.resolve (← r.method id).owner

end Resolver

end Polyscript
