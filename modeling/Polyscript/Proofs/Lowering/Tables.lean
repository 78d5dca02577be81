import Polyscript.Lowering.Tree
import Polyscript.Proofs.Source.Nodes

/-!
# Another class over the same tables

Lowering resolves types, signatures and symbols by the tables of a program. The class itself
is asked only whether it declares a field of a name. So a program whose class is replaced by
another one resolves everything as before.

## Main definitions

* `Resolver.withUnit`: the resolver of the program with another class.
* `Source.Node.IsNamed`: a name in a tree is the name of its symbol in the tables.
-/

namespace Polyscript

open Source (ClassUnit Ty)

/-- The name and the symbol of a node that is a name, other than the keyword for the enclosing
instance. -/
def Source.Node.name? : Source.Node → Option (String × SymbolId)
  | .expr (.ident name id _) => if name = "this" then none else some (name, id)
  | _ => none

/-- A name in a tree is the name that the tables have for its symbol. -/
def Source.Node.IsNamed (program : Source.Program) (node : Source.Node) : Prop :=
  ∀ use ∈ node.name?, ∀ symbol ∈ program.symbol? use.2, symbol.name = use.1

instance (program : Source.Program) (node : Source.Node) : Decidable (node.IsNamed program) :=
  inferInstanceAs (Decidable (∀ use ∈ node.name?, _))

theorem Source.Node.IsNamed.symbol {program : Source.Program} {name : String} {id : SymbolId}
    {span : Source.Span} (named : (Source.Node.expr (.ident name id span)).IsNamed program)
    (notThis : name ≠ "this") : ∀ symbol ∈ program.symbol? id, symbol.name = name :=
  named (name, id) (if_neg notThis)

/-- The resolver of the program with another class. -/
def Resolver.withUnit (r : Resolver) (unit : ClassUnit) : Resolver :=
  { r with program := { r.program with unit } }

namespace Resolver

variable (r : Resolver) (unit : ClassUnit)

theorem classify_withUnit (name : String) : (r.withUnit unit).classify name = r.classify name :=
  rfl

mutual

@[simp] theorem resolve_withUnit (ty : Ty) : (r.withUnit unit).resolve ty = r.resolve ty := by
  cases ty with
  | declared name args =>
    cases args with
    | nil => simp only [resolve, classify_withUnit]
    | cons arg rest =>
      simp only [resolve, classify_withUnit, resolve_withUnit arg, resolveAll_withUnit rest]
  | array component => simp only [resolve, resolve_withUnit component]
  | _ => rfl

@[simp] theorem resolveAll_withUnit (tys : List Ty) :
    (r.withUnit unit).resolveAll tys = r.resolveAll tys := by
  cases tys with
  | nil => rfl
  | cons ty rest => simp only [resolveAll, resolve_withUnit ty, resolveAll_withUnit rest]

end

@[simp] theorem resolveArg_withUnit (ty : Ty) :
    (r.withUnit unit).resolveArg ty = r.resolveArg ty := by
  cases ty with
  | null => rfl
  | _ => simp only [resolveArg, resolve_withUnit]

theorem method_withUnit (id : SymbolId) : (r.withUnit unit).method id = r.method id := rfl

@[simp] theorem owner_withUnit (id : SymbolId) : (r.withUnit unit).owner id = r.owner id := by
  simp only [owner, method_withUnit, resolve_withUnit]

@[simp] theorem signature_withUnit (id : SymbolId) :
    (r.withUnit unit).signature id = r.signature id := by
  simp only [signature, method_withUnit, resolve_withUnit, resolveAll_withUnit]

end Resolver

namespace Lowering

variable (r : Resolver) (unit : ClassUnit)

theorem lookUp_withUnit (id : SymbolId) : lookUp (r.withUnit unit) id = lookUp r id := rfl

@[simp] theorem asyncParam_withUnit (ctx : Context) (params : List Source.LambdaParam) :
    asyncParam (r.withUnit unit) ctx params = asyncParam r ctx params := by
  simp only [asyncParam, Resolver.resolve_withUnit]

@[simp] theorem argTypes_withUnit (args : List Source.Arg) :
    argTypes (r.withUnit unit) args = argTypes r args := by
  induction args with
  | nil => rfl
  | cons arg rest ih => simp only [argTypes, Resolver.resolveArg_withUnit, ih]

@[simp] theorem bindParams_withUnit (params : List (SymbolId × Ty)) :
    bindParams (r.withUnit unit) params = bindParams r params := by
  induction params with
  | nil => rfl
  | cons param rest ih => simp only [bindParams, Resolver.resolve_withUnit, ih]

end Lowering

theorem Scopes.contains_fields (unit : ClassUnit) (name : String) :
    (Scopes.ofUnit unit).fields.contains name = unit.fields.any (·.name == name) := by
  rw [Bool.eq_iff_iff, List.contains_iff_mem, Scopes.ofUnit, List.mem_map, List.any_eq_true]
  simp only [beq_iff_eq]

end Polyscript
