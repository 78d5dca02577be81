import Polyscript.Model.Basic
import Polyscript.Unsupported

/-!
# Scopes of symbols

A symbol that has been declared or looked up once is bound: its scope and type are
remembered. Other symbols are classified by their kind; a field is a field of the
class only if the class declares one of its name.
-/

namespace Polyscript

open Model (Scope)
open Source (Symbol ClassUnit)

/-- What is known of a bound symbol. -/
structure Binding where
  scope : Scope
  type : TypeInfo

/-- The names of a class's fields, and the symbols bound so far. The latest binding
of a symbol stands first. -/
structure Scopes where
  fields : List String := []
  bindings : List (SymbolId × Binding) := []

namespace Scopes

/-- The scopes of a class in which no symbol is bound. -/
def ofUnit (unit : ClassUnit) : Scopes := { fields := unit.fields.map (·.name) }

/-- Bind a symbol. -/
def declare (s : Scopes) (id : SymbolId) (scope : Scope) (type : TypeInfo) : Scopes :=
  { s with bindings := (id, ⟨scope, type⟩) :: s.bindings }

/-- The binding of a symbol. -/
def lookup (s : Scopes) (id : SymbolId) : Option Binding := s.bindings.lookup id

theorem lookup_declare (s : Scopes) (id other : SymbolId) (scope : Scope) (type : TypeInfo) :
    (s.declare id scope type).lookup other =
      if other = id then some ⟨scope, type⟩ else s.lookup other := by
  rw [declare, lookup, List.lookup_cons, lookup]
  by_cases same : other = id
  · rw [if_pos same, same, beq_self_eq_true]
  · rw [if_neg same, beq_false_of_ne same]

/-- The scope of a symbol by its kind. Methods and types are no variables. -/
def classify (s : Scopes) (symbol : Symbol) : Except Unsupported Scope :=
  match symbol.kind with
  | .localVariable | .exceptionParameter => .ok .variable
  | .parameter => .ok .parameter
  | .field => .ok (if s.fields.contains symbol.name then .field else .global)
  | .method | .type => .error (.notAVariable symbol.name symbol.kind)

end Scopes

end Polyscript
