import Polyscript.Proofs.Model.Making

/-!
# Uses in models

A node of a model uses a field of the class when it is a variable of field scope, and a
method of the class when it is a call or a reference whose receiver is the enclosing
instance. No node that an operation makes is a use by itself but for a call or a reference on
the enclosing instance; every other use in a result comes from what the operation is applied to.
-/

namespace Polyscript.Model

/-- A use of a field or a method of the class. -/
inductive Use where
  | field (name : String)
  | method (name : String)
  deriving DecidableEq

/-- The use of the class that a node makes by itself. -/
def Node.use? : Node → Option Use
  | .expr (.identifier name .field) => some (.field name)
  | .expr (.invocation .this site) => some (.method site.method.name)
  | .expr (.methodReference .this method) => some (.method method.name)
  | _ => none

/-- Whether the use that a node makes by itself, if any, is of some sort. -/
def Node.UsesOnly (p : Use → Prop) (node : Node) : Prop := ∀ use, node.use? = some use → p use

/-- Whether all uses that nodes make are of some sort. -/
abbrev UsesOnly (p : Use → Prop) (nodes : List Node) : Prop := Every (Node.UsesOnly p) nodes

/-- What operations make is no use. -/
theorem Expr.use?_eq_none {e : Expr} (isMade : e.isMade) : (Node.expr e).use? = none := by
  cases e with
  | identifier name scope =>
    cases scope with
    | field => cases isMade
    | _ => rfl
  | invocation receiver site | methodReference receiver method =>
    cases receiver with
    | this => cases isMade
    | _ => rfl
  | _ => rfl

instance (p : Use → Prop) : AdmitsMade (Node.UsesOnly p) where
  admits e isMade use isUse := by
    rw [e.use?_eq_none isMade] at isUse
    cases isUse
  grown grows _ _ isUse := by cases grows <;> cases isUse

end Polyscript.Model
