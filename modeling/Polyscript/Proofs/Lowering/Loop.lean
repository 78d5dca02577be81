import Polyscript.Lowering.Tree
import Polyscript.Proofs.Source.Nodes

/-!
# Loops

A loop with one initial statement, a condition and one update is lowered either as a
loop that counts or part by part. Which of the two is decided by the shape of its parts
alone.
-/

namespace Polyscript

open Lowering Source

/-- A loop that counts a variable from one value up to another. -/
structure Source.RangedLoop where
  name : String
  sym : SymbolId
  ty : Ty
  start : Source.Expr
  stop : Source.Expr

/-- The loop that counts, if the parts of a loop are those of one: a declaration, a test
by `<` and a step of the declared variable. -/
def Source.ranged? : Source.Stmt → Source.Expr → Source.Expr → Option RangedLoop
  | .local ⟨name, id, ty, some start, _⟩, .binary .lessThan (.ident tested _ _) stop _,
      .unary .postfixIncrement (.ident stepped _ _) _ =>
    if tested = name ∧ stepped = name then some ⟨name, id, ty, start, stop⟩ else none
  | _, _, _ => none

/-- A loop that counts has its bounds lowered before its variable is bound; the parts of
any other loop are lowered in the order in which they stand. -/
theorem Source.Stmt.lowerWith_loop (n : Naming) (r : Resolver) (ctx : Context)
    (init : Source.Stmt) (cond update : Source.Expr) (body : Source.Stmt) (span : Span) :
    (Source.Stmt.loop [init] (some cond) [update] body span).lowerWith n r ctx =
      match ranged? init cond update with
      | some count => do
        let type ← r.resolve count.ty
        let start ← count.start.lowerWith n r ctx
        let stop ← count.stop.lowerWith n r ctx
        Step.declare count.sym .variable type
        let body ← body.lowerWith n r ctx
        return .sequenceFor count.name start stop body
      | none => do
        let init ← init.lowerWith n r ctx
        let cond ← cond.lowerWith n r ctx
        let update ← update.lowerWith n r ctx
        let body ← body.lowerWith n r ctx
        return .loop init cond update body := by
  unfold ranged?
  split
  next found =>
    split at found
    next =>
      split at found
      next same =>
        obtain rfl := Option.some.inj found
        rw [Source.Stmt.lowerWith, if_pos same]
      next => cases found
    next => cases found
  next none =>
    split at none
    next =>
      split at none
      next => cases none
      next other => simp only [Source.Stmt.lowerWith, if_neg other]
    next other =>
      rw [Source.Stmt.lowerWith]
      exact other

/-- The bounds and the variable of a loop that counts come from its parts. -/
theorem Source.mem_nodes_of_ranged? {init : Source.Stmt} {cond update : Source.Expr}
    {loop : RangedLoop} (h : ranged? init cond update = some loop) :
    .expr loop.start ∈ init.nodes ∧ .expr loop.stop ∈ cond.nodes ∧
      ∃ decl : VarDecl, init = .local decl ∧ decl.binder = ⟨loop.sym, .variable, loop.ty⟩ := by
  unfold ranged? at h
  split at h
  next name id ty start span tested _ _ stop _ stepped _ _ _ =>
    split at h
    · obtain rfl := Option.some.inj h
      refine ⟨?_, ?_, _, rfl, rfl⟩
      · exact List.mem_cons_of_mem _ start.mem_nodes
      · exact List.mem_cons_of_mem _ (List.mem_append_right _ stop.mem_nodes)
    · cases h
  next => cases h

end Polyscript
