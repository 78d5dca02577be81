import Mathlib.Data.List.Lattice
import Polyscript.Compilation
import Polyscript.Proofs.Lowering.Congruence

/-!
# What a step notes

Lowering takes note of the fields and methods that a tree uses but never asks what has
been noted before. A step therefore notes the same names whatever has been noted before
it, and these names are added to the earlier ones.
-/

namespace Polyscript

open Lowering

/-- Uses together with further ones. -/
def Uses.union (u v : Uses) : Uses := ⟨u.fields ∪ v.fields, u.methods ∪ v.methods⟩

theorem Uses.empty_union (u : Uses) : Uses.union {} u = u := rfl

/-- A state in which further uses have been noted before. -/
def Progress.adding (s : Progress) (u : Uses) : Progress := { s with uses := s.uses.union u }

theorem Declaration.isUsed_union (d : Declaration) (u v : Uses) :
    d.isUsed (u.union v) = true ↔ d.isUsed u = true ∨ d.isUsed v = true := by
  cases d <;> simp [Declaration.isUsed, Uses.union]

namespace Step

variable {α β : Type}

/-- A step that does not ask what has been noted before. -/
def Framed (x : Step α) : Prop := ∀ s u, x (s.adding u) = ((x s).1, (x s).2.adding u)

/-- The uses that a step notes by itself when it begins in a state. -/
def noted (x : Step α) (s : Progress) : Uses := (x { s with uses := {} }).2.uses

/-- A step adds what it notes by itself to what has been noted before. -/
theorem Framed.uses_eq {x : Step α} (framed : x.Framed) (s : Progress) :
    (x s).2.uses = (x.noted s).union s.uses := by
  -- any state comes from the one without uses by adding its own
  have same : s = Progress.adding { s with uses := {} } s.uses := by
    rw [Progress.adding, Uses.empty_union]
  have result := framed { s with uses := {} } s.uses
  rw [← same] at result
  rw [result]
  rfl

theorem Framed.bind {x : Step α} {f : α → Step β} (first : x.Framed) (next : ∀ a, (f a).Framed) :
    (x >>= f).Framed := by
  intro s u
  have here := first s u
  cases outcome : x s with
  | mk result t =>
    rw [outcome] at here
    cases result with
    | ok a => rw [bind_of_ok here, bind_of_ok outcome, next a t u]
    | error cause => rw [bind_of_error here, bind_of_error outcome]

theorem Framed.lift (result : Except Unsupported α) : (Step.lift result).Framed := fun _ _ => rfl

/-- A step may ask for the rest of the state. -/
theorem Framed.progress {f : Progress → Step α} (next : ∀ s, (f s).Framed)
    (same : ∀ s u, f (s.adding u) = f s) : (Step.progress >>= f).Framed := by
  intro s u
  change f (s.adding u) (s.adding u) = ((f s s).1, (f s s).2.adding u)
  rw [same s u]
  exact next s s u

theorem framed_declare (id : SymbolId) (scope : Model.Scope) (type : TypeInfo) :
    (Step.declare id scope type).Framed := fun _ _ => rfl

private theorem insert_union (name : String) (names others : List String) :
    names.insert name ∪ others = (names ∪ others).insert name := by
  by_cases known : name ∈ names
  · rw [List.insert_of_mem known, List.insert_of_mem (List.mem_union_left known others)]
  · rw [List.insert_of_not_mem known, List.cons_union]

theorem framed_useField (name : String) : (Step.useField name).Framed := by
  intro s u
  simp only [useField, update, Progress.adding, Uses.union, insert_union]

theorem framed_useMethod (name : String) : (Step.useMethod name).Framed := by
  intro s u
  simp only [useMethod, update, Progress.adding, Uses.union, insert_union]

/-- Steps put together from framed ones are framed. -/
theorem framed_congruence : Step.Congruence fun x _ => x.Framed where
  pure _ := fun _ _ => rfl
  fail _ := fun _ _ => rfl
  bind := Framed.bind
  useMethod := framed_useMethod
  noteLookup _ := fun _ _ => rfl

end Step

open Step

variable (r : Resolver) (ctx : Context)

theorem Lowering.framed_unbound (name : String) (id : SymbolId) :
    (unbound r name id).Framed := by
  unfold unbound
  refine Framed.bind (framed_congruence.lookUp r id) fun symbol => ?_
  split
  · split
    · exact framed_congruence.pure _
    · exact framed_congruence.fail _
  · refine Framed.progress (fun s => ?_) fun _ _ => rfl
    refine Framed.bind (Framed.lift _) fun scope => Framed.bind (Framed.lift _) fun type => ?_
    exact Framed.bind (framed_declare id scope type) fun _ =>
      framed_congruence.variableOf (fun _ => framed_useField name) type

theorem Lowering.framed_identifier (name : String) (id : SymbolId) :
    (identifier r ctx name id).Framed := by
  unfold identifier
  split
  · exact framed_congruence.pure _
  split
  · exact framed_congruence.pure _
  refine Framed.progress (fun s => ?_) fun _ _ => rfl
  split
  · exact framed_congruence.variableOf (fun _ => framed_useField name) _
  · exact framed_unbound r name id

theorem Lowering.fits_framed (node : Source.Node) :
    Fits (fun x _ => x.Framed) (identifier r) (identifier r) r r.program.unit node where
  name _ ctx := framed_identifier r ctx _ _
  own _ _ _ y otherwise :=
    framed_congruence.ownField (framed_useField _) _ (y := y) otherwise
  binder _ _ _ := framed_declare _ _ _

theorem Source.MethodDecl.framed_lower (decl : Source.MethodDecl) : (decl.lower r ctx).Framed :=
  decl.lowerWith_congr framed_congruence ctx (fun _ _ _ _ => framed_declare _ _ _)
    fun node _ => fits_framed r node

theorem Source.FieldDecl.framed_lower (decl : Source.FieldDecl) : (decl.lower r ctx).Framed :=
  decl.lowerWith_congr framed_congruence ctx (fun _ => framed_declare _ _ _)
    fun node _ => fits_framed r node

/-- A declaration notes the same uses whatever has been noted before it. -/
theorem Declaration.framed_lower (d : Declaration) : (d.lower r ctx).Framed := by
  cases d with
  | field decl => exact Framed.bind (decl.framed_lower r ctx) fun _ => framed_congruence.pure _
  | method decl => exact Framed.bind (decl.framed_lower r ctx) fun _ => framed_congruence.pure _

end Polyscript
