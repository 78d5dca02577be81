import Polyscript.Config
import Polyscript.Lowering.Tree
import Polyscript.Model.Draft

/-!
# Compilation

The body of the entry method is lowered first. What it uses of the class is lowered
next, then what that uses, and so on until nothing new is used; fields and methods
that are not reached are left out. Each round lowers the declarations whose names
have been used so far and that are still waiting, so there are at most as many rounds
as declarations.
-/

namespace Polyscript

open Source (FieldDecl MethodDecl Program)

/-- A field or a method of the class. -/
inductive Declaration where
  | field (decl : FieldDecl)
  | method (decl : MethodDecl)

/-- The model of a field or a method. -/
inductive Lowered where
  | field (model : Model.Field)
  | method (model : Model.Method)

/-- Something with its place among the declarations of the class. -/
abbrev Placed (α : Type) : Type := Nat × α

namespace Declaration

/-- Whether a declaration has been used by its name. -/
def isUsed (uses : Uses) : Declaration → Bool
  | .field decl => uses.fields.contains decl.name
  | .method decl => uses.methods.contains decl.name

/-- Lower a declaration. -/
def lower (r : Resolver) (ctx : Context) : Declaration → Step Lowered
  | .field decl => do return .field (← decl.lower r ctx)
  | .method decl => do return .method (← decl.lower r ctx)

end Declaration

/-- The field that a model is of. -/
def Lowered.field? : Lowered → Option Model.Field
  | .field model => some model
  | .method _ => none

/-- The method that a model is of. -/
def Lowered.method? : Lowered → Option Model.Method
  | .field _ => none
  | .method model => some model

namespace Lowering

/-- The waiting declarations that have been used. -/
def used (uses : Uses) (waiting : List (Placed Declaration)) : List (Placed Declaration) :=
  waiting.filter (·.2.isUsed uses)

/-- The waiting declarations that have not been used. -/
def unused (uses : Uses) (waiting : List (Placed Declaration)) : List (Placed Declaration) :=
  waiting.filter (!·.2.isUsed uses)

/-- A round in which a declaration is lowered leaves fewer waiting. -/
theorem length_unused_lt {uses : Uses} {waiting : List (Placed Declaration)}
    (some_used : ¬(used uses waiting).isEmpty = true) :
    (unused uses waiting).length < waiting.length := by
  obtain ⟨decl, mem⟩ := List.exists_mem_of_ne_nil _ (mt List.isEmpty_iff.2 some_used)
  have ⟨waits, isUsed⟩ := List.mem_filter.1 mem
  exact List.length_filter_lt_length_iff_exists.2 ⟨decl, waits, by simp [isUsed]⟩

/-- Lower declarations in order, each keeping its place. -/
def lowerPlaced (r : Resolver) (ctx : Context) :
    List (Placed Declaration) → Step (List (Placed Lowered))
  | [] => return []
  | (place, decl) :: rest => do
    let model ← decl.lower r ctx
    return (place, model) :: (← lowerPlaced r ctx rest)

/-- Lower the waiting declarations that are used, round by round. -/
def lowerUsed (r : Resolver) (ctx : Context) (waiting : List (Placed Declaration)) :
    Step (List (Placed Lowered)) := do
  let uses := (← Step.progress).uses
  if _none_used : (used uses waiting).isEmpty then return []
  else
    let lowered ← lowerPlaced r ctx (used uses waiting)
    return lowered ++ (← lowerUsed r ctx (unused uses waiting))
termination_by waiting.length
decreasing_by exact length_unused_lt _none_used

/-- Declarations with their places. -/
def placed {α : Type} (decls : List α) : List (Placed α) :=
  decls.zipIdx.map fun (decl, place) => (place, decl)

/-- What was lowered of a number of declarations, in the order of the declarations. -/
def inOrder {α : Type} (count : Nat) (lowered : List (Placed α)) : List α :=
  (List.range count).filterMap fun place => List.lookup place lowered

/-- The entry method, if a declaration is one. -/
def entry? (name : String) : Placed Declaration → Option (Placed MethodDecl)
  | (place, .method decl) => if decl.name = name then some (place, decl) else none
  | (_, .field _) => none

end Lowering

open Lowering

namespace Source

/-- The declarations of a class with their places, fields before methods. -/
def ClassUnit.declarations (unit : ClassUnit) : List (Placed Declaration) :=
  placed (unit.fields.map .field ++ unit.methods.map .method)

/-- The first method of a name, with its place. -/
def ClassUnit.entry? (unit : ClassUnit) (name : String) : Option (Placed MethodDecl) :=
  unit.declarations.findSome? (Lowering.entry? name)

/-- The declarations of a class without the one at a place. -/
def ClassUnit.helpers (unit : ClassUnit) (entryPlace : Nat) : List (Placed Declaration) :=
  unit.declarations.filter (·.1 ≠ entryPlace)

/-- What trees of a program are lowered with. -/
def Program.resolver (config : Config) (program : Program) : Resolver :=
  ⟨program, config.classification⟩

end Source

/-- The context in which declarations are lowered. -/
def Config.context (config : Config) : Context := { options := config.options }

/-- The state in which lowering begins. -/
def Source.Program.start (program : Program) : Progress := { scopes := .ofUnit program.unit }

/-- Lower a program: its entry method and everything that is reached from there. -/
def Source.Program.lower (config : Config) (program : Program) : Except Unsupported Model.Unit :=
  let unit := program.unit
  match unit.entry? config.entryMethod with
  | none => .error (.missingEntry unit.name config.entryMethod)
  | some (entryPlace, entryDecl) =>
    let r := program.resolver config
    let lowering : Step Model.Unit := do
      let entry ← entryDecl.lower r config.context
      let lowered ← lowerUsed r config.context (unit.helpers entryPlace)
      let models := inOrder unit.declarations.length lowered
      return {
        name := unit.name
        fields := models.filterMap Lowered.field?
        methods := models.filterMap Lowered.method?
        entry := entry.body }
    (lowering program.start).1

/-- Compile a program to a script in the configured target language. -/
def Source.Program.compile (config : Config) (program : Program) : Except Unsupported String := do
  let unit ← program.lower config
  unit.render config.target config.indent

/-! ### Results -/

/-- What can be told of the result of a computation that has one. -/
theorem exists_ok_of_map {ε α β : Type} {x : Except ε α} {f : α → β} {b : β}
    (evaluated : x.toOption.map f = some b) : ∃ a, x = .ok a ∧ f a = b := by
  cases x with
  | error => cases evaluated
  | ok a => exact ⟨a, rfl, Option.some.inj evaluated⟩

theorem ok_of_toOption {ε α : Type} {x : Except ε α} {a : α} (evaluated : x.toOption = some a) :
    x = .ok a := by
  cases x with
  | error => cases evaluated
  | ok a' => rw [Option.some.inj evaluated]

end Polyscript
