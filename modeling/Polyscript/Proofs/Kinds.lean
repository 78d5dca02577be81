import Polyscript.Proofs.Lowering.Whole
import Polyscript.Proofs.Model.Kinds

/-!
# Kinds are not written

A value of a compiled program has a kind so that calls on it can be told apart while the program
is lowered. Lowering gives kinds only to variables, fields, calls, choices, accesses and literals
of containers, never to the enclosing instance, to a literal of another sort or to a step by one:
these are the forms that are written in a way of their own. So the script of a compiled program is
the same if every kind in it is left out.

## Main statements

* `Source.Program.kinds_unwritten`: a compiled program is written alike without its kinds.
-/

namespace Polyscript

open Model (Node Every)
open Lowering

/-- Lowering gives kinds only to what takes one. -/
instance : Makes (fun _ => True) Node.IsKinded where
  admits e isMade := by
    cases e with
    | typed value kind => exact isMade
    | _ => trivial
  grown grows _ := by cases grows <;> trivial
  used node _ isUse _ := by
    cases node with
    | expr e =>
      cases e with
      | typed value kind => cases isUse
      | _ => trivial
    | _ => trivial
  handler _ _ _ _ := trivial
  stmt _ := trivial
  block _ _ := trivial
  external _ := trivial

namespace Source.Program

/-- A compiled program without its kinds, at whatever depth, is written in every language like the
program itself, or rejected with the same cause. -/
theorem kinds_unwritten {config : Config} {program : Program} {unit : Model.Unit}
    (lowers : program.lower config = .ok unit) (t : Target) (indent : String) :
    Every (·.isKindless) unit.kindless.nodes ∧
      unit.kindless.render t indent = unit.render t indent := by
  have kinded : Every Node.IsKinded unit.nodes := every_node lowers
  exact ⟨unit.every_kindless, unit.render_kindless t indent kinded⟩

/-- The type of structured objects. -/
def objectType : Ty := .declared "io.vertx.core.json.JsonObject" []

/-- A program that merges a structured object with itself. -/
def merging : Program where
  unit := {
    name := "demo.App"
    methods := [{
      name := "start"
      ret := objectType
      body := { stmts := [
        .local { name := "totals", sym := 1, ty := objectType },
        .return (some (.call (.member (.ident "totals" 1) "mergeIn") 2
          [⟨.ident "totals" 1, objectType⟩] objectType))] } }] }
  methods := .ofList [(2, {
    name := "mergeIn"
    owner := objectType
    params := [objectType]
    ret := objectType })]

theorem kinds_unwritten_merging : ∃ unit, merging.lower {} = .ok unit ∧
    ¬Every (·.isKindless) unit.nodes ∧ Every (·.isKindless) unit.kindless.nodes ∧
    unit.kindless.render .kotlin "  " =
      .ok "var totals: JsonObject? = null\nreturn totals.mergeIn(totals)\n" := by
  have evaluated : (merging.lower {}).toOption.map (fun unit =>
      (unit.nodes.all (·.isKindless), (unit.render .kotlin "  ").toOption)) =
      some (false, some "var totals: JsonObject? = null\nreturn totals.mergeIn(totals)\n") := by
    decide +kernel
  obtain ⟨unit, lowers, found⟩ := exists_ok_of_map evaluated
  obtain ⟨kinds, text⟩ := Prod.mk.inj found
  obtain ⟨none, same⟩ := kinds_unwritten lowers .kotlin "  "
  refine ⟨unit, lowers, fun every => ?_, none, same.trans (ok_of_toOption text)⟩
  rw [List.all_eq_true.2 every] at kinds
  cases kinds

end Source.Program

end Polyscript
