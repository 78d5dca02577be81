import Mathlib.Data.List.Infix
import Polyscript.Proofs.Formatting
import Polyscript.Proofs.Lowering.Whole

/-!
# Comments in the text of a program

The text of a compiled program is the text without fragments and some lines besides, at which
the comments of its blocks can be read: each block that is rendered has its comments written,
each once and in the order of the block. Two kinds of blocks are not rendered and lose theirs:
an entry method without statements, and the body of a callback whose branches are kept apart.

## Main statements

* `Source.Program.comments_written`: whose comments are written.
* `Source.Program.comments_lost`: two programs that lose a comment.
-/

namespace Polyscript

namespace Model

/-- Whether a node is a block with a comment. -/
def Node.hasComment (comment : String) : Node → Bool
  | .block b => comment ∈ b.comments
  | _ => false

theorem exists_comment {nodes : List Node} {comment : String}
    (found : nodes.any (Node.hasComment comment)) :
    ∃ b, .block b ∈ nodes ∧ comment ∈ b.comments := by
  obtain ⟨node, mem, has⟩ := List.any_eq_true.1 found
  cases node with
  | block b => exact ⟨b, mem, of_decide_eq_true has⟩
  | _ => cases has

end Model

namespace Source.Program

variable {program : Program} {config : Config} {unit : Model.Unit}

/-- The text of a compiled program adds lines to the text without fragments. Those of the lines
that are not blank are the comments of the blocks that are rendered, interleaved: each is written
once, and those of one block in the order of its fragments. All blocks are rendered but for an
entry method without statements and the bodies of callbacks whose branches are kept apart. -/
theorem comments_written (lowers : program.lower config = .ok unit) {t : Target}
    {indent text : String} (ok : unit.render t indent = .ok text) :
    (∃ bare lines, unit.bare.render t indent = .ok bare ∧
      Layout.Adds indent lines text.toList bare.toList ∧
      Interleaves (unit.blocks.map (Model.Block.commentLines t)) (Model.written lines)) ∧
    ∀ b, .block b ∈ unit.nodes → b ∈ unit.blocks ∨ (unit.entry.stmts = [] ∧ b = unit.entry) ∨
      ∃ handler, .expr (.asyncHandler handler) ∈ unit.nodes ∧ handler.isSplit ∧
        handler.body = .block b := by
  obtain ⟨bare, rendered, adds⟩ := unit.render_adds t ok
  have interleaved := unit.interleaves_lines (t := t) (blocks_fitting lowers)
  exact ⟨⟨bare, unit.lines t, rendered, adds, interleaved⟩, fun b mem => block_rendered lowers mem⟩

theorem comments_written_commented : ∃ unit text, commented.lower {} = .ok unit ∧
    unit.render .javascript "  " = .ok text ∧ text = "// done\nreturn;\n" ∧
    (∃ bare lines, unit.bare.render .javascript "  " = .ok bare ∧
      Layout.Adds "  " lines text.toList bare.toList ∧
      Interleaves (unit.blocks.map (Model.Block.commentLines .javascript))
        (Model.written lines)) ∧
    ∀ b, .block b ∈ unit.nodes → b ∈ unit.blocks ∨ (unit.entry.stmts = [] ∧ b = unit.entry) ∨
      ∃ handler, .expr (.asyncHandler handler) ∈ unit.nodes ∧ handler.isSplit ∧
        handler.body = .block b := by
  have evaluated : (commented.lower {}).toOption.map
      (fun unit => (unit.render .javascript "  ").toOption) = some (some "// done\nreturn;\n") := by
    decide +kernel
  obtain ⟨unit, lowers, rendered⟩ := exists_ok_of_map evaluated
  have ok := ok_of_toOption rendered
  exact ⟨unit, _, lowers, ok, rfl, comments_written lowers ok⟩

/-- A program whose entry method is nothing but a comment. -/
def nothingYet : Program where
  unit := {
    name := "demo.App"
    methods := [{ name := "start", ret := .void, body := { stmts := [], span := ⟨0, 20⟩ } }] }
  source := some "\x7b\n  // nothing yet\n\x7d"

/-- A program with a callback that does nothing but return on success, behind a comment. -/
def returning : Program where
  unit := {
    name := "demo.App"
    methods := [{
      name := "start"
      ret := .void
      body := {
        stmts := [.local {
          name := "h"
          sym := 4
          ty := .declared "demo.Handler" []
          init := some (.lambda [textParam] (.block {
            stmts := [.conditional
              (.parens (.memberCall (.ident "text" 5) "succeeded" 2 [] (.primitive .boolean)))
              (.return none) none ⟨67, 96⟩]
            span := ⟨46, 100⟩ }))
          span := ⟨4, 101⟩ }]
        span := ⟨0, 103⟩ } }] }
  methods := asking.methods
  source := some <| "\x7b\n  Handler h = (AsyncResult<String> text) -> \x7b\n    // outcome\n" ++
    "    if (text.succeeded()) return;\n  \x7d;\n\x7d"

/-- Whether a program has a block with a comment whose text is written in no language. -/
def Loses (program : Program) (comment : String) : Prop :=
  ∃ unit, program.lower {} = .ok unit ∧ (∃ b, .block b ∈ unit.nodes ∧ comment ∈ b.comments) ∧
    ∀ t, ∃ text, unit.render t "  " = .ok text ∧ ¬comment.toList <:+: text.toList

/-- A program loses a comment if it is seen to in all four languages. -/
theorem loses_of_evaluated {program : Program} {comment : String}
    (evaluated : (program.lower {}).toOption.map (fun unit =>
      (unit.nodes.any (Model.Node.hasComment comment),
        Target.all.all fun t => ((unit.render t "  ").toOption.map fun text =>
          decide ¬comment.toList <:+: text.toList) = some true)) = some (true, true)) :
    Loses program comment := by
  obtain ⟨unit, lowers, found⟩ := exists_ok_of_map evaluated
  obtain ⟨isKept, isLost⟩ := Prod.mk.inj found
  refine ⟨unit, lowers, Model.exists_comment isKept, fun t => ?_⟩
  have isTarget : t ∈ Target.all := by cases t <;> decide
  have rendered := of_decide_eq_true (List.all_eq_true.1 isLost t isTarget)
  obtain ⟨text, ok, without⟩ := exists_ok_of_map rendered
  exact ⟨text, ok, of_decide_eq_true without⟩

/-- The comment of an entry method without statements is lost, and so is that of a callback whose
branches are kept apart. -/
theorem comments_lost : Loses nothingYet "nothing yet" ∧ Loses returning "outcome" :=
  ⟨loses_of_evaluated (by decide +kernel), loses_of_evaluated (by decide +kernel)⟩

end Source.Program

end Polyscript
