import Polyscript.Layout.Writer
import Polyscript.Model.Draft

/-!
# Writing with a writer

What a writer can be asked to do: to write texts, comments and the nodes of a model, to change
the depth, and to hand out what it has written. Requests follow each other on one writer, and
a node that breaks off leaves the writer as it is at that moment.

The writer counts the structured literals that are open, so a node is drafted as if it stood
inside one: the draft then marks the ends of every literal and opens no block of its own.
-/

namespace Polyscript.Model

/-- A node of a model that can be written by itself. -/
inductive Item where
  | expr (expr : Expr)
  | access (access : Access)
  | member (member : Member)
  | lambdaBody (body : LambdaBody)
  /-- A statement, with what it is wanted for. -/
  | stmt (position : Position) (stmt : Stmt)
  | block (block : Block)
  | field (field : Field)
  | method (method : Method)

/-- The draft of a node. -/
def Item.draft (t : Target) (insideJson : Bool) : Item → Draft
  | .expr e => e.draft t insideJson false
  | .access a => a.draft t insideJson
  | .member m => m.draft t insideJson
  | .lambdaBody body => (body.draft t insideJson false).plain
  | .stmt position s => s.draft t insideJson position
  | .block b => b.draft t insideJson
  | .field f => t.varDecl .field f.type f.name (Expr.optionDraft t insideJson f.init)
  | .method m => t.method m.signature m.paramNames (m.body.draft t insideJson)

/-- The draft of a program for a writer that counts literals. -/
def Unit.counted (t : Target) (unit : Unit) : Draft :=
  let fields : List Draft :=
    unit.fields.map fun field => (Item.field field).draft t true ++ t.terminator ++ "\n"
  let methods : List Draft :=
    unit.methods.map fun method =>
      Draft.mark .gap ++ (Item.method method).draft t true ++ "\n"
  let entry :=
    if unit.entry.stmts.isEmpty then Draft.empty
    else Draft.mark .gap ++ (Item.block unit.entry).draft t true
  Draft.concat fields ++ Draft.concat methods ++ entry

/-- Something that a writer can be asked to do. -/
inductive Request where
  | append (text : String)
  | indent
  | unindent
  | item (item : Item)
  | unit (unit : Unit)
  | fragment (fragment : String)
  | comment (text : String)
  | take

/-- What a writer answers: the text handed out if there is one or the cause of a failure, and
the text that now stands on its page. -/
structure Answer where
  outcome : Except Unsupported (Option String)
  text : String

/-- What is to be written for a request. -/
def Request.draft (t : Target) : Request → Draft
  | .append s => .text s
  | .indent => .mark .indent
  | .unindent => .mark .unindent
  | .item i => i.draft t true
  | .unit u => u.counted t
  | .fragment s => t.fragment s
  | .comment s => .text (t.comment s)
  | .take => .empty

/-- Answer a request. -/
def Request.answer (t : Target) (w : Writer) : Request → Answer × Writer
  | .take => (⟨.ok (some w.take.1), w.take.2.page.text⟩, w.take.2)
  | request =>
    let d := request.draft t
    let outcome := match d.fault with
      | some fault => .error fault
      | none => .ok none
    (⟨outcome, (d.writtenBy w).page.text⟩, d.writtenBy w)

/-- Answer requests one after the other, failed ones included. -/
def Request.answers (t : Target) (w : Writer) : List Request → List Answer × Writer
  | [] => ([], w)
  | request :: rest =>
    let (answer, w) := request.answer t w
    let (answers, w) := Request.answers t w rest
    (answer :: answers, w)

end Polyscript.Model
