import Polyscript.Model.Basic
import Polyscript.Spelling.Container
import Polyscript.Spelling.Statement

/-!
# Drafts of the model

Every node of the model has a draft in every target language. A draft depends on
the node, on the language and on little else: whether an expression stands as a
statement of its own, whether a literal of Kotlin stands inside another one, and
what a statement is wanted for.
-/

namespace Polyscript.Model

/-- What a statement is wanted for. -/
inductive Position where
  /-- As a part of a construct, without an end of line. -/
  | part
  /-- As a line of a block. -/
  | line
  /-- As the whole body of a construct, in which a block gives its statements. -/
  | body
  deriving DecidableEq

/-- Finish the draft of a statement that is not the block of a body. -/
def Position.finish (position : Position) (terminator : String) (statement : Draft) : Draft :=
  match position with
  | .part => statement
  | .line | .body => statement ++ terminator ++ "\n"

mutual

/-- The draft of an expression. -/
def Expr.draft (t : Target) (insideJson isStatement : Bool) : Expr → Draft
  | .identifier name scope => t.variableName name scope
  | .this => t.this
  | .literal value => t.literal value
  | .concat parts => t.concatenation ((parts.map Expr.text?).zip (Expr.drafts t insideJson parts))
  | .parenthesized inner => Target.parenthesized (inner.draft t insideJson false)
  | .binary op lhs rhs =>
    t.binary op (lhs.draft t insideJson false) (rhs.draft t insideJson false)
  | .unary op operand =>
    t.unary isStatement (Target.isAsyncCheck operand) op (operand.draft t insideJson false)
  | .conditional cond yes no =>
    t.conditional (cond.draft t insideJson false) (yes.draft t insideJson false)
      (no.draft t insideJson false)
  | .assign target value =>
    Target.assignment (target.draft t insideJson false) (value.draft t insideJson false)
  | .field receiver name => t.fieldAccess (receiver.draft t insideJson false) name
  | .invocation receiver site =>
    t.invocation receiver.isThis (receiver.draft t insideJson false) site.method.name
      (CallSite.argDrafts t insideJson site)
  | .construct cls args => t.construction cls (Expr.drafts t insideJson args)
  | .instanceOf expr cls => t.instanceTest (expr.draft t insideJson false) cls
  | .lambda ⟨paramNames, _, body⟩ => t.lambda paramNames (body.draft t insideJson false)
  | .asyncHandler handler => handler.draft t insideJson
  | .methodReference receiver method =>
    t.methodReference receiver.isThis (receiver.draft t insideJson false) method.name
      method.params.length
  | .cls cls => t.className cls
  | .jsonObject members => t.jsonObject insideJson (Member.drafts t true members)
  | .jsonArray values => t.jsonArray insideJson (Expr.drafts t true values)
  | .dataObject type members => t.dataObject type (Member.drafts t insideJson members)
  | .list values => t.listLiteral (Expr.drafts t insideJson values)
  | .newMap => t.newMap
  | .newList => t.newList
  | .throwable type reason => t.throwable type (Expr.optionDraft t insideJson reason)
  | .enumConstant type constant => t.enumConstant type constant
  | .console stream => .fail (.consoleValue stream)
  | .consolePrint stream arg => t.consolePrint stream (arg.draft t insideJson false)
  | .asyncResult name _ => t.variableName name .parameter
  | .asyncCall name _ op => t.asyncCall name op
  | .typed value _ => value.draft t insideJson false
  | .access access => access.draft t insideJson

/-- The drafts of expressions. -/
def Expr.drafts (t : Target) (insideJson : Bool) : List Expr → List Draft
  | [] => []
  | expr :: rest => expr.draft t insideJson false :: Expr.drafts t insideJson rest

/-- The draft of an expression that may be missing. -/
def Expr.optionDraft (t : Target) (insideJson : Bool) : Option Expr → Option Draft
  | none => none
  | some expr => some (expr.draft t insideJson false)

/-- The drafts of a call's arguments. -/
def CallSite.argDrafts (t : Target) (insideJson : Bool) : CallSite → List Draft
  | ⟨_, _, _, args, _⟩ => Expr.drafts t insideJson args

/-- The draft of a member's value. -/
def Member.draft (t : Target) (insideJson : Bool) : Member → Draft
  | .single _ value => value.draft t insideJson false
  | .sequence _ values => t.listLiteral (Expr.drafts t insideJson values)

/-- The names of members with the drafts of their values. -/
def Member.drafts (t : Target) (insideJson : Bool) : List Member → List (String × Draft)
  | [] => []
  | member :: rest => (member.name, member.draft t insideJson) :: Member.drafts t insideJson rest

/-- The draft of an access. -/
def Access.draft (t : Target) (insideJson : Bool) : Access → Draft
  | .jsonObjectGet object key =>
    t.jsonObjectGet (object.draft t insideJson false) (key.draft t insideJson false) key.text?
  | .jsonObjectPut object key value =>
    t.jsonObjectPut (object.draft t insideJson false) (key.draft t insideJson false)
      (value.draft t insideJson false) key.text? value.isNull
  | .jsonObjectEncode object => t.jsonEncode (object.draft t insideJson false)
  | .jsonArrayGet array index =>
    t.jsonArrayGet (array.draft t insideJson false) (index.draft t insideJson false)
  | .jsonArrayAdd array value =>
    t.jsonArrayAdd (array.draft t insideJson false) (value.draft t insideJson false) value.isNull
  | .jsonArraySize array => t.jsonArraySize (array.draft t insideJson false)
  | .jsonArrayEncode array => t.jsonEncode (array.draft t insideJson false)
  | .dataObjectGet object name => t.property (object.draft t insideJson false) name
  | .dataObjectSet object name value =>
    Target.assignment (t.property (object.draft t insideJson false) name)
      (value.draft t insideJson false)
  | .mapGet map key => Target.element (map.draft t insideJson false) (key.draft t insideJson false)
  | .mapPut map key value =>
    Target.assignment
      (Target.element (map.draft t insideJson false) (key.draft t insideJson false))
      (value.draft t insideJson false)
  | .mapForEach map keyName valueName body =>
    t.mapForEach (map.draft t insideJson false) keyName valueName (body.draft t insideJson true)
  | .listGet list index =>
    Target.element (list.draft t insideJson false) (index.draft t insideJson false)
  | .listAdd list value =>
    t.listAdd (list.draft t insideJson false) (value.draft t insideJson false)
  | .listSize list => t.listSize (list.draft t insideJson false)

/-- The draft of a lambda's body. -/
def LambdaBody.draft (t : Target) (insideJson isStatement : Bool) : LambdaBody → BodyDraft
  | .expr body => .expr (body.draft t insideJson isStatement)
  | .block body => .lines (body.draft t insideJson)

/-- The draft of a callback. Branches that are kept apart make up its body. -/
def AsyncHandler.draft (t : Target) (insideJson : Bool) : AsyncHandler → Draft
  | ⟨name, _, _, body, succeeded, failed⟩ =>
    let branch (op : AsyncOp) (body : Draft) : Draft × Draft := (t.asyncCall name op, body)
    let split (branch : Draft × Draft) (otherwise : Option Draft) : BodyDraft :=
      .lines (t.conditionals [branch] otherwise ++ "\n")
    let params := t.handlerParams name
    match Stmt.optionDraft t insideJson succeeded, Stmt.optionDraft t insideJson failed with
    | some success, failure => t.lambda params (split (branch .succeeded success) failure)
    | none, some failure => t.lambda params (split (branch .failed failure) none)
    | none, none => t.lambda params (body.draft t insideJson false)

/-- The draft of a block: its statements and fragments, without braces. -/
def Block.draft (t : Target) (insideJson : Bool) : Block → Draft
  | ⟨stmts, fragments⟩ => Stmt.drafts t insideJson stmts fragments

/-- The draft of statements between fragments. -/
def Stmt.drafts (t : Target) (insideJson : Bool) : List Stmt → List String → Draft
  | [], fragments => leadingFragment t fragments
  | stmt :: rest, fragments =>
    leadingFragment t fragments ++ stmt.draft t insideJson .line ++
      Stmt.drafts t insideJson rest fragments.tail
where
  /-- The draft of the first fragment. -/
  leadingFragment (t : Target) : List String → Draft
    | [] => .empty
    | fragment :: _ => t.fragment fragment

/-- The drafts of branches. -/
def Branch.drafts (t : Target) (insideJson : Bool) : List Branch → List (Draft × Draft)
  | [] => []
  | ⟨cond, body⟩ :: rest =>
    (cond.draft t insideJson false, body.draft t insideJson .body) ::
      Branch.drafts t insideJson rest

/-- The draft of a statement. -/
def Stmt.draft (t : Target) (insideJson : Bool) (position : Position) : Stmt → Draft
  | .return value =>
    position.finish t.terminator (Target.returnValue (Expr.optionDraft t insideJson value))
  | .assign target value =>
    position.finish t.terminator (Target.assignment (target.draft t insideJson false)
      (value.draft t insideJson false))
  | .varDecl scope type name init =>
    position.finish t.terminator (t.varDecl scope type name (Expr.optionDraft t insideJson init))
  | .conditionals branches otherwise =>
    position.finish "" (t.conditionals (Branch.drafts t insideJson branches)
      (Stmt.optionDraft t insideJson otherwise))
  | .tryCatch body catchParam catchBody =>
    position.finish "" (t.tryCatch (body.draft t insideJson .body) catchParam
      (catchBody.draft t insideJson .body))
  | .throw type reason =>
    position.finish t.terminator (t.throw type (Expr.optionDraft t insideJson reason))
  | .block block =>
    if position = .body then block.draft t insideJson
    else position.finish "" (t.nestedBlock (block.draft t insideJson))
  | .loop init cond update body =>
    position.finish "" (t.loop (init.draft t insideJson .part) (cond.draft t insideJson false)
      (update.draft t insideJson true) (body.draft t insideJson .body))
  | .sequenceFor id start stop body =>
    position.finish "" (t.sequenceFor id (start.draft t insideJson false)
      (stop.draft t insideJson false) (body.draft t insideJson .body))
  | .forEach element _ iterable body =>
    position.finish "" (t.forEach element (iterable.draft t insideJson false)
      (body.draft t insideJson .body))
  | .expr expr => position.finish t.terminator (expr.draft t insideJson true)

/-- The draft of a statement, as a body, that may be missing. -/
def Stmt.optionDraft (t : Target) (insideJson : Bool) : Option Stmt → Option Draft
  | none => none
  | some stmt => some (stmt.draft t insideJson .body)

end

/-- The draft of a method. -/
def Method.draft (t : Target) (method : Method) : Draft :=
  t.method method.signature method.paramNames (method.body.draft t false)

/-- The draft of a field. -/
def Field.draft (t : Target) (field : Field) : Draft :=
  t.varDecl .field field.type field.name (Expr.optionDraft t false field.init)

/-- The draft of a program: its fields, its methods, and the body of its entry method
if that has statements. -/
def Unit.draft (t : Target) (unit : Unit) : Draft :=
  let fields : List Draft := unit.fields.map fun field => field.draft t ++ t.terminator ++ "\n"
  let methods : List Draft :=
    unit.methods.map fun method => Draft.mark .gap ++ method.draft t ++ "\n"
  let entry :=
    if unit.entry.stmts.isEmpty then Draft.empty
    else Draft.mark .gap ++ unit.entry.draft t false
  Draft.concat fields ++ Draft.concat methods ++ entry

/-- The text of a program. -/
def Unit.render (t : Target) (indent : String) (unit : Unit) : Except Unsupported String :=
  let draft := unit.draft t
  match draft.fault with
  | some fault => .error fault
  | none => .ok (draft.on (Page.blank indent)).text

end Polyscript.Model
