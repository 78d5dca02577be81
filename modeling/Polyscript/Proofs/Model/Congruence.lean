import Polyscript.Model.Writing
import Polyscript.Proofs.Spelling.Congruence

/-!
# Relations between the drafts of a node

A node can be drafted for a writer that counts the open literals, or for a place that is told
whether it stands inside one. A relation that every spelling keeps relates the two drafts of
every node.
-/

namespace Polyscript.Model

open Draft (Named)

variable {t : Target} {R : Bool → Draft → Draft → Prop}

theorem Position.finish_related (c : Draft.Congruence t R) {inside : Bool} {d d' : Draft}
    (position : Position) (terminator : String) (same : R inside d d') :
    R inside (position.finish terminator d) (position.finish terminator d') := by
  cases position with
  | part => exact same
  | line | body => exact c.append (c.append same (c.text terminator)) (c.text "\n")

theorem Stmt.leadingFragment_related (c : Draft.Congruence t R) (inside : Bool)
    (fragments : List String) :
    R inside (Stmt.drafts.leadingFragment t fragments)
      (Stmt.drafts.leadingFragment t fragments) := by
  cases fragments with
  | nil => exact c.empty
  | cons fragment rest => exact c.fragment fragment

mutual

/-- The drafts of an expression are related. -/
theorem Expr.draft_related (c : Draft.Congruence t R) (inside isStatement : Bool) (e : Expr) :
    R inside (e.draft t true isStatement) (e.draft t inside isStatement) := by
  cases e with
  | identifier name scope => exact c.text _
  | this => exact c.text _
  | literal value => exact c.text _
  | concat parts =>
    simp only [Expr.draft]
    exact c.concatenation (Expr.parts_related c inside parts)
  | parenthesized inner =>
    simp only [Expr.draft]
    exact c.parenthesized (inner.draft_related c inside false)
  | binary op lhs rhs =>
    simp only [Expr.draft]
    exact c.binary op (lhs.draft_related c inside false) (rhs.draft_related c inside false)
  | unary op operand =>
    simp only [Expr.draft]
    exact c.unary isStatement _ op (operand.draft_related c inside false)
  | conditional cond yes no =>
    simp only [Expr.draft]
    exact c.conditional (cond.draft_related c inside false) (yes.draft_related c inside false)
      (no.draft_related c inside false)
  | assign target value =>
    simp only [Expr.draft]
    exact c.assignment (target.draft_related c inside false) (value.draft_related c inside false)
  | field receiver name =>
    simp only [Expr.draft]
    exact c.fieldAccess name (receiver.draft_related c inside false)
  | invocation receiver site =>
    obtain ⟨receiverType, method, returnType, args, argTypes⟩ := site
    simp only [Expr.draft, CallSite.argDrafts]
    exact c.invocation _ _ (receiver.draft_related c inside false)
      (Expr.drafts_related c inside args)
  | construct cls args =>
    simp only [Expr.draft]
    exact c.construction cls (Expr.drafts_related c inside args)
  | instanceOf expr cls =>
    simp only [Expr.draft]
    exact c.instanceTest cls (expr.draft_related c inside false)
  | lambda lambda =>
    obtain ⟨paramNames, paramTypes, body⟩ := lambda
    simp only [Expr.draft]
    exact c.lambda paramNames (body.draft_related c inside false)
  | asyncHandler handler =>
    simp only [Expr.draft]
    exact handler.draft_related c inside
  | methodReference receiver method =>
    simp only [Expr.draft]
    exact c.methodReference _ _ _ (receiver.draft_related c inside false)
  | cls cls => exact c.text _
  | jsonObject members =>
    simp only [Expr.draft]
    exact c.jsonObject (Member.drafts_related c true members)
  | jsonArray values =>
    simp only [Expr.draft]
    exact c.jsonArray (Expr.drafts_related c true values)
  | dataObject type members =>
    simp only [Expr.draft]
    exact c.dataObject type (Member.drafts_related c inside members)
  | list values =>
    simp only [Expr.draft]
    exact c.listLiteral (Expr.drafts_related c inside values)
  | newMap => exact c.text _
  | newList => exact c.text _
  | throwable type reason =>
    simp only [Expr.draft]
    exact c.throwable type (Expr.optionDraft_related c inside reason)
  | enumConstant type constant => exact c.text _
  | console stream => exact c.fail _
  | consolePrint stream arg =>
    simp only [Expr.draft]
    exact c.consolePrint stream (arg.draft_related c inside false)
  | asyncResult name resultType => exact c.text _
  | asyncCall name resultType op => exact c.text _
  | typed value kind =>
    simp only [Expr.draft]
    exact value.draft_related c inside false
  | access access =>
    simp only [Expr.draft]
    exact access.draft_related c inside

theorem Expr.drafts_related (c : Draft.Congruence t R) (inside : Bool) (es : List Expr) :
    List.Forall₂ (R inside) (Expr.drafts t true es) (Expr.drafts t inside es) := by
  cases es with
  | nil => exact .nil
  | cons e rest =>
    exact .cons (e.draft_related c inside false) (Expr.drafts_related c inside rest)

/-- The drafts of the parts of a concatenation, each with its text if it is a literal. -/
theorem Expr.parts_related (c : Draft.Congruence t R) (inside : Bool) (parts : List Expr) :
    List.Forall₂ (Named (R inside)) ((parts.map Expr.text?).zip (Expr.drafts t true parts))
      ((parts.map Expr.text?).zip (Expr.drafts t inside parts)) := by
  cases parts with
  | nil => exact .nil
  | cons part rest =>
    exact .cons (.mk _ (part.draft_related c inside false)) (Expr.parts_related c inside rest)

theorem Expr.optionDraft_related (c : Draft.Congruence t R) (inside : Bool) (e : Option Expr) :
    Option.Rel (R inside) (Expr.optionDraft t true e) (Expr.optionDraft t inside e) := by
  cases e with
  | none => exact .none
  | some e => exact .some (e.draft_related c inside false)

theorem Member.draft_related (c : Draft.Congruence t R) (inside : Bool) (member : Member) :
    R inside (member.draft t true) (member.draft t inside) := by
  cases member with
  | single name value => exact value.draft_related c inside false
  | sequence name values => exact c.listLiteral (Expr.drafts_related c inside values)

theorem Member.drafts_related (c : Draft.Congruence t R) (inside : Bool) (members : List Member) :
    List.Forall₂ (Named (R inside)) (Member.drafts t true members)
      (Member.drafts t inside members) := by
  cases members with
  | nil => exact .nil
  | cons member rest =>
    exact .cons (.mk _ (member.draft_related c inside)) (Member.drafts_related c inside rest)

/-- The drafts of an access are related. -/
theorem Access.draft_related (c : Draft.Congruence t R) (inside : Bool) (access : Access) :
    R inside (access.draft t true) (access.draft t inside) := by
  cases access with
  | jsonObjectGet object key =>
    simp only [Access.draft]
    exact c.jsonObjectGet _ (object.draft_related c inside false) (key.draft_related c inside false)
  | jsonObjectPut object key value =>
    simp only [Access.draft]
    exact c.jsonObjectPut _ _ (object.draft_related c inside false)
      (key.draft_related c inside false) (value.draft_related c inside false)
  | jsonObjectEncode object =>
    simp only [Access.draft]
    exact c.jsonEncode (object.draft_related c inside false)
  | jsonArrayGet array index =>
    simp only [Access.draft]
    exact c.jsonArrayGet (array.draft_related c inside false) (index.draft_related c inside false)
  | jsonArrayAdd array value =>
    simp only [Access.draft]
    exact c.jsonArrayAdd _ (array.draft_related c inside false) (value.draft_related c inside false)
  | jsonArraySize array =>
    simp only [Access.draft]
    exact c.jsonArraySize (array.draft_related c inside false)
  | jsonArrayEncode array =>
    simp only [Access.draft]
    exact c.jsonEncode (array.draft_related c inside false)
  | dataObjectGet object name =>
    simp only [Access.draft]
    exact c.property name (object.draft_related c inside false)
  | dataObjectSet object name value =>
    simp only [Access.draft]
    exact c.assignment (c.property name (object.draft_related c inside false))
      (value.draft_related c inside false)
  | mapGet map key =>
    simp only [Access.draft]
    exact c.element (map.draft_related c inside false) (key.draft_related c inside false)
  | mapPut map key value =>
    simp only [Access.draft]
    exact c.assignment (c.element (map.draft_related c inside false)
      (key.draft_related c inside false)) (value.draft_related c inside false)
  | mapForEach map keyName valueName body =>
    simp only [Access.draft]
    exact c.mapForEach keyName valueName (map.draft_related c inside false)
      (body.draft_related c inside true)
  | listGet list index =>
    simp only [Access.draft]
    exact c.element (list.draft_related c inside false) (index.draft_related c inside false)
  | listAdd list value =>
    simp only [Access.draft]
    exact c.listAdd (list.draft_related c inside false) (value.draft_related c inside false)
  | listSize list =>
    simp only [Access.draft]
    exact c.listSize (list.draft_related c inside false)

theorem LambdaBody.draft_related (c : Draft.Congruence t R) (inside isStatement : Bool)
    (body : LambdaBody) :
    (body.draft t true isStatement).Rel (R inside) (body.draft t inside isStatement) := by
  cases body with
  | expr body => exact .expr (body.draft_related c inside isStatement)
  | block body => exact .lines (body.draft_related c inside)

/-- The drafts of a callback are related. -/
theorem AsyncHandler.draft_related (c : Draft.Congruence t R) (inside : Bool)
    (handler : AsyncHandler) :
    R inside (handler.draft t true) (handler.draft t inside) := by
  obtain ⟨name, paramType, resultType, body, succeeded, failed⟩ := handler
  have success := Stmt.optionDraft_related c inside succeeded
  have failure := Stmt.optionDraft_related c inside failed
  have split {op : AsyncOp} {d d' : Draft} {otherwise otherwise' : Option Draft}
      (branch : R inside d d') (other : Option.Rel (R inside) otherwise otherwise') :
      BodyDraft.Rel (R inside)
        (.lines (t.conditionals [(t.asyncCall name op, d)] otherwise ++ "\n"))
        (.lines (t.conditionals [(t.asyncCall name op, d')] otherwise' ++ "\n")) :=
    .lines (c.append (c.conditionals (.cons ⟨c.text _, branch⟩ .nil) other) (c.text "\n"))
  simp only [AsyncHandler.draft]
  -- the body is drafted only if neither branch was kept apart
  generalize Stmt.optionDraft t true succeeded = succeeds,
    Stmt.optionDraft t inside succeeded = succeeds' at success ⊢
  generalize Stmt.optionDraft t true failed = fails,
    Stmt.optionDraft t inside failed = fails' at failure ⊢
  cases success with
  | some success => exact c.lambda _ (split success failure)
  | none =>
    cases failure with
    | some failure => exact c.lambda _ (split failure .none)
    | none => exact c.lambda _ (body.draft_related c inside false)

theorem Block.draft_related (c : Draft.Congruence t R) (inside : Bool) (block : Block) :
    R inside (block.draft t true) (block.draft t inside) := by
  obtain ⟨stmts, fragments⟩ := block
  exact Stmt.drafts_related c inside stmts fragments

theorem Stmt.drafts_related (c : Draft.Congruence t R) (inside : Bool) (stmts : List Stmt)
    (fragments : List String) :
    R inside (Stmt.drafts t true stmts fragments) (Stmt.drafts t inside stmts fragments) := by
  have leading := Stmt.leadingFragment_related c inside fragments
  cases stmts with
  | nil => exact leading
  | cons stmt rest =>
    exact c.append (c.append leading (stmt.draft_related c inside .line))
      (Stmt.drafts_related c inside rest fragments.tail)

theorem Branch.drafts_related (c : Draft.Congruence t R) (inside : Bool) (branches : List Branch) :
    List.Forall₂ (fun b b' => R inside b.1 b'.1 ∧ R inside b.2 b'.2)
      (Branch.drafts t true branches) (Branch.drafts t inside branches) := by
  cases branches with
  | nil => exact .nil
  | cons branch rest =>
    obtain ⟨cond, body⟩ := branch
    exact .cons ⟨cond.draft_related c inside false, body.draft_related c inside .body⟩
      (Branch.drafts_related c inside rest)

/-- The drafts of a statement are related. -/
theorem Stmt.draft_related (c : Draft.Congruence t R) (inside : Bool) (position : Position)
    (stmt : Stmt) :
    R inside (stmt.draft t true position) (stmt.draft t inside position) := by
  cases stmt with
  | «return» value =>
    exact position.finish_related c _
      (c.returnValue (Expr.optionDraft_related c inside value))
  | assign target value =>
    exact position.finish_related c _
      (c.assignment (target.draft_related c inside false) (value.draft_related c inside false))
  | varDecl scope type name init =>
    exact position.finish_related c _
      (c.varDecl scope type name (Expr.optionDraft_related c inside init))
  | conditionals branches otherwise =>
    exact position.finish_related c _ (c.conditionals (Branch.drafts_related c inside branches)
      (Stmt.optionDraft_related c inside otherwise))
  | tryCatch body catchParam catchBody =>
    exact position.finish_related c _ (c.tryCatch catchParam (body.draft_related c inside .body)
      (catchBody.draft_related c inside .body))
  | throw type reason =>
    exact position.finish_related c _ (c.throw type (Expr.optionDraft_related c inside reason))
  | block block =>
    have lines := block.draft_related c inside
    cases position with
    | part => exact c.nestedBlock lines
    | line => exact Position.finish_related c .line "" (c.nestedBlock lines)
    | body => exact lines
  | loop init cond update body =>
    exact position.finish_related c _ (c.loop (init.draft_related c inside .part)
      (cond.draft_related c inside false) (update.draft_related c inside true)
      (body.draft_related c inside .body))
  | sequenceFor id start stop body =>
    exact position.finish_related c _ (c.sequenceFor id (start.draft_related c inside false)
      (stop.draft_related c inside false) (body.draft_related c inside .body))
  | forEach element elementType iterable body =>
    exact position.finish_related c _ (c.forEach element (iterable.draft_related c inside false)
      (body.draft_related c inside .body))
  | expr expr => exact position.finish_related c _ (expr.draft_related c inside true)

theorem Stmt.optionDraft_related (c : Draft.Congruence t R) (inside : Bool) (stmt : Option Stmt) :
    Option.Rel (R inside) (Stmt.optionDraft t true stmt) (Stmt.optionDraft t inside stmt) := by
  cases stmt with
  | none => exact .none
  | some stmt => exact .some (stmt.draft_related c inside .body)

end

/-- The drafts of a node are related. -/
theorem Item.draft_related (c : Draft.Congruence t R) (inside : Bool) (item : Item) :
    R inside (item.draft t true) (item.draft t inside) := by
  cases item with
  | expr e => exact e.draft_related c inside false
  | access a => exact a.draft_related c inside
  | member m => exact m.draft_related c inside
  | lambdaBody body => exact (body.draft_related c inside false).plain
  | stmt position s => exact s.draft_related c inside position
  | block b => exact b.draft_related c inside
  | field f => exact c.varDecl .field f.type f.name (Expr.optionDraft_related c inside f.init)
  | method m => exact c.method m.signature m.paramNames (m.body.draft_related c inside)

end Polyscript.Model
