import Polyscript.Model.Writing
import Polyscript.Proofs.Model.Bare
import Polyscript.Proofs.Model.Rejection
import Polyscript.Proofs.Spelling.Assembly

/-!
# What the draft of a part is assembled from

The draft of an expression, of a statement or of a block is assembled from the drafts of its
parts, and that of a block from its fragments besides. The same part without the fragments in it
is drafted alike, from the same parts without their fragments, and with nothing in the place of
each fragment of a block.

Literals are no pieces: a text in a template and a key that is a name are written without their
drafts. Structured objects and arrays are pieces, and they alone mark where a structured literal
begins and ends.

## Main definitions

* `Part.pieces`: the pieces of a part, in the order in which a language writes them.
* `DraftPiece.Fills`, `DraftPiece.FillsAt`: what a piece is filled in with, anywhere and at a
  place that is known to stand inside a structured literal or outside.

## Main statements

* `Part.assembles`: a part is assembled from its pieces.
* `Part.assembles_of_plain`: without further marks, unless it is a structured literal.
* `Unit.assembles_draft`, `Unit.assembles_counted`: so is a program.
-/

namespace Polyscript.Model

open Draft (Assembles AssemblesWithin AssemblesLines Spread Optional spread_map)
open Target

/-- A piece of a draft: a part that is rendered, or a fragment of a block. -/
inductive DraftPiece where
  | part (part : Part)
  | fragment (fragment : String)

/-- Where a statement stands that is wanted for something. -/
def Position.place : Position → Place
  | .part => .anywhere
  | .line | .body => .lineStart

/-- What a piece is filled in with: a part by its draft and by the draft of the part without
fragments, both for one and the same place; a fragment by its lines and by nothing. -/
inductive DraftPiece.Fills (t : Target) : DraftPiece → Place → Draft → Draft → Prop where
  | expr (inside isStatement : Bool) (e : Expr) :
    Fills t (.part (.expr isStatement e)) .anywhere (e.draft t inside isStatement)
      (e.bare.draft t inside isStatement)
  | stmt (inside : Bool) (position : Position) (s : Stmt) :
    Fills t (.part (.stmt s)) position.place (s.draft t inside position)
      (s.bare.draft t inside position)
  | block (inside : Bool) (b : Block) :
    Fills t (.part (.block b)) .lineStart (b.draft t inside) (b.bare.draft t inside)
  | fragment (fragment : String) :
    Fills t (.fragment fragment) .lineStart (t.fragment fragment) .empty

/-- What a piece is filled in with at a place that stands inside a structured literal or outside. -/
inductive DraftPiece.FillsAt (t : Target) (inside : Bool) :
    DraftPiece → Place → Draft → Draft → Prop where
  | expr (isStatement : Bool) (e : Expr) :
    FillsAt t inside (.part (.expr isStatement e)) .anywhere (e.draft t inside isStatement)
      (e.bare.draft t inside isStatement)
  | stmt (position : Position) (s : Stmt) :
    FillsAt t inside (.part (.stmt s)) position.place (s.draft t inside position)
      (s.bare.draft t inside position)
  | block (b : Block) :
    FillsAt t inside (.part (.block b)) .lineStart (b.draft t inside) (b.bare.draft t inside)
  | fragment (fragment : String) :
    FillsAt t inside (.fragment fragment) .lineStart (t.fragment fragment) .empty

theorem DraftPiece.FillsAt.fills {t : Target} {inside : Bool} {piece : DraftPiece} {a : Place}
    {d d' : Draft} (filled : piece.FillsAt t inside a d d') : piece.Fills t a d d' := by
  cases filled with
  | expr isStatement e => exact .expr inside isStatement e
  | stmt position s => exact .stmt inside position s
  | block b => exact .block inside b
  | fragment fragment => exact .fragment fragment

/-- Drafts put together from parts and fragments, at a place that stands inside a structured
literal or outside. Whether the ends of such literals may stand between them is left open. -/
abbrev DraftPiece.filling (t : Target) (inside : Bool) (m : Prop) : Filling DraftPiece :=
  ⟨DraftPiece.FillsAt t inside, m⟩

/-- Drafts put together from parts and fragments, wherever they stand. -/
abbrev DraftPiece.anyFilling (t : Target) : Filling DraftPiece := ⟨DraftPiece.Fills t, True⟩

theorem DraftPiece.assembles_any {t : Target} {inside : Bool} {m : Prop} {a b : Place}
    {pieces : List DraftPiece} {d d' : Draft}
    (h : Assembles (DraftPiece.filling t inside m) a b pieces d d') :
    Assembles (DraftPiece.anyFilling t) a b pieces d d' :=
  h.mono (fun _ _ _ _ filled => filled.fills) fun _ => trivial

/-- Whether an expression is the literal of a structured object or array. -/
def Expr.isStructured : Expr → Bool
  | .jsonObject _ | .jsonArray _ => true
  | _ => false

/-- Whether a part is the literal of a structured object or array. -/
def Part.isStructured : Part → Bool
  | .expr _ e => e.isStructured
  | .stmt _ | .block _ => false

/-- Whether a part is a literal. -/
def Part.isLiteral : Part → Bool
  | .expr _ (.literal _) => true
  | _ => false

/-- A part as a piece, which it is unless it is a literal. -/
def Part.asPieces (p : Part) : List DraftPiece := if p.isLiteral then [] else [.part p]

@[simp] theorem Part.asPieces_stmt (s : Stmt) : (Part.stmt s).asPieces = [.part (.stmt s)] := rfl

@[simp] theorem Part.asPieces_block (b : Block) : (Part.block b).asPieces = [.part (.block b)] :=
  rfl

/-- The pieces of statements between fragments. -/
def Stmt.piecesBetween : List Stmt → List String → List DraftPiece
  | [], fragments => (fragments.take 1).map .fragment
  | s :: rest, fragments =>
    (fragments.take 1).map .fragment ++ .part (.stmt s) :: Stmt.piecesBetween rest fragments.tail

/-- The pieces of a part, in the order in which they are written. The update of a loop may stand
behind its body. -/
def Part.pieces (t : Target) : Part → List DraftPiece
  | .stmt (.loop init cond update body) =>
    [.part (.stmt init)] ++ (Part.operand cond).asPieces ++
      t.inLoop (Part.expr true update).asPieces [.part (.stmt body)]
  | .block b => Stmt.piecesBetween b.stmts b.fragments
  | p => p.parts.flatMap Part.asPieces

variable {t : Target} {m : Prop}

/-! ### Expressions -/

theorem Expr.assembles_part (inside isStatement : Bool) (e : Expr) :
    AssemblesWithin (DraftPiece.filling t inside m) (Part.expr isStatement e).asPieces
      (e.draft t inside isStatement) (e.bare.draft t inside isStatement) := by
  unfold Part.asPieces
  split
  next literal =>
    cases e with
    | literal => exact .text _
    | _ => cases literal
  next => exact .piece (.expr isStatement e)

/-- A literal is no piece. -/
theorem Expr.asPieces_of_text {isStatement : Bool} {e : Expr} (text : e.text?.isSome) :
    (Part.expr isStatement e).asPieces = [] := by
  cases e with
  | literal => rfl
  | _ => cases text

theorem Expr.asPieces_of_isNull {isStatement : Bool} {e : Expr} (null : e.isNull) :
    (Part.expr isStatement e).asPieces = [] := by
  cases e with
  | literal => rfl
  | _ => cases null

theorem Expr.assembles_drafts (inside : Bool) (es : List Expr) :
    Spread (AssemblesWithin (DraftPiece.filling t inside m))
      ((es.map Part.operand).flatMap Part.asPieces) (Expr.drafts t inside es)
      (Expr.drafts t inside (Expr.bareAll es)) := by
  rw [List.flatMap_map, Expr.bareAll_eq_map, Expr.drafts_eq, Expr.drafts_eq, List.map_map]
  exact spread_map es fun e => e.assembles_part inside false

theorem Expr.assembles_optionDraft (inside : Bool) (e : Option Expr) :
    Optional (AssemblesWithin (DraftPiece.filling t inside m))
      ((e.toList.map Part.operand).flatMap Part.asPieces)
      (Expr.optionDraft t inside e) (Expr.optionDraft t inside (Expr.bareOption e)) := by
  cases e with
  | none => exact .none
  | some e =>
    have part := e.assembles_part (t := t) (m := m) inside false
    simpa [Expr.optionDraft] using Optional.some part

/-- The receiver of a call, which is no part if it is `this`. -/
theorem Expr.assembles_receiver (inside : Bool) (receiver : Expr) :
    AssemblesWithin (DraftPiece.filling t inside m) (receiver.receiverParts.flatMap Part.asPieces)
      (receiver.draft t inside false) (receiver.bare.draft t inside false) := by
  unfold receiverParts
  split
  next this =>
    cases receiver with
    | this => exact .text _
    | _ => cases this
  next => simpa using receiver.assembles_part inside false

theorem Expr.receiverParts_of_isThis {receiver : Expr} (this : receiver.isThis) :
    receiver.receiverParts.flatMap Part.asPieces = [] := by
  rw [receiverParts, if_pos this, List.flatMap_nil]

theorem Member.assembles_drafts (inside : Bool) (members : List Member) :
    Spread (AssemblesNamed (DraftPiece.filling t inside m))
      (((members.flatMap Member.values).map Part.operand).flatMap Part.asPieces)
      (Member.drafts t inside members) (Member.drafts t inside (Member.bareAll members)) := by
  induction members with
  | nil => exact .nil
  | cons member rest ih =>
    rw [List.flatMap_cons, List.map_append, List.flatMap_append]
    refine .cons ?_ ih
    cases member with
    | single name value =>
      refine .mk name ?_
      simpa [Member.values, Member.draft] using value.assembles_part inside false
    | sequence name values =>
      exact .mk name (assembles_listLiteral (Expr.assembles_drafts inside values))

theorem LambdaBody.assembles_draft (inside isStatement : Bool) (body : LambdaBody) :
    BodyDraft.Assembles (DraftPiece.filling t inside m) (body.part isStatement).asPieces
      (body.draft t inside isStatement) (body.bare.draft t inside isStatement) := by
  cases body with
  | expr body => exact .expr (body.assembles_part inside isStatement)
  | block body => exact .lines (.piece (.block body))

theorem Stmt.assembles_optionDraft (inside : Bool) (s : Option Stmt) :
    Optional (AssemblesLines (DraftPiece.filling t inside m))
      ((s.toList.map Part.stmt).flatMap Part.asPieces)
      (Stmt.optionDraft t inside s) (Stmt.optionDraft t inside (Stmt.bareOption s)) := by
  cases s with
  | none => exact .none
  | some s => exact .some (.piece (.stmt .body s))

/-- The branches of a callback that are kept apart are its pieces, and its body is none then. -/
theorem AsyncHandler.assembles_draft (inside : Bool) (handler : AsyncHandler) :
    AssemblesWithin (DraftPiece.filling t inside m) (handler.parts.flatMap Part.asPieces)
      (handler.draft t inside) (handler.bare.draft t inside) := by
  obtain ⟨name, paramType, resultType, body, succeeded, failed⟩ := handler
  have split (op : AsyncOp) (branch : Stmt) (otherwise : Option Stmt) :
      AssemblesWithin (DraftPiece.filling t inside m)
        ((Part.stmt branch).asPieces ++ (otherwise.toList.map Part.stmt).flatMap Part.asPieces)
        (t.lambda (t.handlerParams name) (.lines (t.conditionals
          [(t.asyncCall name op, branch.draft t inside .body)]
          (Stmt.optionDraft t inside otherwise) ++ "\n")))
        (t.lambda (t.handlerParams name) (.lines (t.conditionals
          [(t.asyncCall name op, branch.bare.draft t inside .body)]
          (Stmt.optionDraft t inside (Stmt.bareOption otherwise)) ++ "\n"))) := by
    have asked : AssemblesBranch (DraftPiece.filling t inside m) (Part.stmt branch).asPieces
        (.text (t.asyncCall name op), branch.draft t inside .body)
        (.text (t.asyncCall name op), branch.bare.draft t inside .body) :=
      .mk (.text _) (.piece (.stmt .body branch))
    have chain := assembles_conditionals (t := t) (.cons asked .nil)
      (Stmt.assembles_optionDraft inside otherwise)
    rw [List.append_nil] at chain
    exact assembles_lambda _ (.lines (AssemblesWithin.lines rfl chain))
  cases succeeded with
  | some success =>
    simpa [AsyncHandler.draft, AsyncHandler.parts, AsyncHandler.isSplit, Stmt.optionDraft] using
      split .succeeded success failed
  | none =>
    cases failed with
    | some failure =>
      simpa [AsyncHandler.draft, AsyncHandler.parts, AsyncHandler.isSplit, Stmt.optionDraft] using
        split .failed failure none
    | none =>
      simpa [AsyncHandler.draft, AsyncHandler.parts, AsyncHandler.isSplit, Stmt.optionDraft] using
        assembles_lambda _ (body.assembles_draft inside false)

theorem Access.assembles_draft (inside : Bool) (access : Access) :
    AssemblesWithin (DraftPiece.filling t inside m) (access.parts.flatMap Part.asPieces)
      (access.draft t inside) (access.bare.draft t inside) := by
  have operand (e : Expr) := e.assembles_part (t := t) (m := m) inside false
  cases access with
  | jsonObjectGet object key =>
    have get := assembles_jsonObjectGet (t := t) (operand object) (operand key)
      (Expr.asPieces_of_text (e := key))
    simpa [Access.draft, Access.parts, key.text?_bare] using get
  | jsonObjectPut object key value =>
    have put := assembles_jsonObjectPut (t := t) (operand object) (operand key) (operand value)
      (Expr.asPieces_of_text (e := key)) (Expr.asPieces_of_isNull (e := value))
    simpa [Access.draft, Access.parts, key.text?_bare, value.isNull_bare] using put
  | jsonObjectEncode object =>
    simpa [Access.draft, Access.parts] using assembles_jsonEncode (operand object)
  | jsonArrayGet array index =>
    simpa [Access.draft, Access.parts] using assembles_jsonArrayGet (operand array) (operand index)
  | jsonArrayAdd array value =>
    have add := assembles_jsonArrayAdd (t := t) (operand array) (operand value)
      (Expr.asPieces_of_isNull (e := value))
    simpa [Access.draft, Access.parts, value.isNull_bare] using add
  | jsonArraySize array =>
    simpa [Access.draft, Access.parts] using assembles_jsonArraySize (operand array)
  | jsonArrayEncode array =>
    simpa [Access.draft, Access.parts] using assembles_jsonEncode (operand array)
  | dataObjectGet object name =>
    simpa [Access.draft, Access.parts] using assembles_property name (operand object)
  | dataObjectSet object name value =>
    simpa [Access.draft, Access.parts] using
      assembles_assignment (assembles_property name (operand object)) (operand value)
  | mapGet map key =>
    simpa [Access.draft, Access.parts] using assembles_element (operand map) (operand key)
  | mapPut map key value =>
    simpa [Access.draft, Access.parts] using
      assembles_assignment (assembles_element (operand map) (operand key)) (operand value)
  | mapForEach map keyName valueName body =>
    simpa [Access.draft, Access.parts] using
      assembles_mapForEach keyName valueName (operand map) (body.assembles_draft inside true)
  | listGet list index =>
    simpa [Access.draft, Access.parts] using assembles_element (operand list) (operand index)
  | listAdd list value =>
    simpa [Access.draft, Access.parts] using assembles_listAdd (operand list) (operand value)
  | listSize list =>
    simpa [Access.draft, Access.parts] using assembles_listSize (operand list)

/-- An expression that is no structured literal is assembled from its pieces, which stand where it
stands. -/
theorem Expr.assembles_of_plain (inside isStatement : Bool) {e : Expr}
    (plain : e.isStructured = false) :
    AssemblesWithin (DraftPiece.filling t inside m) ((Part.expr isStatement e).pieces t)
      (e.draft t inside isStatement) (e.bare.draft t inside isStatement) := by
  have operand (e : Expr) := e.assembles_part (t := t) (m := m) inside false
  cases e with
  | identifier name scope => exact .text _
  | this => exact .text _
  | literal value => exact .text _
  | concat es =>
    have parts : Spread (fun is p p' =>
          AssemblesNamed (DraftPiece.filling t inside m) is p p' ∧ (p.1.isSome → is = []))
        ((es.map Part.operand).flatMap Part.asPieces)
        ((es.map Expr.text?).zip (Expr.drafts t inside es))
        (((Expr.bareAll es).map Expr.text?).zip (Expr.drafts t inside (Expr.bareAll es))) := by
      rw [List.flatMap_map, Expr.bareAll_eq_map, Expr.drafts_eq, Expr.drafts_eq, List.zip_map',
        List.zip_map', List.map_map]
      refine spread_map es fun e => ⟨?_, Expr.asPieces_of_text⟩
      simpa [e.text?_bare] using AssemblesNamed.mk e.text? (operand e)
    exact assembles_concatenation parts
  | parenthesized inner =>
    simpa [Expr.draft, Part.pieces, Part.parts, Expr.parts] using
      assembles_parenthesized (operand inner)
  | binary op lhs rhs =>
    simpa [Expr.draft, Part.pieces, Part.parts, Expr.parts] using
      assembles_binary op (operand lhs) (operand rhs)
  | unary op e =>
    -- how a negation is spelled depends on whether a callback's outcome is asked for
    have check : isAsyncCheck e.bare = isAsyncCheck e := by
      unfold isAsyncCheck
      rw [e.untyped_bare]
      cases e.untyped <;> rfl
    simpa [Expr.draft, Part.pieces, Part.parts, Expr.parts, check] using
      assembles_unary isStatement (isAsyncCheck e) op (operand e)
  | conditional cond yes no =>
    simpa [Expr.draft, Part.pieces, Part.parts, Expr.parts] using
      assembles_conditional (operand cond) (operand yes) (operand no)
  | assign target value =>
    simpa [Expr.draft, Part.pieces, Part.parts, Expr.parts] using
      assembles_assignment (operand target) (operand value)
  | field receiver name =>
    simpa [Expr.draft, Part.pieces, Part.parts, Expr.parts] using
      assembles_fieldAccess name (operand receiver)
  | invocation receiver site =>
    obtain ⟨receiverType, method, returnType, args, argTypes⟩ := site
    have call := assembles_invocation (t := t) method.name
      (receiver.assembles_receiver (t := t) (m := m) inside) Expr.receiverParts_of_isThis
      (Expr.assembles_drafts inside args)
    simpa [Expr.draft, Part.pieces, Part.parts, Expr.parts, receiver.isThis_bare,
      CallSite.argDrafts] using call
  | construct cls args => exact assembles_construction cls (Expr.assembles_drafts inside args)
  | instanceOf e cls =>
    simpa [Expr.draft, Part.pieces, Part.parts, Expr.parts] using
      assembles_instanceTest cls (operand e)
  | lambda function =>
    obtain ⟨paramNames, paramTypes, body⟩ := function
    simpa [Expr.draft, Part.pieces, Part.parts, Expr.parts] using
      assembles_lambda paramNames (body.assembles_draft inside false)
  | asyncHandler handler => exact handler.assembles_draft inside
  | methodReference receiver method =>
    have reference := assembles_methodReference (t := t) method.name method.params.length
      (receiver.assembles_receiver (t := t) (m := m) inside) Expr.receiverParts_of_isThis
    simpa [Expr.draft, Part.pieces, Part.parts, Expr.parts, receiver.isThis_bare] using reference
  | cls cls => exact .text _
  | jsonObject | jsonArray => cases plain
  | dataObject type members =>
    exact assembles_dataObject type (Member.assembles_drafts inside members)
  | list values => exact assembles_listLiteral (Expr.assembles_drafts inside values)
  | newMap => exact .text _
  | newList => exact .text _
  | throwable type reason =>
    exact assembles_throwable type (Expr.assembles_optionDraft inside reason)
  | enumConstant type constant => exact .text _
  | console stream => exact .fail _
  | consolePrint stream arg =>
    simpa [Expr.draft, Part.pieces, Part.parts, Expr.parts] using
      assembles_consolePrint stream (operand arg)
  | asyncResult name resultType => exact .text _
  | asyncCall name resultType op => exact .text _
  | typed value kind =>
    simpa [Expr.draft, Part.pieces, Part.parts, Expr.parts] using operand value
  | access access => exact access.assembles_draft inside

/-- A structured literal is assembled from its pieces, which stand inside it. -/
theorem Expr.assembles_of_structured (marked : m) (inside isStatement : Bool) {e : Expr}
    (structured : e.isStructured) :
    AssemblesWithin (DraftPiece.filling t true m) ((Part.expr isStatement e).pieces t)
      (e.draft t inside isStatement) (e.bare.draft t inside isStatement) := by
  cases e with
  | jsonObject members =>
    exact assembles_jsonObject marked inside (Member.assembles_drafts true members)
  | jsonArray values =>
    exact assembles_jsonArray marked inside (Expr.assembles_drafts true values)
  | _ => cases structured

/-- An expression is assembled from its pieces. -/
theorem Expr.assembles_draft (inside isStatement : Bool) (e : Expr) :
    AssemblesWithin (DraftPiece.anyFilling t) ((Part.expr isStatement e).pieces t)
      (e.draft t inside isStatement) (e.bare.draft t inside isStatement) := by
  by_cases structured : e.isStructured
  · exact DraftPiece.assembles_any (Expr.assembles_of_structured trivial inside _ structured)
  · have plain : e.isStructured = false := Bool.eq_false_iff.2 structured
    exact DraftPiece.assembles_any (Expr.assembles_of_plain (m := True) inside _ plain)

/-! ### Statements -/

theorem Position.assembles_finish {inside : Bool} {is : List DraftPiece} {d d' : Draft}
    (position : Position) (terminator : String)
    (h : AssemblesWithin (DraftPiece.filling t inside m) is d d') :
    Assembles (DraftPiece.filling t inside m) position.place position.place is
      (position.finish terminator d) (position.finish terminator d') := by
  cases position with
  | part => exact h
  | line | body => exact AssemblesWithin.lines rfl (h.append_text terminator)

theorem Branch.assembles_drafts (inside : Bool) (branches : List Branch) :
    Spread (AssemblesBranch (DraftPiece.filling t inside m))
      ((branches.flatMap fun branch => [.operand branch.cond, .stmt branch.body]).flatMap
        Part.asPieces)
      (Branch.drafts t inside branches) (Branch.drafts t inside (Branch.bareAll branches)) := by
  induction branches with
  | nil => exact .nil
  | cons branch rest ih =>
    obtain ⟨cond, body⟩ := branch
    rw [List.flatMap_cons, List.flatMap_append]
    refine .cons ?_ ih
    exact .mk (cond.assembles_part inside false) (.piece (.stmt .body body))

/-- A statement is assembled from its pieces. -/
theorem Stmt.assembles_draft (inside : Bool) (position : Position) (s : Stmt) :
    Assembles (DraftPiece.filling t inside m) position.place position.place ((Part.stmt s).pieces t)
      (s.draft t inside position) (s.bare.draft t inside position) := by
  have operand (e : Expr) := e.assembles_part (t := t) (m := m) inside false
  have body (s : Stmt) : AssemblesLines (DraftPiece.filling t inside m) [.part (.stmt s)]
      (s.draft t inside .body) (s.bare.draft t inside .body) :=
    .piece (.stmt .body s)
  cases s with
  | «return» value =>
    exact position.assembles_finish _
      (assembles_returnValue (Expr.assembles_optionDraft inside value))
  | assign target value =>
    have assignment := assembles_assignment (operand target) (operand value)
    simpa [Stmt.draft, Part.pieces, Part.parts, Stmt.parts] using
      position.assembles_finish t.terminator assignment
  | varDecl scope type name init =>
    exact position.assembles_finish _
      (assembles_varDecl scope type name (Expr.assembles_optionDraft inside init))
  | conditionals branches otherwise =>
    have chain := assembles_conditionals (t := t)
      (Branch.assembles_drafts (t := t) (m := m) inside branches)
      (Stmt.assembles_optionDraft inside otherwise)
    rw [← List.flatMap_append] at chain
    exact position.assembles_finish "" chain
  | tryCatch s param handler =>
    exact position.assembles_finish "" (assembles_tryCatch param (body s) (body handler))
  | throw type reason =>
    exact position.assembles_finish _
      (assembles_throw type (Expr.assembles_optionDraft inside reason))
  | block b =>
    have lines : AssemblesLines (DraftPiece.filling t inside m) [.part (.block b)]
        (b.draft t inside) (b.bare.draft t inside) :=
      .piece (.block b)
    cases position with
    | part => exact assembles_nestedBlock lines
    | line => exact Position.assembles_finish .line "" (assembles_nestedBlock lines)
    | body => exact lines
  | loop init cond update s =>
    have begun : AssemblesWithin (DraftPiece.filling t inside m) [.part (.stmt init)]
        (init.draft t inside .part) (init.bare.draft t inside .part) :=
      .piece (.stmt .part init)
    exact position.assembles_finish "" (assembles_loop begun (operand cond)
      (update.assembles_part inside true) (body s))
  | sequenceFor id start stop s =>
    have loop := assembles_sequenceFor (t := t) id (operand start) (operand stop) (body s)
    simpa [Stmt.draft, Part.pieces, Part.parts, Stmt.parts] using
      position.assembles_finish "" loop
  | forEach element type iterable s =>
    have loop := assembles_forEach (t := t) element (operand iterable) (body s)
    simpa [Stmt.draft, Part.pieces, Part.parts, Stmt.parts] using
      position.assembles_finish "" loop
  | expr e =>
    have statement := e.assembles_part (t := t) (m := m) inside true
    simpa [Stmt.draft, Part.pieces, Part.parts, Stmt.parts] using
      position.assembles_finish t.terminator statement

/-- A fragment stands before each statement, where the line of the one before has ended. -/
theorem Stmt.assembles_drafts (inside : Bool) (stmts : List Stmt) (fragments : List String) :
    AssemblesLines (DraftPiece.filling t inside m) (Stmt.piecesBetween stmts fragments)
      (Stmt.drafts t inside stmts fragments) (Stmt.drafts t inside (Stmt.bareAll stmts) []) := by
  have leading (fragments : List String) :
      AssemblesLines (DraftPiece.filling t inside m) ((fragments.take 1).map .fragment)
        (Stmt.drafts.leadingFragment t fragments) .empty := by
    cases fragments with
    | nil => exact .empty
    | cons fragment rest => exact .piece (.fragment fragment)
  induction stmts generalizing fragments with
  | nil => exact leading fragments
  | cons s rest ih =>
    have statement : AssemblesLines (DraftPiece.filling t inside m) [.part (.stmt s)]
        (s.draft t inside .line) (s.bare.draft t inside .line) :=
      .piece (.stmt .line s)
    have together := ((leading fragments).append statement).append (ih fragments.tail)
    rwa [List.append_assoc] at together

/-- One step: whatever a part is filled in with is assembled from its pieces. -/
theorem Part.assembles {p : Part} {a : Place} {d d' : Draft}
    (filled : DraftPiece.Fills t (.part p) a d d') :
    Assembles (DraftPiece.anyFilling t) a a (p.pieces t) d d' := by
  cases filled with
  | expr inside isStatement e => exact e.assembles_draft inside isStatement
  | stmt inside position s =>
    exact DraftPiece.assembles_any (s.assembles_draft (m := True) inside position)
  | block inside b =>
    obtain ⟨stmts, fragments⟩ := b
    exact DraftPiece.assembles_any
      (Stmt.assembles_drafts (m := True) inside stmts fragments)

/-- One step at a known place: what is no structured literal is assembled from pieces at that
place, with nothing between them that marks where a literal begins or ends. -/
theorem Part.assembles_of_plain {inside : Bool} {p : Part} {a : Place} {d d' : Draft}
    (filled : DraftPiece.FillsAt t inside (.part p) a d d') (plain : p.isStructured = false) :
    Assembles (DraftPiece.filling t inside m) a a (p.pieces t) d d' := by
  cases filled with
  | expr isStatement e => exact Expr.assembles_of_plain inside isStatement plain
  | stmt position s => exact s.assembles_draft inside position
  | block b =>
    obtain ⟨stmts, fragments⟩ := b
    exact Stmt.assembles_drafts inside stmts fragments

/-! ### Programs -/

/-- A field, with the end of its line. -/
theorem Field.assembles_draft (inside : Bool) (field : Field) :
    Assembles (DraftPiece.filling t inside m) .between .between
      ((field.init.toList.map Part.operand).flatMap Part.asPieces)
      ((Item.field field).draft t inside ++ t.terminator ++ "\n")
      ((Item.field field.bare).draft t inside ++ t.terminator ++ "\n") := by
  have declaration := assembles_varDecl (t := t) .field field.type field.name
    (Expr.assembles_optionDraft (t := t) (m := m) inside field.init)
  exact .part (declaration.append_text t.terminator).starting

/-- A method, behind an empty line. -/
theorem Method.assembles_draft (inside : Bool) (method : Method) :
    Assembles (DraftPiece.filling t inside m) .between .between [.part (.block method.body)]
      (Draft.mark .gap ++ (Item.method method).draft t inside ++ "\n")
      (Draft.mark .gap ++ (Item.method method.bare).draft t inside ++ "\n") := by
  have body : AssemblesLines (DraftPiece.filling t inside m) [.part (.block method.body)]
      (method.body.draft t inside) (method.body.bare.draft t inside) :=
    .piece (.block method.body)
  have definition := assembles_method (t := t) method.signature method.paramNames body
  exact .part (Assembles.gap.append definition.starting)

/-- The body of the entry method, of which nothing is written if it has no statements. -/
theorem Block.assembles_entry (inside : Bool) (entry : Block) :
    Assembles (DraftPiece.filling t inside m) .between .anywhere
      ((if entry.stmts.isEmpty then [] else [.block entry]).flatMap Part.asPieces)
      (if entry.stmts.isEmpty then Draft.empty else Draft.mark .gap ++ entry.draft t inside)
      (if entry.bare.stmts.isEmpty then Draft.empty
        else Draft.mark .gap ++ entry.bare.draft t inside) := by
  have lines : AssemblesLines (DraftPiece.filling t inside m) [.part (.block entry)]
      (entry.draft t inside) (entry.bare.draft t inside) :=
    .piece (.block entry)
  obtain ⟨stmts, fragments⟩ := entry
  -- whether there is anything to write depends on the statements, never on the fragments
  cases stmts with
  | nil => exact Assembles.empty.ending
  | cons s rest => exact Assembles.gap.append lines.ending

/-- The pieces of a program: its parts, but for literals. -/
def Unit.pieces (unit : Unit) : List DraftPiece := unit.parts.flatMap Part.asPieces

/-- The draft of a program whose parts are drafted inside a structured literal or outside. -/
def Unit.draftAt (t : Target) (inside : Bool) (unit : Unit) : Draft :=
  Draft.concat (unit.fields.map fun field =>
      (Item.field field).draft t inside ++ t.terminator ++ "\n") ++
    Draft.concat (unit.methods.map fun method =>
      Draft.mark .gap ++ (Item.method method).draft t inside ++ "\n") ++
    (if unit.entry.stmts.isEmpty then Draft.empty
      else Draft.mark .gap ++ unit.entry.draft t inside)

theorem Unit.assembles_draftAt (inside : Bool) (unit : Unit) :
    Assembles (DraftPiece.filling t inside m) .between .anywhere unit.pieces
      (unit.draftAt t inside) (unit.bare.draftAt t inside) := by
  have fields : Assembles (DraftPiece.filling t inside m) .between .between
      (unit.fields.flatMap fun field =>
        (field.init.toList.map Part.operand).flatMap Part.asPieces)
      (Draft.concat (unit.fields.map fun field =>
        (Item.field field).draft t inside ++ t.terminator ++ "\n"))
      (Draft.concat (unit.bare.fields.map fun field =>
        (Item.field field).draft t inside ++ t.terminator ++ "\n")) := by
    rw [Unit.bare, List.map_map]
    exact .concat (spread_map _ (Field.assembles_draft inside))
  have methods : Assembles (DraftPiece.filling t inside m) .between .between
      (unit.methods.flatMap fun method => [.part (.block method.body)])
      (Draft.concat (unit.methods.map fun method =>
        Draft.mark .gap ++ (Item.method method).draft t inside ++ "\n"))
      (Draft.concat (unit.bare.methods.map fun method =>
        Draft.mark .gap ++ (Item.method method).draft t inside ++ "\n")) := by
    rw [Unit.bare, List.map_map]
    exact .concat (spread_map _ (Method.assembles_draft inside))
  have together := (fields.append methods).append (unit.entry.assembles_entry inside)
  rw [Unit.pieces, Unit.parts, List.flatMap_append, List.flatMap_append, ← List.append_assoc,
    List.flatMap_assoc, List.flatMap_map]
  exact together

/-- A program is assembled from its pieces. -/
theorem Unit.assembles_draft (unit : Unit) :
    Assembles (DraftPiece.anyFilling t) .between .anywhere unit.pieces (unit.draft t)
      (unit.bare.draft t) :=
  DraftPiece.assembles_any (unit.assembles_draftAt (m := True) false)

/-- So is a program for a writer that counts literals. -/
theorem Unit.assembles_counted (unit : Unit) :
    Assembles (DraftPiece.filling t true m) .between .anywhere unit.pieces
      (unit.counted t) (unit.bare.counted t) :=
  unit.assembles_draftAt true

/-! ### Pieces of pieces -/

theorem Part.mem_asPieces {p q : Part} :
    .part q ∈ p.asPieces ↔ q = p ∧ q.isLiteral = false := by
  unfold asPieces
  split
  next literal =>
    constructor
    · intro mem
      cases mem
    · rintro ⟨same, notLiteral⟩
      rw [same, literal] at notLiteral
      cases notLiteral
  next notLiteral =>
    rw [List.mem_singleton, DraftPiece.part.injEq]
    refine ⟨fun same => ⟨same, ?_⟩, And.left⟩
    rw [same]
    exact Bool.eq_false_iff.2 notLiteral

theorem Part.mem_flatMap_asPieces {parts : List Part} {q : Part} :
    .part q ∈ parts.flatMap Part.asPieces ↔ q ∈ parts ∧ q.isLiteral = false := by
  simp only [List.mem_flatMap, Part.mem_asPieces]
  constructor
  · rintro ⟨p, isPart, rfl, notLiteral⟩
    exact ⟨isPart, notLiteral⟩
  · rintro ⟨isPart, notLiteral⟩
    exact ⟨q, isPart, rfl, notLiteral⟩

theorem Stmt.part_mem_piecesBetween {stmts : List Stmt} {fragments : List String} {q : Part} :
    .part q ∈ Stmt.piecesBetween stmts fragments ↔ q ∈ stmts.map Part.stmt := by
  have notLeading (fragments : List String) :
      DraftPiece.part q ∉ (fragments.take 1).map .fragment := by
    intro mem
    obtain ⟨_, _, other⟩ := List.mem_map.1 mem
    cases other
  induction stmts generalizing fragments with
  | nil => exact ⟨fun mem => absurd mem (notLeading fragments), fun mem => nomatch mem⟩
  | cons s rest ih =>
    rw [Stmt.piecesBetween, List.mem_append, or_iff_right (notLeading fragments), List.mem_cons,
      DraftPiece.part.injEq, List.map_cons, List.mem_cons]
    exact or_congr_right ih

/-- The parts of a part are its pieces, but for those that are literals. -/
theorem Part.mem_pieces {p q : Part} :
    .part q ∈ p.pieces t ↔ q ∈ p.parts ∧ q.isLiteral = false := by
  cases p with
  | expr isStatement e => exact mem_flatMap_asPieces
  | stmt s =>
    cases s with
    | loop init cond update body =>
      -- the order of the pieces is the only difference, and it depends on the language
      refine Iff.trans ?_ mem_flatMap_asPieces
      cases t <;> simp [Part.pieces, Part.parts, Stmt.parts, inLoop] <;> tauto
    | _ => exact mem_flatMap_asPieces
  | block b =>
    obtain ⟨stmts, fragments⟩ := b
    refine Stmt.part_mem_piecesBetween.trans ⟨fun mem => ⟨mem, ?_⟩, And.left⟩
    obtain ⟨s, _, rfl⟩ := List.mem_map.1 mem
    rfl

end Polyscript.Model
