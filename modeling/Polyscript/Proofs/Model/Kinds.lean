import Polyscript.Model.Draft
import Polyscript.Proofs.Model.Making

/-!
# Models without kinds

A model and the same model with every kind left out: at any depth, a value with a kind is replaced
by the value. What is written of an expression depends on its form in a few places: nothing stands
before the name of a member of the enclosing instance, a text is a part of a template and can be
the name of a member, `null` is added in a way of its own, and a step by one is written otherwise
where it is a statement. A kind hides the form of the value that it is given to. So leaving the
kinds out changes nothing of what is written if none is given to a value of one of these forms.

## Main definitions

* `Expr.kindless` and its companions: the parts of a model without kinds.
* `Node.IsKinded`: a kind is given only to an expression that takes one.

## Main statements

* `Unit.every_kindless`: no kind is left in a model without kinds.
* `Unit.render_kindless`: if kinds are given only to what takes one, a model and the model without
  its kinds are written alike.
-/

namespace Polyscript.Model

mutual

/-- An expression without kinds. -/
def Expr.kindless : Expr → Expr
  | .identifier name scope => .identifier name scope
  | .this => .this
  | .literal value => .literal value
  | .concat parts => .concat (Expr.kindlessAll parts)
  | .parenthesized inner => .parenthesized inner.kindless
  | .binary op lhs rhs => .binary op lhs.kindless rhs.kindless
  | .unary op operand => .unary op operand.kindless
  | .conditional cond yes no => .conditional cond.kindless yes.kindless no.kindless
  | .assign target value => .assign target.kindless value.kindless
  | .field receiver name => .field receiver.kindless name
  | .invocation receiver site => .invocation receiver.kindless site.kindless
  | .construct cls args => .construct cls (Expr.kindlessAll args)
  | .instanceOf expr cls => .instanceOf expr.kindless cls
  | .lambda lambda => .lambda lambda.kindless
  | .asyncHandler handler => .asyncHandler handler.kindless
  | .methodReference receiver method => .methodReference receiver.kindless method
  | .cls cls => .cls cls
  | .jsonObject members => .jsonObject (Member.kindlessAll members)
  | .jsonArray values => .jsonArray (Expr.kindlessAll values)
  | .dataObject type members => .dataObject type (Member.kindlessAll members)
  | .list values => .list (Expr.kindlessAll values)
  | .newMap => .newMap
  | .newList => .newList
  | .throwable type reason => .throwable type (Expr.kindlessOption reason)
  | .enumConstant type constant => .enumConstant type constant
  | .console stream => .console stream
  | .consolePrint stream arg => .consolePrint stream arg.kindless
  | .asyncResult name resultType => .asyncResult name resultType
  | .asyncCall name resultType op => .asyncCall name resultType op
  | .typed value _ => value.kindless
  | .access access => .access access.kindless

/-- Expressions without kinds. -/
def Expr.kindlessAll : List Expr → List Expr
  | [] => []
  | expr :: rest => expr.kindless :: Expr.kindlessAll rest

/-- An expression that may be missing, without kinds. -/
def Expr.kindlessOption : Option Expr → Option Expr
  | none => none
  | some expr => some expr.kindless

/-- A call without kinds in its arguments. -/
def CallSite.kindless : CallSite → CallSite
  | ⟨receiverType, method, returnType, args, argTypes⟩ =>
    ⟨receiverType, method, returnType, Expr.kindlessAll args, argTypes⟩

/-- A member without kinds in its values. -/
def Member.kindless : Member → Member
  | .single name value => .single name value.kindless
  | .sequence name values => .sequence name (Expr.kindlessAll values)

/-- Members without kinds in their values. -/
def Member.kindlessAll : List Member → List Member
  | [] => []
  | member :: rest => member.kindless :: Member.kindlessAll rest

/-- An access without kinds. -/
def Access.kindless : Access → Access
  | .jsonObjectGet object key => .jsonObjectGet object.kindless key.kindless
  | .jsonObjectPut object key value =>
    .jsonObjectPut object.kindless key.kindless value.kindless
  | .jsonObjectEncode object => .jsonObjectEncode object.kindless
  | .jsonArrayGet array index => .jsonArrayGet array.kindless index.kindless
  | .jsonArrayAdd array value => .jsonArrayAdd array.kindless value.kindless
  | .jsonArraySize array => .jsonArraySize array.kindless
  | .jsonArrayEncode array => .jsonArrayEncode array.kindless
  | .dataObjectGet object name => .dataObjectGet object.kindless name
  | .dataObjectSet object name value => .dataObjectSet object.kindless name value.kindless
  | .mapGet map key => .mapGet map.kindless key.kindless
  | .mapPut map key value => .mapPut map.kindless key.kindless value.kindless
  | .mapForEach map keyName valueName body =>
    .mapForEach map.kindless keyName valueName body.kindless
  | .listGet list index => .listGet list.kindless index.kindless
  | .listAdd list value => .listAdd list.kindless value.kindless
  | .listSize list => .listSize list.kindless

/-- The body of a lambda without kinds. -/
def LambdaBody.kindless : LambdaBody → LambdaBody
  | .expr body => .expr body.kindless
  | .block body => .block body.kindless

/-- A lambda without kinds. -/
def Lambda.kindless : Lambda → Lambda
  | ⟨paramNames, paramTypes, body⟩ => ⟨paramNames, paramTypes, body.kindless⟩

/-- A callback without kinds, neither in its body nor in the branches that are kept apart. -/
def AsyncHandler.kindless : AsyncHandler → AsyncHandler
  | ⟨name, paramType, resultType, body, succeeded, failed⟩ =>
    ⟨name, paramType, resultType, body.kindless, Stmt.kindlessOption succeeded,
      Stmt.kindlessOption failed⟩

/-- A block without kinds; its fragments stay. -/
def Block.kindless : Block → Block
  | ⟨stmts, fragments⟩ => ⟨Stmt.kindlessAll stmts, fragments⟩

/-- Branches without kinds. -/
def Branch.kindlessAll : List Branch → List Branch
  | [] => []
  | ⟨cond, body⟩ :: rest => ⟨cond.kindless, body.kindless⟩ :: Branch.kindlessAll rest

/-- A statement without kinds. -/
def Stmt.kindless : Stmt → Stmt
  | .return value => .return (Expr.kindlessOption value)
  | .assign target value => .assign target.kindless value.kindless
  | .varDecl scope type name init => .varDecl scope type name (Expr.kindlessOption init)
  | .conditionals branches otherwise =>
    .conditionals (Branch.kindlessAll branches) (Stmt.kindlessOption otherwise)
  | .tryCatch body catchParam catchBody => .tryCatch body.kindless catchParam catchBody.kindless
  | .throw type reason => .throw type (Expr.kindlessOption reason)
  | .block block => .block block.kindless
  | .loop init cond update body =>
    .loop init.kindless cond.kindless update.kindless body.kindless
  | .sequenceFor id start stop body =>
    .sequenceFor id start.kindless stop.kindless body.kindless
  | .forEach element elementType iterable body =>
    .forEach element elementType iterable.kindless body.kindless
  | .expr expr => .expr expr.kindless

/-- Statements without kinds. -/
def Stmt.kindlessAll : List Stmt → List Stmt
  | [] => []
  | stmt :: rest => stmt.kindless :: Stmt.kindlessAll rest

/-- A statement that may be missing, without kinds. -/
def Stmt.kindlessOption : Option Stmt → Option Stmt
  | none => none
  | some stmt => some stmt.kindless

end

/-- A method without kinds. -/
def Method.kindless (method : Method) : Method := { method with body := method.body.kindless }

/-- A field without kinds. -/
def Field.kindless (field : Field) : Field :=
  { field with init := Expr.kindlessOption field.init }

/-- A program without kinds. -/
def Unit.kindless (unit : Unit) : Unit where
  name := unit.name
  fields := unit.fields.map Field.kindless
  methods := unit.methods.map Method.kindless
  entry := unit.entry.kindless

/-- Whether a node, if it is a value with a kind, is one that takes a kind. -/
def Node.IsKinded : Node → Prop
  | .expr (.typed value _) => value.takesKind
  | _ => True

/-- Whether a node is no value with a kind. -/
def Node.isKindless : Node → Bool
  | .expr (.typed ..) => false
  | _ => true

/-! ### No kind is left -/

mutual

/-- An expression without kinds has no value with a kind in it. -/
theorem Expr.every_kindless (e : Expr) : Every (·.isKindless) e.kindless.nodes := by
  cases e with
  | identifier | this | literal | cls | newMap | newList | enumConstant | console | asyncResult
  | asyncCall => exact every_cons.2 ⟨rfl, every_nil⟩
  | concat es | construct _ es | jsonArray es | list es =>
    exact every_cons.2 ⟨rfl, Expr.every_kindlessAll es⟩
  | parenthesized e | unary _ e | field e | instanceOf e | methodReference e
  | consolePrint _ e => exact every_cons.2 ⟨rfl, e.every_kindless⟩
  | binary _ e e' | assign e e' =>
    exact every_cons.2 ⟨rfl, every_append.2 ⟨e.every_kindless, e'.every_kindless⟩⟩
  | conditional cond yes no =>
    exact every_cons.2 ⟨rfl, every_append.2 ⟨cond.every_kindless,
      every_append.2 ⟨yes.every_kindless, no.every_kindless⟩⟩⟩
  | invocation receiver site =>
    obtain ⟨receiverType, method, returnType, args, argTypes⟩ := site
    exact every_cons.2 ⟨rfl, every_append.2 ⟨receiver.every_kindless,
      Expr.every_kindlessAll args⟩⟩
  | lambda lambda =>
    obtain ⟨paramNames, paramTypes, body⟩ := lambda
    exact every_cons.2 ⟨rfl, body.every_kindless⟩
  | asyncHandler handler => exact every_cons.2 ⟨rfl, handler.every_kindless⟩
  | jsonObject members | dataObject _ members =>
    exact every_cons.2 ⟨rfl, Member.every_kindlessAll members⟩
  | throwable type reason => exact every_cons.2 ⟨rfl, Expr.every_kindlessOption reason⟩
  | typed value kind =>
    rw [Expr.kindless]
    exact value.every_kindless
  | access access => exact every_cons.2 ⟨rfl, access.every_kindless⟩

theorem Expr.every_kindlessAll (es : List Expr) :
    Every (·.isKindless) (Expr.nodesAll (Expr.kindlessAll es)) := by
  cases es with
  | nil => exact every_nil
  | cons e rest => exact every_append.2 ⟨e.every_kindless, Expr.every_kindlessAll rest⟩

theorem Expr.every_kindlessOption (e : Option Expr) :
    Every (·.isKindless) (Expr.nodesOption (Expr.kindlessOption e)) := by
  cases e with
  | none => exact every_nil
  | some e => exact e.every_kindless

theorem Member.every_kindlessAll (members : List Member) :
    Every (·.isKindless) (Member.nodesAll (Member.kindlessAll members)) := by
  cases members with
  | nil => exact every_nil
  | cons member rest =>
    refine every_append.2 ⟨?_, Member.every_kindlessAll rest⟩
    cases member with
    | single name value => exact value.every_kindless
    | sequence name values => exact Expr.every_kindlessAll values

theorem Access.every_kindless (access : Access) :
    Every (·.isKindless) access.kindless.nodes := by
  cases access with
  | jsonObjectEncode e | jsonArraySize e | jsonArrayEncode e | dataObjectGet e | listSize e =>
    exact e.every_kindless
  | jsonObjectGet e e' | jsonArrayGet e e' | jsonArrayAdd e e' | dataObjectSet e _ e'
  | mapGet e e' | listGet e e' | listAdd e e' =>
    exact every_append.2 ⟨e.every_kindless, e'.every_kindless⟩
  | jsonObjectPut e key value | mapPut e key value =>
    exact every_append.2 ⟨e.every_kindless,
      every_append.2 ⟨key.every_kindless, value.every_kindless⟩⟩
  | mapForEach map keyName valueName body =>
    exact every_append.2 ⟨map.every_kindless, body.every_kindless⟩

theorem LambdaBody.every_kindless (body : LambdaBody) :
    Every (·.isKindless) body.kindless.nodes := by
  cases body with
  | expr body => exact body.every_kindless
  | block body => exact body.every_kindless

theorem AsyncHandler.every_kindless (handler : AsyncHandler) :
    Every (·.isKindless) handler.kindless.nodes := by
  obtain ⟨name, paramType, resultType, body, succeeded, failed⟩ := handler
  exact every_append.2 ⟨body.every_kindless, every_append.2 ⟨Stmt.every_kindlessOption succeeded,
    Stmt.every_kindlessOption failed⟩⟩

theorem Block.every_kindless (block : Block) : Every (·.isKindless) block.kindless.nodes := by
  obtain ⟨stmts, fragments⟩ := block
  exact every_cons.2 ⟨rfl, Stmt.every_kindlessAll stmts⟩

theorem Branch.every_kindlessAll (branches : List Branch) :
    Every (·.isKindless) (Branch.nodesAll (Branch.kindlessAll branches)) := by
  cases branches with
  | nil => exact every_nil
  | cons branch rest =>
    obtain ⟨cond, body⟩ := branch
    exact every_append.2 ⟨cond.every_kindless,
      every_append.2 ⟨body.every_kindless, Branch.every_kindlessAll rest⟩⟩

/-- A statement without kinds has no value with a kind in it. -/
theorem Stmt.every_kindless (stmt : Stmt) : Every (·.isKindless) stmt.kindless.nodes := by
  cases stmt with
  | «return» e | varDecl _ _ _ e | throw _ e =>
    exact every_cons.2 ⟨rfl, Expr.every_kindlessOption e⟩
  | assign e e' =>
    exact every_cons.2 ⟨rfl, every_append.2 ⟨e.every_kindless, e'.every_kindless⟩⟩
  | conditionals branches otherwise =>
    exact every_cons.2 ⟨rfl, every_append.2 ⟨Branch.every_kindlessAll branches,
      Stmt.every_kindlessOption otherwise⟩⟩
  | tryCatch body catchParam catchBody =>
    exact every_cons.2 ⟨rfl, every_append.2 ⟨body.every_kindless, catchBody.every_kindless⟩⟩
  | block block => exact every_cons.2 ⟨rfl, block.every_kindless⟩
  | loop init cond update body =>
    exact every_cons.2 ⟨rfl, every_append.2 ⟨init.every_kindless,
      every_append.2 ⟨cond.every_kindless,
        every_append.2 ⟨update.every_kindless, body.every_kindless⟩⟩⟩⟩
  | sequenceFor id start stop body =>
    exact every_cons.2 ⟨rfl, every_append.2 ⟨start.every_kindless,
      every_append.2 ⟨stop.every_kindless, body.every_kindless⟩⟩⟩
  | forEach element elementType iterable body =>
    exact every_cons.2 ⟨rfl, every_append.2 ⟨iterable.every_kindless, body.every_kindless⟩⟩
  | expr e => exact every_cons.2 ⟨rfl, e.every_kindless⟩

theorem Stmt.every_kindlessAll (stmts : List Stmt) :
    Every (·.isKindless) (Stmt.nodesAll (Stmt.kindlessAll stmts)) := by
  cases stmts with
  | nil => exact every_nil
  | cons stmt rest => exact every_append.2 ⟨stmt.every_kindless, Stmt.every_kindlessAll rest⟩

theorem Stmt.every_kindlessOption (stmt : Option Stmt) :
    Every (·.isKindless) (Stmt.nodesOption (Stmt.kindlessOption stmt)) := by
  cases stmt with
  | none => exact every_nil
  | some stmt => exact stmt.every_kindless

end

/-! ### Forms that are written in a way of their own -/

namespace Expr

/-- What takes a kind is written alike wherever it stands: no step by one takes a kind. -/
theorem draft_of_takesKind {e : Expr} (takesKind : e.takesKind) (t : Target)
    (insideJson isStatement : Bool) :
    e.draft t insideJson isStatement = e.draft t insideJson false := by
  cases e with
  | identifier | field | invocation | parenthesized | conditional | asyncCall | access
  | jsonObject | jsonArray | dataObject => simp only [draft]
  | _ => cases takesKind

theorem takesKind_kindless {e : Expr} (takesKind : e.takesKind) : e.kindless.takesKind := by
  cases e with
  | identifier | field | invocation | parenthesized | conditional | asyncCall | access
  | jsonObject | jsonArray | dataObject => simp only [kindless]
  | _ => cases takesKind

/-- What takes a kind is neither a text nor `null` nor the enclosing instance. -/
theorem form_of_takesKind {e : Expr} (takesKind : e.takesKind) :
    e.text? = none ∧ e.isNull = false ∧ e.isThis = false := by
  cases e with
  | literal | this => cases takesKind
  | _ => exact ⟨rfl, rfl, rfl⟩

section Forms

variable {e : Expr} (kinded : Every Node.IsKinded e.nodes)
include kinded

/-- A value with a kind takes one, so without its kind it is of no form that the kind hides. -/
theorem form_kindless :
    e.kindless.text? = e.text? ∧ e.kindless.isNull = e.isNull ∧ e.kindless.isThis = e.isThis := by
  cases e with
  | typed value kind =>
    have takesKind : value.takesKind := (every_cons.1 kinded).1
    rw [kindless]
    exact form_of_takesKind (takesKind_kindless takesKind)
  | _ => exact ⟨rfl, rfl, rfl⟩

theorem text?_kindless : e.kindless.text? = e.text? := (form_kindless kinded).1

theorem isNull_kindless : e.kindless.isNull = e.isNull := (form_kindless kinded).2.1

theorem isThis_kindless : e.kindless.isThis = e.isThis := (form_kindless kinded).2.2

end Forms

/-- A check of an asynchronous result is one whatever kinds are given to it. -/
theorem isAsyncCheck_kindless (e : Expr) :
    Target.isAsyncCheck e.kindless = Target.isAsyncCheck e := by
  cases e with
  | typed value kind => exact isAsyncCheck_kindless value
  | _ => rfl

end Expr

/-! ### Drafts -/

mutual

/-- An expression is drafted alike without its kinds. -/
theorem Expr.draft_kindless (t : Target) (insideJson isStatement : Bool) (e : Expr)
    (kinded : Every Node.IsKinded e.nodes) :
    e.kindless.draft t insideJson isStatement = e.draft t insideJson isStatement := by
  cases e with
  | identifier | this | literal | cls | newMap | newList | enumConstant | console | asyncResult
  | asyncCall => rfl
  | concat parts =>
    have inner := (every_cons.1 kinded).2
    simp only [Expr.kindless, Expr.draft, Expr.texts_kindless parts inner,
      Expr.drafts_kindless t insideJson parts inner]
  | parenthesized inner =>
    simp only [Expr.kindless, Expr.draft, inner.draft_kindless t _ _ (every_cons.1 kinded).2]
  | binary op lhs rhs =>
    obtain ⟨left, right⟩ := every_append.1 (every_cons.1 kinded).2
    simp only [Expr.kindless, Expr.draft, lhs.draft_kindless t _ _ left,
      rhs.draft_kindless t _ _ right]
  | unary op operand =>
    simp only [Expr.kindless, Expr.draft, operand.isAsyncCheck_kindless,
      operand.draft_kindless t _ _ (every_cons.1 kinded).2]
  | conditional cond yes no =>
    obtain ⟨ofCond, branches⟩ := every_append.1 (every_cons.1 kinded).2
    obtain ⟨ofYes, ofNo⟩ := every_append.1 branches
    simp only [Expr.kindless, Expr.draft, cond.draft_kindless t _ _ ofCond,
      yes.draft_kindless t _ _ ofYes, no.draft_kindless t _ _ ofNo]
  | assign target value =>
    obtain ⟨left, right⟩ := every_append.1 (every_cons.1 kinded).2
    simp only [Expr.kindless, Expr.draft, target.draft_kindless t _ _ left,
      value.draft_kindless t _ _ right]
  | field receiver name =>
    simp only [Expr.kindless, Expr.draft, receiver.draft_kindless t _ _ (every_cons.1 kinded).2]
  | invocation receiver site =>
    obtain ⟨receiverType, method, returnType, args, argTypes⟩ := site
    obtain ⟨ofReceiver, ofArgs⟩ := every_append.1 (every_cons.1 kinded).2
    simp only [Expr.kindless, CallSite.kindless, Expr.draft, CallSite.argDrafts,
      receiver.isThis_kindless ofReceiver, receiver.draft_kindless t _ _ ofReceiver,
      Expr.drafts_kindless t _ args ofArgs]
  | construct cls args =>
    simp only [Expr.kindless, Expr.draft, Expr.drafts_kindless t _ args (every_cons.1 kinded).2]
  | instanceOf expr cls =>
    simp only [Expr.kindless, Expr.draft, expr.draft_kindless t _ _ (every_cons.1 kinded).2]
  | lambda lambda =>
    obtain ⟨paramNames, paramTypes, body⟩ := lambda
    simp only [Expr.kindless, Lambda.kindless, Expr.draft,
      body.draft_kindless t _ _ (every_cons.1 kinded).2]
  | asyncHandler handler =>
    simp only [Expr.kindless, Expr.draft, handler.draft_kindless t _ (every_cons.1 kinded).2]
  | methodReference receiver method =>
    have ofReceiver := (every_cons.1 kinded).2
    simp only [Expr.kindless, Expr.draft, receiver.isThis_kindless ofReceiver,
      receiver.draft_kindless t _ _ ofReceiver]
  | jsonObject members =>
    simp only [Expr.kindless, Expr.draft,
      Member.drafts_kindless t _ members (every_cons.1 kinded).2]
  | jsonArray values | list values =>
    simp only [Expr.kindless, Expr.draft, Expr.drafts_kindless t _ values (every_cons.1 kinded).2]
  | dataObject type members =>
    simp only [Expr.kindless, Expr.draft,
      Member.drafts_kindless t _ members (every_cons.1 kinded).2]
  | throwable type reason =>
    simp only [Expr.kindless, Expr.draft,
      Expr.optionDraft_kindless t _ reason (every_cons.1 kinded).2]
  | consolePrint stream arg =>
    simp only [Expr.kindless, Expr.draft, arg.draft_kindless t _ _ (every_cons.1 kinded).2]
  | typed value kind =>
    -- the value may now stand as a statement, where it stood within a value with a kind before
    obtain ⟨takesKind, inner⟩ := every_cons.1 kinded
    rw [Expr.kindless, Expr.draft_of_takesKind (Expr.takesKind_kindless takesKind),
      value.draft_kindless t insideJson false inner, Expr.draft]
  | access access =>
    simp only [Expr.kindless, Expr.draft, access.draft_kindless t _ (every_cons.1 kinded).2]

theorem Expr.drafts_kindless (t : Target) (insideJson : Bool) (es : List Expr)
    (kinded : Every Node.IsKinded (Expr.nodesAll es)) :
    Expr.drafts t insideJson (Expr.kindlessAll es) = Expr.drafts t insideJson es := by
  cases es with
  | nil => rfl
  | cons e rest =>
    obtain ⟨first, others⟩ := every_append.1 kinded
    simp only [Expr.kindlessAll, Expr.drafts, e.draft_kindless t _ _ first,
      Expr.drafts_kindless t _ rest others]

/-- The texts of the parts of a concatenation do not depend on kinds. -/
theorem Expr.texts_kindless (es : List Expr) (kinded : Every Node.IsKinded (Expr.nodesAll es)) :
    (Expr.kindlessAll es).map Expr.text? = es.map Expr.text? := by
  cases es with
  | nil => rfl
  | cons e rest =>
    obtain ⟨first, others⟩ := every_append.1 kinded
    simp only [Expr.kindlessAll, List.map_cons, e.text?_kindless first,
      Expr.texts_kindless rest others]

theorem Expr.optionDraft_kindless (t : Target) (insideJson : Bool) (e : Option Expr)
    (kinded : Every Node.IsKinded (Expr.nodesOption e)) :
    Expr.optionDraft t insideJson (Expr.kindlessOption e) = Expr.optionDraft t insideJson e := by
  cases e with
  | none => rfl
  | some e => simp only [Expr.kindlessOption, Expr.optionDraft, e.draft_kindless t _ _ kinded]

theorem Member.draft_kindless (t : Target) (insideJson : Bool) (member : Member)
    (kinded : Every Node.IsKinded member.nodes) :
    member.kindless.draft t insideJson = member.draft t insideJson := by
  cases member with
  | single name value =>
    simp only [Member.kindless, Member.draft, value.draft_kindless t _ _ kinded]
  | sequence name values =>
    simp only [Member.kindless, Member.draft, Expr.drafts_kindless t _ values kinded]

theorem Member.drafts_kindless (t : Target) (insideJson : Bool) (members : List Member)
    (kinded : Every Node.IsKinded (Member.nodesAll members)) :
    Member.drafts t insideJson (Member.kindlessAll members) =
      Member.drafts t insideJson members := by
  cases members with
  | nil => rfl
  | cons member rest =>
    obtain ⟨first, others⟩ := every_append.1 kinded
    have sameName : member.kindless.name = member.name := by cases member <;> rfl
    simp only [Member.kindlessAll, Member.drafts, sameName, member.draft_kindless t _ first,
      Member.drafts_kindless t _ rest others]

/-- An access is drafted alike without its kinds. -/
theorem Access.draft_kindless (t : Target) (insideJson : Bool) (access : Access)
    (kinded : Every Node.IsKinded access.nodes) :
    access.kindless.draft t insideJson = access.draft t insideJson := by
  cases access with
  | jsonObjectGet object key =>
    obtain ⟨ofObject, ofKey⟩ := every_append.1 kinded
    simp only [Access.kindless, Access.draft, object.draft_kindless t _ _ ofObject,
      key.draft_kindless t _ _ ofKey, key.text?_kindless ofKey]
  | jsonObjectPut object key value =>
    obtain ⟨ofObject, entry⟩ := every_append.1 kinded
    obtain ⟨ofKey, ofValue⟩ := every_append.1 entry
    simp only [Access.kindless, Access.draft, object.draft_kindless t _ _ ofObject,
      key.draft_kindless t _ _ ofKey, key.text?_kindless ofKey,
      value.draft_kindless t _ _ ofValue, value.isNull_kindless ofValue]
  | jsonArrayAdd array value =>
    obtain ⟨ofArray, ofValue⟩ := every_append.1 kinded
    simp only [Access.kindless, Access.draft, array.draft_kindless t _ _ ofArray,
      value.draft_kindless t _ _ ofValue, value.isNull_kindless ofValue]
  | jsonObjectEncode e | jsonArraySize e | jsonArrayEncode e | dataObjectGet e | listSize e =>
    simp only [Access.kindless, Access.draft, e.draft_kindless t _ _ kinded]
  | jsonArrayGet e e' | mapGet e e' | listGet e e' | listAdd e e' =>
    obtain ⟨left, right⟩ := every_append.1 kinded
    simp only [Access.kindless, Access.draft, e.draft_kindless t _ _ left,
      e'.draft_kindless t _ _ right]
  | dataObjectSet object name value =>
    obtain ⟨ofObject, ofValue⟩ := every_append.1 kinded
    simp only [Access.kindless, Access.draft, object.draft_kindless t _ _ ofObject,
      value.draft_kindless t _ _ ofValue]
  | mapPut map key value =>
    obtain ⟨ofMap, entry⟩ := every_append.1 kinded
    obtain ⟨ofKey, ofValue⟩ := every_append.1 entry
    simp only [Access.kindless, Access.draft, map.draft_kindless t _ _ ofMap,
      key.draft_kindless t _ _ ofKey, value.draft_kindless t _ _ ofValue]
  | mapForEach map keyName valueName body =>
    obtain ⟨ofMap, ofBody⟩ := every_append.1 kinded
    simp only [Access.kindless, Access.draft, map.draft_kindless t _ _ ofMap,
      body.draft_kindless t _ _ ofBody]

theorem LambdaBody.draft_kindless (t : Target) (insideJson isStatement : Bool)
    (body : LambdaBody) (kinded : Every Node.IsKinded body.nodes) :
    body.kindless.draft t insideJson isStatement = body.draft t insideJson isStatement := by
  cases body with
  | expr body =>
    simp only [LambdaBody.kindless, LambdaBody.draft, body.draft_kindless t _ _ kinded]
  | block body =>
    simp only [LambdaBody.kindless, LambdaBody.draft, body.draft_kindless t _ kinded]

theorem AsyncHandler.draft_kindless (t : Target) (insideJson : Bool) (handler : AsyncHandler)
    (kinded : Every Node.IsKinded handler.nodes) :
    handler.kindless.draft t insideJson = handler.draft t insideJson := by
  obtain ⟨name, paramType, resultType, body, succeeded, failed⟩ := handler
  obtain ⟨ofBody, branches⟩ := every_append.1 kinded
  obtain ⟨success, failure⟩ := every_append.1 branches
  simp only [AsyncHandler.kindless, AsyncHandler.draft, body.draft_kindless t _ _ ofBody,
    Stmt.optionDraft_kindless t _ succeeded success, Stmt.optionDraft_kindless t _ failed failure]

/-- A block is drafted alike without its kinds. -/
theorem Block.draft_kindless (t : Target) (insideJson : Bool) (block : Block)
    (kinded : Every Node.IsKinded block.nodes) :
    block.kindless.draft t insideJson = block.draft t insideJson := by
  obtain ⟨stmts, fragments⟩ := block
  simp only [Block.kindless, Block.draft,
    Stmt.drafts_kindless t _ stmts fragments (every_cons.1 kinded).2]

theorem Stmt.drafts_kindless (t : Target) (insideJson : Bool) (stmts : List Stmt)
    (fragments : List String) (kinded : Every Node.IsKinded (Stmt.nodesAll stmts)) :
    Stmt.drafts t insideJson (Stmt.kindlessAll stmts) fragments =
      Stmt.drafts t insideJson stmts fragments := by
  cases stmts with
  | nil => rfl
  | cons stmt rest =>
    obtain ⟨first, others⟩ := every_append.1 kinded
    simp only [Stmt.kindlessAll, Stmt.drafts, stmt.draft_kindless t _ _ first,
      Stmt.drafts_kindless t _ rest fragments.tail others]

theorem Branch.drafts_kindless (t : Target) (insideJson : Bool) (branches : List Branch)
    (kinded : Every Node.IsKinded (Branch.nodesAll branches)) :
    Branch.drafts t insideJson (Branch.kindlessAll branches) =
      Branch.drafts t insideJson branches := by
  cases branches with
  | nil => rfl
  | cons branch rest =>
    obtain ⟨cond, body⟩ := branch
    obtain ⟨ofCond, others⟩ := every_append.1 kinded
    obtain ⟨ofBody, others⟩ := every_append.1 others
    simp only [Branch.kindlessAll, Branch.drafts, cond.draft_kindless t _ _ ofCond,
      body.draft_kindless t _ _ ofBody, Branch.drafts_kindless t _ rest others]

/-- A statement is drafted alike without its kinds. -/
theorem Stmt.draft_kindless (t : Target) (insideJson : Bool) (position : Position) (stmt : Stmt)
    (kinded : Every Node.IsKinded stmt.nodes) :
    stmt.kindless.draft t insideJson position = stmt.draft t insideJson position := by
  cases stmt with
  | «return» value =>
    simp only [Stmt.kindless, Stmt.draft,
      Expr.optionDraft_kindless t _ value (every_cons.1 kinded).2]
  | assign target value =>
    obtain ⟨left, right⟩ := every_append.1 (every_cons.1 kinded).2
    simp only [Stmt.kindless, Stmt.draft, target.draft_kindless t _ _ left,
      value.draft_kindless t _ _ right]
  | varDecl scope type name init =>
    simp only [Stmt.kindless, Stmt.draft,
      Expr.optionDraft_kindless t _ init (every_cons.1 kinded).2]
  | conditionals branches otherwise =>
    obtain ⟨ofBranches, other⟩ := every_append.1 (every_cons.1 kinded).2
    simp only [Stmt.kindless, Stmt.draft, Branch.drafts_kindless t _ branches ofBranches,
      Stmt.optionDraft_kindless t _ otherwise other]
  | tryCatch body catchParam catchBody =>
    obtain ⟨ofBody, ofHandler⟩ := every_append.1 (every_cons.1 kinded).2
    simp only [Stmt.kindless, Stmt.draft, body.draft_kindless t _ _ ofBody,
      catchBody.draft_kindless t _ _ ofHandler]
  | throw type reason =>
    simp only [Stmt.kindless, Stmt.draft,
      Expr.optionDraft_kindless t _ reason (every_cons.1 kinded).2]
  | block block =>
    simp only [Stmt.kindless, Stmt.draft, block.draft_kindless t _ (every_cons.1 kinded).2]
  | loop init cond update body =>
    obtain ⟨ofInit, rest⟩ := every_append.1 (every_cons.1 kinded).2
    obtain ⟨ofCond, rest⟩ := every_append.1 rest
    obtain ⟨ofUpdate, ofBody⟩ := every_append.1 rest
    simp only [Stmt.kindless, Stmt.draft, init.draft_kindless t _ _ ofInit,
      cond.draft_kindless t _ _ ofCond, update.draft_kindless t _ _ ofUpdate,
      body.draft_kindless t _ _ ofBody]
  | sequenceFor id start stop body =>
    obtain ⟨ofStart, rest⟩ := every_append.1 (every_cons.1 kinded).2
    obtain ⟨ofStop, ofBody⟩ := every_append.1 rest
    simp only [Stmt.kindless, Stmt.draft, start.draft_kindless t _ _ ofStart,
      stop.draft_kindless t _ _ ofStop, body.draft_kindless t _ _ ofBody]
  | forEach element elementType iterable body =>
    obtain ⟨ofIterable, ofBody⟩ := every_append.1 (every_cons.1 kinded).2
    simp only [Stmt.kindless, Stmt.draft, iterable.draft_kindless t _ _ ofIterable,
      body.draft_kindless t _ _ ofBody]
  | expr expr =>
    simp only [Stmt.kindless, Stmt.draft, expr.draft_kindless t _ _ (every_cons.1 kinded).2]

theorem Stmt.optionDraft_kindless (t : Target) (insideJson : Bool) (stmt : Option Stmt)
    (kinded : Every Node.IsKinded (Stmt.nodesOption stmt)) :
    Stmt.optionDraft t insideJson (Stmt.kindlessOption stmt) =
      Stmt.optionDraft t insideJson stmt := by
  cases stmt with
  | none => rfl
  | some stmt => simp only [Stmt.kindlessOption, Stmt.optionDraft, stmt.draft_kindless t _ _ kinded]

end

/-! ### Programs -/

namespace Unit

/-- In a program without kinds no value has a kind. -/
theorem every_kindless (unit : Unit) : Every (·.isKindless) unit.kindless.nodes := by
  refine every_append.2 ⟨?_, every_append.2 ⟨?_, unit.entry.every_kindless⟩⟩
  · intro node mem
    obtain ⟨field, isField, mem⟩ := List.mem_flatMap.1 mem
    obtain ⟨field, _, rfl⟩ := List.mem_map.1 isField
    exact Expr.every_kindlessOption field.init node mem
  · intro node mem
    obtain ⟨method, isMethod, mem⟩ := List.mem_flatMap.1 mem
    obtain ⟨method, _, rfl⟩ := List.mem_map.1 isMethod
    exact method.body.every_kindless node mem

/-- A program is drafted alike without its kinds. -/
theorem draft_kindless (t : Target) (unit : Unit) (kinded : Every Node.IsKinded unit.nodes) :
    unit.kindless.draft t = unit.draft t := by
  obtain ⟨ofFields, rest⟩ := every_append.1 kinded
  obtain ⟨ofMethods, ofEntry⟩ := every_append.1 rest
  have fields (field : Field) (mem : field ∈ unit.fields) :
      field.kindless.draft t = field.draft t := by
    have own : Every Node.IsKinded field.nodes := fun node isNode =>
      ofFields node (List.mem_flatMap.2 ⟨field, mem, isNode⟩)
    exact congrArg (t.varDecl .field field.type field.name)
      (Expr.optionDraft_kindless t false field.init own)
  have methods (method : Method) (mem : method ∈ unit.methods) :
      method.kindless.draft t = method.draft t := by
    have own : Every Node.IsKinded method.nodes := fun node isNode =>
      ofMethods node (List.mem_flatMap.2 ⟨method, mem, isNode⟩)
    exact congrArg (t.method method.signature method.paramNames)
      (method.body.draft_kindless t false own)
  have none : unit.entry.kindless.stmts.isEmpty = unit.entry.stmts.isEmpty := by
    obtain ⟨stmts, fragments⟩ := unit.entry
    cases stmts <;> rfl
  have sameFields (f : Draft → Draft) : (unit.fields.map Field.kindless).map
      (fun field => f (field.draft t)) = unit.fields.map fun field => f (field.draft t) := by
    rw [List.map_map]
    exact List.map_congr_left fun field mem => congrArg f (fields field mem)
  have sameMethods (f : Draft → Draft) : (unit.methods.map Method.kindless).map
      (fun method => f (method.draft t)) = unit.methods.map fun method => f (method.draft t) := by
    rw [List.map_map]
    exact List.map_congr_left fun method mem => congrArg f (methods method mem)
  simp only [draft, kindless, none, unit.entry.draft_kindless t false ofEntry]
  rw [sameFields (· ++ Draft.text t.terminator ++ Draft.text "\n"),
    sameMethods (Draft.mark .gap ++ · ++ Draft.text "\n")]

/-- If kinds are given only to what takes one, a program and the program without its kinds are
written alike, or are rejected with the same cause. -/
theorem render_kindless (t : Target) (indent : String) (unit : Unit)
    (kinded : Every Node.IsKinded unit.nodes) :
    unit.kindless.render t indent = unit.render t indent := by
  rw [render, unit.draft_kindless t kinded, render]

end Unit

end Polyscript.Model
