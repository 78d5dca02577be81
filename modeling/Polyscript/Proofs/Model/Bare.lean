import Polyscript.Model.Operation

/-!
# Models without fragments

A model and the same model with the fragments of every block left out. What an
operation makes of an expression does not depend on the fragments in it: leaving them
out before the operation or after it comes to the same.
-/

namespace Polyscript.Model

mutual

/-- An expression without the fragments of its blocks. -/
def Expr.bare : Expr → Expr
  | .identifier name scope => .identifier name scope
  | .this => .this
  | .literal value => .literal value
  | .concat parts => .concat (Expr.bareAll parts)
  | .parenthesized inner => .parenthesized inner.bare
  | .binary op lhs rhs => .binary op lhs.bare rhs.bare
  | .unary op operand => .unary op operand.bare
  | .conditional cond yes no => .conditional cond.bare yes.bare no.bare
  | .assign target value => .assign target.bare value.bare
  | .field receiver name => .field receiver.bare name
  | .invocation receiver site => .invocation receiver.bare site.bare
  | .construct cls args => .construct cls (Expr.bareAll args)
  | .instanceOf expr cls => .instanceOf expr.bare cls
  | .lambda lambda => .lambda lambda.bare
  | .asyncHandler handler => .asyncHandler handler.bare
  | .methodReference receiver method => .methodReference receiver.bare method
  | .cls cls => .cls cls
  | .jsonObject members => .jsonObject (Member.bareAll members)
  | .jsonArray values => .jsonArray (Expr.bareAll values)
  | .dataObject type members => .dataObject type (Member.bareAll members)
  | .list values => .list (Expr.bareAll values)
  | .newMap => .newMap
  | .newList => .newList
  | .throwable type reason => .throwable type (Expr.bareOption reason)
  | .enumConstant type constant => .enumConstant type constant
  | .console stream => .console stream
  | .consolePrint stream arg => .consolePrint stream arg.bare
  | .asyncResult name resultType => .asyncResult name resultType
  | .asyncCall name resultType op => .asyncCall name resultType op
  | .typed value kind => .typed value.bare kind
  | .access access => .access access.bare

/-- Expressions without the fragments of their blocks. -/
def Expr.bareAll : List Expr → List Expr
  | [] => []
  | expr :: rest => expr.bare :: Expr.bareAll rest

/-- An expression that may be missing, without the fragments of its blocks. -/
def Expr.bareOption : Option Expr → Option Expr
  | none => none
  | some expr => some expr.bare

/-- A call without the fragments in its arguments. -/
def CallSite.bare : CallSite → CallSite
  | ⟨receiverType, method, returnType, args, argTypes⟩ =>
    ⟨receiverType, method, returnType, Expr.bareAll args, argTypes⟩

/-- A member without the fragments in its values. -/
def Member.bare : Member → Member
  | .single name value => .single name value.bare
  | .sequence name values => .sequence name (Expr.bareAll values)

/-- Members without the fragments in their values. -/
def Member.bareAll : List Member → List Member
  | [] => []
  | member :: rest => member.bare :: Member.bareAll rest

/-- An access without the fragments of its blocks. -/
def Access.bare : Access → Access
  | .jsonObjectGet object key => .jsonObjectGet object.bare key.bare
  | .jsonObjectPut object key value => .jsonObjectPut object.bare key.bare value.bare
  | .jsonObjectEncode object => .jsonObjectEncode object.bare
  | .jsonArrayGet array index => .jsonArrayGet array.bare index.bare
  | .jsonArrayAdd array value => .jsonArrayAdd array.bare value.bare
  | .jsonArraySize array => .jsonArraySize array.bare
  | .jsonArrayEncode array => .jsonArrayEncode array.bare
  | .dataObjectGet object name => .dataObjectGet object.bare name
  | .dataObjectSet object name value => .dataObjectSet object.bare name value.bare
  | .mapGet map key => .mapGet map.bare key.bare
  | .mapPut map key value => .mapPut map.bare key.bare value.bare
  | .mapForEach map keyName valueName body => .mapForEach map.bare keyName valueName body.bare
  | .listGet list index => .listGet list.bare index.bare
  | .listAdd list value => .listAdd list.bare value.bare
  | .listSize list => .listSize list.bare

/-- The body of a lambda without the fragments of its blocks. -/
def LambdaBody.bare : LambdaBody → LambdaBody
  | .expr body => .expr body.bare
  | .block body => .block body.bare

/-- A lambda without the fragments of its blocks. -/
def Lambda.bare : Lambda → Lambda
  | ⟨paramNames, paramTypes, body⟩ => ⟨paramNames, paramTypes, body.bare⟩

/-- A callback without the fragments of its blocks. -/
def AsyncHandler.bare : AsyncHandler → AsyncHandler
  | ⟨name, paramType, resultType, body, succeeded, failed⟩ =>
    ⟨name, paramType, resultType, body.bare, Stmt.bareOption succeeded, Stmt.bareOption failed⟩

/-- A block without fragments, neither its own nor those of the blocks in it. -/
def Block.bare : Block → Block
  | ⟨stmts, _⟩ => ⟨Stmt.bareAll stmts, []⟩

/-- Branches without the fragments of their blocks. -/
def Branch.bareAll : List Branch → List Branch
  | [] => []
  | ⟨cond, body⟩ :: rest => ⟨cond.bare, body.bare⟩ :: Branch.bareAll rest

/-- A statement without the fragments of its blocks. -/
def Stmt.bare : Stmt → Stmt
  | .return value => .return (Expr.bareOption value)
  | .assign target value => .assign target.bare value.bare
  | .varDecl scope type name init => .varDecl scope type name (Expr.bareOption init)
  | .conditionals branches otherwise =>
    .conditionals (Branch.bareAll branches) (Stmt.bareOption otherwise)
  | .tryCatch body catchParam catchBody => .tryCatch body.bare catchParam catchBody.bare
  | .throw type reason => .throw type (Expr.bareOption reason)
  | .block block => .block block.bare
  | .loop init cond update body => .loop init.bare cond.bare update.bare body.bare
  | .sequenceFor id start stop body => .sequenceFor id start.bare stop.bare body.bare
  | .forEach element elementType iterable body =>
    .forEach element elementType iterable.bare body.bare
  | .expr expr => .expr expr.bare

/-- Statements without the fragments of their blocks. -/
def Stmt.bareAll : List Stmt → List Stmt
  | [] => []
  | stmt :: rest => stmt.bare :: Stmt.bareAll rest

/-- A statement that may be missing, without the fragments of its blocks. -/
def Stmt.bareOption : Option Stmt → Option Stmt
  | none => none
  | some stmt => some stmt.bare

end

attribute [simp] Expr.bare Expr.bareAll Expr.bareOption CallSite.bare Member.bare Member.bareAll
  Access.bare LambdaBody.bare Lambda.bare AsyncHandler.bare Block.bare Branch.bareAll Stmt.bare
  Stmt.bareAll Stmt.bareOption

theorem Block.withFragments_bare (block : Block) (fragments : List String) :
    (block.withFragments fragments).bare = block.bare := by
  unfold withFragments
  split
  · cases block
    rfl
  · rfl

/-- A method without the fragments of its blocks. -/
def Method.bare (method : Method) : Method := { method with body := method.body.bare }

/-- A field without the fragments of its blocks. -/
def Field.bare (field : Field) : Field := { field with init := Expr.bareOption field.init }

/-- A program without the fragments of its blocks. -/
def Unit.bare (unit : Unit) : Unit where
  name := unit.name
  fields := unit.fields.map Field.bare
  methods := unit.methods.map Method.bare
  entry := unit.entry.bare

namespace Expr

theorem bareAll_eq_map (es : List Expr) : bareAll es = es.map bare := by
  induction es with
  | nil => rfl
  | cons e rest ih => simp [ih]

theorem text?_bare (e : Expr) : e.bare.text? = e.text? := by
  cases e <;> rfl

theorem isNull_bare (e : Expr) : e.bare.isNull = e.isNull := by
  cases e <;> rfl

theorem isThis_bare (e : Expr) : e.bare.isThis = e.isThis := by
  cases e <;> rfl

theorem isClass_bare (e : Expr) : e.bare.isClass = e.isClass := by
  cases e <;> rfl

theorem hasCapabilities_bare (e : Expr) : e.bare.hasCapabilities = e.hasCapabilities := by
  cases e <;> rfl

theorem untyped_bare (e : Expr) : e.bare.untyped = e.untyped.bare := by
  fun_induction untyped e with
  | case1 value kind ih => exact ih
  | case2 e notTyped =>
    cases e <;> first | rfl | exact absurd rfl (notTyped _ _)

theorem stripParens_bare (e : Expr) : e.bare.stripParens = e.stripParens.bare := by
  fun_induction stripParens e with
  | case1 inner ih => exact ih
  | case2 e notParens =>
    cases e <;> first | rfl | exact absurd rfl (notParens _)

/-! ### Operations -/

theorem withKind_bare (type : TypeInfo) (e : Expr) :
    e.bare.withKind type = (e.withKind type).bare := by
  unfold withKind
  split <;> rfl

/-- A coercion looks at no fragment. -/
theorem coerce_bare (type : TypeInfo) (e : Expr) :
    e.bare.coerce type = (e.coerce type).map bare := by
  unfold coerce
  by_cases asksNothing : type.kind = .void
  · rw [if_pos asksNothing, if_pos asksNothing]
    rfl
  rw [if_neg asksNothing, if_neg asksNothing]
  cases e with
  | jsonObject members => simp only [bare]; split <;> rfl
  | jsonArray values => simp only [bare]; split <;> rfl
  | dataObject own members => simp only [bare]; split <;> rfl
  | typed value kind => simp only [bare, withKind_bare]; rfl
  | identifier name scope => exact congrArg Except.ok (withKind_bare type _)
  | _ => first | rfl | exact congrArg Except.ok (withKind_bare type _)

theorem sum_bare (lhs rhs : Expr) : lhs.bare.sum rhs.bare = (lhs.sum rhs).bare := by
  cases lhs with
  | concat parts => simp [sum, bareAll_eq_map]
  | _ =>
    simp only [bare, sum, text?_bare, apply_ite bare]
    rfl

/-- A binary operation looks at no fragment. -/
theorem applyBinary_bare (op : BinaryOp) (lhs rhs : Expr) :
    lhs.bare.applyBinary op rhs.bare = (lhs.applyBinary op rhs).map bare := by
  unfold applyBinary
  rw [isClass_bare, isClass_bare, sum_bare]
  split
  · rfl
  · split <;> simp [Except.map]

theorem applyUnary_bare (op : UnaryOp) (e : Expr) :
    e.bare.applyUnary op = (e.applyUnary op).map bare := by
  unfold applyUnary
  rw [isClass_bare]
  split <;> rfl

theorem testInstance_bare (cls : ClassType) (e : Expr) :
    e.bare.testInstance cls = (e.testInstance cls).map bare := by
  unfold testInstance
  rw [isClass_bare]
  split <;> rfl

theorem refer_bare (method : Signature) (e : Expr) :
    e.bare.refer method = (e.refer method).map bare := by
  cases e <;> rfl

theorem select_bare (name : String) (e : Expr) :
    e.bare.select name = (e.select name).map bare := by
  cases e with
  | cls cls =>
    cases cls with
    | console =>
      simp only [bare, select]
      split
      · rfl
      · split <;> rfl
    | _ => rfl
  | _ => rfl

end Expr

theorem Member.name_bare (member : Member) : member.bare.name = member.name := by
  cases member <;> rfl

theorem insertMember_bare (member : Member) (members : List Member) :
    insertMember member.bare (Member.bareAll members) =
      Member.bareAll (insertMember member members) := by
  induction members with
  | nil => rfl
  | cons m rest ih =>
    -- a member is found by its name, which no fragment is part of
    simp only [Member.bareAll, insertMember, Member.name_bare, ih]
    split <;> rfl

theorem appendMember_bare (name : String) (value : Expr) (members : List Member) :
    appendMember name value.bare (Member.bareAll members) =
      Member.bareAll (appendMember name value members) := by
  induction members with
  | nil => rfl
  | cons m rest ih =>
    simp only [Member.bareAll, appendMember, Member.name_bare, ih]
    split
    · cases m <;> simp [Expr.bareAll_eq_map]
    · rfl

namespace Access

variable (value : Expr) (method : String) (args : List Expr)

theorem ofJsonObjectCall?_bare : ofJsonObjectCall? value.bare method (Expr.bareAll args) =
    (ofJsonObjectCall? value method args).map bare := by
  rcases args with _ | ⟨a, _ | ⟨b, _ | ⟨c, rest⟩⟩⟩ <;>
    simp only [Expr.bareAll, ofJsonObjectCall?, apply_ite (Option.map bare)] <;> rfl

theorem ofJsonArrayCall?_bare : ofJsonArrayCall? value.bare method (Expr.bareAll args) =
    (ofJsonArrayCall? value method args).map bare := by
  rcases args with _ | ⟨a, _ | ⟨b, rest⟩⟩ <;>
    simp only [Expr.bareAll, ofJsonArrayCall?, apply_ite (Option.map bare)] <;> rfl

theorem ofDataObjectCall?_bare : ofDataObjectCall? value.bare method (Expr.bareAll args) =
    (ofDataObjectCall? value method args).map bare := by
  rcases args with _ | ⟨a, _ | ⟨b, rest⟩⟩ <;>
    simp only [Expr.bareAll, ofDataObjectCall?, Option.map_map] <;> rfl

theorem ofListCall?_bare : ofListCall? value.bare method (Expr.bareAll args) =
    (ofListCall? value method args).map bare := by
  rcases args with _ | ⟨a, _ | ⟨b, rest⟩⟩ <;>
    simp only [Expr.bareAll, ofListCall?, apply_ite (Option.map bare)] <;> rfl

theorem ofMapCall?_bare : ofMapCall? value.bare method (Expr.bareAll args) =
    (ofMapCall? value method args).map (Option.map bare) := by
  rcases args with _ | ⟨a, _ | ⟨b, _ | ⟨c, rest⟩⟩⟩
  · rfl
  · simp only [Expr.bareAll, ofMapCall?, apply_ite (Except.map (Option.map bare))]
    cases a with
    | lambda lambda =>
      obtain ⟨names, types, body⟩ := lambda
      rcases names with _ | ⟨k, _ | ⟨v, _ | ⟨w, more⟩⟩⟩ <;> rfl
    | _ => rfl
  · simp only [Expr.bareAll, ofMapCall?, Except.map, apply_ite (Option.map bare)]
    rfl
  · rfl

/-- Which access a call stands for is a matter of the call without its fragments. -/
theorem ofCall?_bare (kind : ValueKind) (site : CallSite) :
    ofCall? value.bare kind site.bare = (ofCall? value kind site).map (Option.map bare) := by
  obtain ⟨receiverType, signature, returnType, args, argTypes⟩ := site
  cases kind with
  | jsonObject => exact congrArg Except.ok (ofJsonObjectCall?_bare value signature.name args)
  | jsonArray => exact congrArg Except.ok (ofJsonArrayCall?_bare value signature.name args)
  | dataObject type => exact congrArg Except.ok (ofDataObjectCall?_bare value signature.name args)
  | map => exact ofMapCall?_bare value signature.name args
  | list => exact congrArg Except.ok (ofListCall?_bare value signature.name args)

end Access

namespace CallSite

variable (site : CallSite)

theorem args_bare : site.bare.args = Expr.bareAll site.args := by
  cases site
  rfl

theorem method_bare : site.bare.method = site.method := by
  cases site
  rfl

theorem unsupported_bare (target : CallTarget) :
    site.bare.unsupported target = site.unsupported target := by
  simp [unsupported, args_bare, method_bare, Expr.bareAll_eq_map]

end CallSite

namespace Expr

variable (site : CallSite)

theorem callTyped_bare (value : Expr) (kind : ValueKind) :
    callTyped value.bare kind site.bare = (callTyped value kind site).map bare := by
  unfold callTyped
  rw [Access.ofCall?_bare]
  cases Access.ofCall? value kind site with
  | error cause => rfl
  | ok found => cases found <;> rfl

theorem callConsole_bare (stream : Stream) :
    callConsole stream site.bare = (callConsole stream site).map bare := by
  unfold callConsole
  rw [site.unsupported_bare, site.args_bare, site.method_bare]
  by_cases println : site.method.name = "println" <;>
    by_cases print : site.method.name = "print" <;>
    rcases site.args with _ | ⟨a, _ | ⟨b, rest⟩⟩ <;>
    simp [println, print, Except.map, string]

theorem callJsonObject_bare (members : List Member) :
    callJsonObject (Member.bareAll members) site.bare = (callJsonObject members site).map bare := by
  unfold callJsonObject
  -- any call but those that put a member under a literal key is one on a typed value
  have typed := callTyped_bare site (.jsonObject members) .jsonObject
  rw [site.args_bare, site.method_bare]
  by_cases put : site.method.name = "put"
  · rcases site.args with _ | ⟨key, _ | ⟨value, _ | ⟨c, rest⟩⟩⟩
    case cons.cons.nil =>
      cases key with
      | literal key =>
        cases key with
        | string key => simp [put, Except.map, ← insertMember_bare]
        | _ => simpa [put] using typed
      | _ => simpa [put] using typed
    all_goals simpa [put] using typed
  by_cases putNull : site.method.name = "putNull"
  · rcases site.args with _ | ⟨key, _ | ⟨value, rest⟩⟩
    case cons.nil =>
      cases key with
      | literal key =>
        cases key with
        | string key => simp [putNull, Except.map, ← insertMember_bare, null]
        | _ => simpa [putNull] using typed
      | _ => simpa [putNull] using typed
    all_goals simpa [putNull] using typed
  · simpa [put, putNull] using typed

theorem callJsonArray_bare (values : List Expr) :
    callJsonArray (bareAll values) site.bare = (callJsonArray values site).map bare := by
  unfold callJsonArray
  have typed := callTyped_bare site (.jsonArray values) .jsonArray
  rw [site.args_bare, site.method_bare]
  by_cases add : site.method.name = "add"
  · rcases site.args with _ | ⟨value, _ | ⟨b, rest⟩⟩
    case cons.nil => simp [add, Except.map, bareAll_eq_map]
    all_goals simpa [add] using typed
  by_cases addNull : site.method.name = "addNull"
  · rcases site.args with _ | ⟨value, rest⟩
    case nil => simp [addNull, Except.map, bareAll_eq_map, null]
    all_goals simpa [addNull] using typed
  · simpa [add, addNull] using typed

theorem callDataObject_bare (type : ClassType) (members : List Member) :
    callDataObject type (Member.bareAll members) site.bare =
      (callDataObject type members site).map bare := by
  unfold callDataObject
  have typed := callTyped_bare site (.dataObject type members) (.dataObject type)
  rw [site.args_bare, site.method_bare]
  rcases site.args with _ | ⟨value, _ | ⟨b, rest⟩⟩
  case cons.nil =>
    cases property? site.method.name "set" with
    | some name => simp [Except.map, ← insertMember_bare]
    | none =>
      cases property? site.method.name "add" with
      | some name => simp [Except.map, ← appendMember_bare]
      | none => exact typed
  all_goals exact typed

/-- What a call means is a matter of receiver and call without their fragments. -/
theorem call_bare (receiver : Expr) :
    receiver.bare.call site.bare = (receiver.call site).map bare := by
  -- only parentheses are looked through, so the recursion is on the receiver inside them
  cases receiver with
  | console stream => exact callConsole_bare site stream
  | cls cls =>
    cases cls with
    | arrays =>
      simp only [bare, call, site.method_bare, site.args_bare, site.unsupported_bare]
      split <;> rfl
    | console =>
      simp only [bare, call, site.unsupported_bare]
      rfl
    | _ => rfl
  | jsonObject members => exact callJsonObject_bare site members
  | jsonArray values => exact callJsonArray_bare site values
  | dataObject type members => exact callDataObject_bare site type members
  | typed value kind => exact callTyped_bare site value kind
  | asyncResult name resultType =>
    simp only [bare, call, site.method_bare, site.args_bare, site.unsupported_bare]
    cases AsyncOp.ofMethod? site.method.name with
    | none => rfl
    | some op => cases site.args <;> rfl
  | parenthesized inner =>
    simp only [bare, call, inner.hasCapabilities_bare]
    split
    · exact call_bare inner
    · rfl
  | _ => rfl

theorem newContainer_bare (container : Container) (args : List Expr) {value : Expr}
    (plain : value.bare = value) :
    newContainer container (bareAll args) value = (newContainer container args value).map bare := by
  cases args with
  | nil => exact congrArg Except.ok plain.symm
  | cons arg rest => simp [newContainer, bareAll_eq_map, Except.map]

theorem constructWith_bare (args : List Expr) (cls : Expr) :
    cls.bare.constructWith (bareAll args) = (cls.constructWith args).map bare := by
  cases cls with
  | cls cls =>
    cases cls with
    | jsonObject => exact newContainer_bare .object args rfl
    | jsonArray => exact newContainer_bare .array args rfl
    | map => exact newContainer_bare .map args rfl
    | list => exact newContainer_bare .list args rfl
    | dataObject type => cases args <;> rfl
    | throwable type =>
      rcases args with _ | ⟨reason, _ | ⟨other, rest⟩⟩
      · rfl
      · rfl
      · simp [constructWith, bareAll_eq_map, Except.map]
    | _ => rfl
  | _ => rfl

end Expr

end Polyscript.Model
