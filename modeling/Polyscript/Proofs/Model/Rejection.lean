import Mathlib.Logic.Relation
import Polyscript.Proofs.Model.Writing
import Polyscript.Proofs.Spelling.Unbroken

/-!
# What the target languages reject

A program cannot be rendered in a target language if and only if one of three shapes occurs in
it, at a place that is rendered. Where a shape may stand is said by one step from a node to
the parts that its own draft is put together from; the places that are rendered are those that
such steps lead to.

## Main definitions

* `Part`: an expression, a statement or a block, and whether an expression stands as a
  statement of its own.
* `Part.parts`: the parts that are rendered for a part.
* `Part.Renders`: what is rendered for a part at any depth.
* `Rejected`: the shapes that a target language rejects.

## Main statements

* `Part.unbroken_iff`: a part breaks off exactly if a rejected shape is rendered for it.
* `Unit.render_error_iff`: the same for a whole program.
-/

namespace Polyscript.Model

/-- Something that is rendered by itself. An expression may stand as a statement of its own,
and not below another expression. -/
inductive Part where
  | expr (isStatement : Bool) (expr : Expr)
  | stmt (stmt : Stmt)
  | block (block : Block)

/-- An expression below another one. -/
abbrev Part.operand (e : Expr) : Part := .expr false e

/-- The part that the body of a lambda is. -/
def LambdaBody.part (isStatement : Bool) : LambdaBody → Part
  | .expr body => .expr isStatement body
  | .block body => .block body

/-- The values of a member. -/
def Member.values : Member → List Expr
  | .single _ value => [value]
  | .sequence _ values => values

/-- The parts of a callback: the branches that are kept apart, or else its body. -/
def AsyncHandler.parts (handler : AsyncHandler) : List Part :=
  if handler.isSplit then (handler.succeeded.toList ++ handler.failed.toList).map .stmt
  else [handler.body.part false]

/-- The parts of an access. What is done with the entries of a map stands as a statement. -/
def Access.parts : Access → List Part
  | .jsonObjectGet object key => [.operand object, .operand key]
  | .jsonObjectPut object key value => [.operand object, .operand key, .operand value]
  | .jsonObjectEncode object => [.operand object]
  | .jsonArrayGet array index => [.operand array, .operand index]
  | .jsonArrayAdd array value => [.operand array, .operand value]
  | .jsonArraySize array => [.operand array]
  | .jsonArrayEncode array => [.operand array]
  | .dataObjectGet object _ => [.operand object]
  | .dataObjectSet object _ value => [.operand object, .operand value]
  | .mapGet map key => [.operand map, .operand key]
  | .mapPut map key value => [.operand map, .operand key, .operand value]
  | .mapForEach map _ _ body => [.operand map, body.part true]
  | .listGet list index => [.operand list, .operand index]
  | .listAdd list value => [.operand list, .operand value]
  | .listSize list => [.operand list]

/-- The receiver of a call or of a method reference, unless it is `this`. -/
def Expr.receiverParts (receiver : Expr) : List Part :=
  if receiver.isThis then [] else [.operand receiver]

/-- The parts of an expression. -/
def Expr.parts : Expr → List Part
  | .identifier .. | .this | .literal _ | .cls _ | .newMap | .newList | .enumConstant ..
  | .console _ | .asyncResult .. | .asyncCall .. => []
  | .concat es | .jsonArray es | .list es | .construct _ es => es.map .operand
  | .parenthesized e | .unary _ e | .field e _ | .instanceOf e _ | .consolePrint _ e
  | .typed e _ => [.operand e]
  | .binary _ lhs rhs => [.operand lhs, .operand rhs]
  | .conditional cond yes no => [.operand cond, .operand yes, .operand no]
  | .assign target value => [.operand target, .operand value]
  | .invocation receiver site => receiver.receiverParts ++ site.args.map .operand
  | .lambda function => [function.body.part false]
  | .asyncHandler handler => handler.parts
  | .methodReference receiver _ => receiver.receiverParts
  | .jsonObject members | .dataObject _ members =>
    (members.flatMap Member.values).map .operand
  | .throwable _ reason => reason.toList.map .operand
  | .access operation => operation.parts

/-- The parts of a statement. An expression stands as a statement of its own if it is one, and
as the update of a loop. -/
def Stmt.parts : Stmt → List Part
  | .return value | .varDecl _ _ _ value | .throw _ value => value.toList.map .operand
  | .assign target value => [.operand target, .operand value]
  | .conditionals branches otherwise =>
    (branches.flatMap fun branch => [.operand branch.cond, .stmt branch.body]) ++
      otherwise.toList.map .stmt
  | .tryCatch body _ handler => [.stmt body, .stmt handler]
  | .block inner => [.block inner]
  | .loop init cond update body =>
    [.stmt init, .operand cond, .expr true update, .stmt body]
  | .sequenceFor _ start stop body => [.operand start, .operand stop, .stmt body]
  | .forEach _ _ iterable body => [.operand iterable, .stmt body]
  | .expr e => [.expr true e]

/-- The parts that are rendered for a part. -/
def Part.parts : Part → List Part
  | .expr _ e => e.parts
  | .stmt s => s.parts
  | .block b => b.stmts.map .stmt

/-- What is rendered for a part at any depth, the part itself included. -/
def Part.Renders : Part → Part → Prop :=
  Relation.ReflTransGen fun part next => next ∈ part.parts

/-- The parts of a program: the initial values of its fields, the bodies of its methods, and
the body of its entry method if that has statements. -/
def Unit.parts (unit : Unit) : List Part :=
  unit.fields.flatMap (·.init.toList.map .operand) ++ (unit.methods.map (.block ·.body) ++
    if unit.entry.stmts.isEmpty then [] else [.block unit.entry])

/-- The shapes that a target language rejects: a stream of the console as a value; in JavaScript
a test for an enum; in Ruby a step by one that is not a statement of its own. -/
def Rejected (t : Target) : Part → Prop
  | .expr _ (.console _) => True
  | .expr _ (.instanceOf _ cls) => t = .javascript ∧ cls.kind = .enum
  | .expr isStatement (.unary op _) => t = .ruby ∧ op.isStep ∧ isStatement = false
  | _ => False

/-- The draft of a part, for a writer that counts literals. -/
def Part.draft (t : Target) : Part → Draft
  | .expr isStatement e => e.draft t true isStatement
  | .stmt s => s.draft t true .body
  | .block b => b.draft t true

@[simp] theorem Part.draft_expr (t : Target) (isStatement : Bool) (e : Expr) :
    (Part.expr isStatement e).draft t = e.draft t true isStatement :=
  rfl

@[simp] theorem Part.draft_stmt (t : Target) (s : Stmt) :
    (Part.stmt s).draft t = s.draft t true .body :=
  rfl

@[simp] theorem Part.draft_block (t : Target) (b : Block) :
    (Part.block b).draft t = b.draft t true :=
  rfl

/-! ### One step -/

section Step

variable {t : Target}

open Draft

theorem Expr.drafts_eq (inside : Bool) (es : List Expr) :
    Expr.drafts t inside es = es.map fun e => e.draft t inside false := by
  induction es with
  | nil => rfl
  | cons e rest ih => rw [Expr.drafts, ih, List.map_cons]

theorem Expr.optionDraft_eq (inside : Bool) (e : Option Expr) :
    Expr.optionDraft t inside e = e.map fun e => e.draft t inside false := by
  cases e <;> rfl

theorem Stmt.optionDraft_eq (inside : Bool) (s : Option Stmt) :
    Stmt.optionDraft t inside s = s.map fun s => s.draft t inside .body := by
  cases s <;> rfl

theorem Branch.drafts_eq (inside : Bool) (branches : List Branch) :
    Branch.drafts t inside branches = branches.map fun branch =>
      (branch.cond.draft t inside false, branch.body.draft t inside .body) := by
  induction branches with
  | nil => rfl
  | cons branch rest ih =>
    obtain ⟨cond, body⟩ := branch
    rw [Branch.drafts, ih, List.map_cons]

theorem Member.drafts_eq (inside : Bool) (members : List Member) :
    Member.drafts t inside members = members.map fun m => (m.name, m.draft t inside) := by
  induction members with
  | nil => rfl
  | cons member rest ih => rw [Member.drafts, ih, List.map_cons]

theorem Member.unbroken_draft (member : Member) :
    (member.draft t true).Unbroken ↔
      ∀ e ∈ member.values, ((Part.operand e).draft t).Unbroken := by
  cases member <;> simp [Member.draft, Member.values, Expr.drafts_eq]

theorem Member.unbroken_drafts (members : List Member) :
    (∀ m ∈ Member.drafts t true members, m.2.Unbroken) ↔
      ∀ e ∈ members.flatMap Member.values, ((Part.operand e).draft t).Unbroken := by
  rw [Member.drafts_eq, List.forall_mem_map]
  simp only [Member.unbroken_draft, List.forall_mem_flatMap]

theorem LambdaBody.unbroken_draft (isStatement : Bool) (body : LambdaBody) :
    (body.draft t true isStatement).plain.Unbroken ↔
      ((body.part isStatement).draft t).Unbroken := by
  cases body <;> rfl

/-- A text is written without a fault. -/
theorem Expr.unbroken_of_text {inside isStatement : Bool} {e : Expr} (text : e.text?.isSome) :
    (e.draft t inside isStatement).Unbroken := by
  cases e with
  | literal => exact unbroken_text _
  | _ => simp [Expr.text?] at text

theorem Expr.unbroken_of_isNull {inside isStatement : Bool} {e : Expr} (null : e.isNull) :
    (e.draft t inside isStatement).Unbroken := by
  cases e with
  | literal => exact unbroken_text _
  | _ => simp [Expr.isNull] at null

theorem Expr.unbroken_of_isThis {inside isStatement : Bool} {e : Expr} (this : e.isThis) :
    (e.draft t inside isStatement).Unbroken := by
  cases e with
  | this => exact unbroken_text _
  | _ => simp [Expr.isThis] at this

theorem Expr.unbroken_receiver (receiver : Expr) :
    (receiver.isThis = false → (receiver.draft t true false).Unbroken) ↔
      ∀ p ∈ receiver.receiverParts, (p.draft t).Unbroken := by
  cases this : receiver.isThis <;> simp [Expr.receiverParts, this]

/-- What a statement is wanted for makes no difference to whether it breaks off. -/
theorem Stmt.unbroken_draft (position : Position) (s : Stmt) :
    (s.draft t true position).Unbroken ↔ (s.draft t true .body).Unbroken := by
  cases s <;> cases position <;> simp [Stmt.draft, Position.finish]

theorem Stmt.unbroken_drafts (stmts : List Stmt) (fragments : List String) :
    (Stmt.drafts t true stmts fragments).Unbroken ↔
      ∀ s ∈ stmts, ((Part.stmt s).draft t).Unbroken := by
  have leading (fragments : List String) :
      (Stmt.drafts.leadingFragment t fragments).Unbroken := by
    cases fragments <;> simp [Stmt.drafts.leadingFragment]
  induction stmts generalizing fragments with
  | nil => simp [Stmt.drafts, leading]
  | cons s rest ih =>
    simp [Stmt.drafts, leading, ih, Stmt.unbroken_draft .line]

theorem AsyncHandler.unbroken_draft (handler : AsyncHandler) :
    (handler.draft t true).Unbroken ↔ ∀ p ∈ handler.parts, (p.draft t).Unbroken := by
  obtain ⟨name, paramType, resultType, body, succeeded, failed⟩ := handler
  have split (d : Draft) : (BodyDraft.lines d).plain = d := rfl
  cases succeeded <;> cases failed <;>
    simp [AsyncHandler.draft, AsyncHandler.parts, AsyncHandler.isSplit, Stmt.optionDraft,
      LambdaBody.unbroken_draft, split]

theorem Access.unbroken_draft (access : Access) :
    (access.draft t true).Unbroken ↔ ∀ p ∈ access.parts, (p.draft t).Unbroken := by
  cases access with
  | jsonObjectGet object key =>
    rw [Access.draft, Target.unbroken_jsonObjectGet Expr.unbroken_of_text]
    simp [Access.parts]
  | jsonObjectPut object key value =>
    rw [Access.draft,
      Target.unbroken_jsonObjectPut Expr.unbroken_of_text Expr.unbroken_of_isNull]
    simp [Access.parts]
  | jsonArrayAdd array value =>
    rw [Access.draft, Target.unbroken_jsonArrayAdd Expr.unbroken_of_isNull]
    simp [Access.parts]
  | _ => simp [Access.draft, Access.parts, LambdaBody.unbroken_draft, and_assoc]

/-- An expression breaks off exactly if it is rejected or one of its parts breaks off. -/
theorem Expr.unbroken_draft (isStatement : Bool) (e : Expr) :
    (e.draft t true isStatement).Unbroken ↔
      ¬ Rejected t (.expr isStatement e) ∧ ∀ p ∈ e.parts, (p.draft t).Unbroken := by
  cases e with
  | concat es =>
    have texts : ∀ part ∈ (es.map Expr.text?).zip (Expr.drafts t true es),
        part.1.isSome → part.2.Unbroken := by
      rw [Expr.drafts_eq, List.zip_map', List.forall_mem_map]
      exact fun e _ => Expr.unbroken_of_text
    rw [Expr.draft, Target.unbroken_concatenation texts, Expr.drafts_eq, List.zip_map',
      List.forall_mem_map]
    simp [Expr.parts, Rejected]
  | invocation receiver site =>
    obtain ⟨receiverType, method, returnType, args, argTypes⟩ := site
    simp [Expr.draft, Expr.parts, Rejected, CallSite.argDrafts, Expr.drafts_eq, or_imp,
      forall_and, Expr.unbroken_receiver]
  | lambda function =>
    obtain ⟨paramNames, paramTypes, body⟩ := function
    simp [Expr.draft, Expr.parts, Rejected, LambdaBody.unbroken_draft]
  | asyncHandler handler => simp [Expr.draft, Expr.parts, Rejected, AsyncHandler.unbroken_draft]
  | methodReference receiver method =>
    rw [Expr.draft, Target.unbroken_methodReference _ _ _ Expr.unbroken_of_isThis]
    simp [Expr.parts, Rejected, Expr.unbroken_receiver]
  | jsonObject members | dataObject _ members =>
    simp only [Expr.draft, Target.unbroken_jsonObject, Target.unbroken_dataObject,
      Member.unbroken_drafts, Expr.parts, List.forall_mem_map, Rejected, not_false_eq_true,
      true_and]
  | throwable _ reason => simp [Expr.draft, Expr.parts, Rejected, Expr.optionDraft_eq]
  | access operation => simp [Expr.draft, Expr.parts, Rejected, Access.unbroken_draft]
  | _ => simp [Expr.draft, Expr.parts, Rejected, Expr.drafts_eq]

theorem Stmt.unbroken_body (s : Stmt) :
    (s.draft t true .body).Unbroken ↔ ∀ p ∈ s.parts, (p.draft t).Unbroken := by
  cases s with
  | conditionals branches otherwise =>
    have branchParts : (∀ d ∈ Branch.drafts t true branches, d.1.Unbroken ∧ d.2.Unbroken) ↔
        ∀ p ∈ branches.flatMap fun branch => [Part.operand branch.cond, .stmt branch.body],
          (p.draft t).Unbroken := by
      rw [Branch.drafts_eq, List.forall_mem_map, List.forall_mem_flatMap]
      simp
    have last : (∀ d ∈ Stmt.optionDraft t true otherwise, d.Unbroken) ↔
        ∀ p ∈ otherwise.toList.map Part.stmt, (p.draft t).Unbroken := by
      simp [Stmt.optionDraft_eq]
    simp only [Stmt.draft, Position.finish, Draft.unbroken_append, Target.unbroken_conditionals,
      Draft.unbroken_text, and_true, Stmt.parts, List.forall_mem_append, branchParts, last]
  | loop init cond update body =>
    simp [Stmt.draft, Position.finish, Stmt.parts, Stmt.unbroken_draft .part]
  | _ => simp [Stmt.draft, Position.finish, Stmt.parts, Expr.optionDraft_eq]

/-- One step: a part breaks off exactly if it is rejected or one of its parts breaks off. -/
theorem Part.unbroken_step (p : Part) :
    (p.draft t).Unbroken ↔ ¬ Rejected t p ∧ ∀ q ∈ p.parts, (q.draft t).Unbroken := by
  cases p with
  | expr isStatement e => exact e.unbroken_draft isStatement
  | stmt s => exact s.unbroken_body.trans (by simp [Rejected, Part.parts])
  | block b =>
    obtain ⟨stmts, fragments⟩ := b
    exact (Stmt.unbroken_drafts stmts fragments).trans (by simp [Rejected, Part.parts])

end Step

/-! ### Any depth -/

/-- The size of a part, which its own parts are below. -/
noncomputable def Part.size : Part → Nat
  | .expr _ e => sizeOf e
  | .stmt s => sizeOf s
  | .block b => sizeOf b

@[simp] theorem Part.size_expr (isStatement : Bool) (e : Expr) :
    (Part.expr isStatement e).size = sizeOf e :=
  rfl

@[simp] theorem Part.size_stmt (s : Stmt) : (Part.stmt s).size = sizeOf s := rfl

@[simp] theorem Part.size_block (b : Block) : (Part.block b).size = sizeOf b := rfl

theorem LambdaBody.size_part (isStatement : Bool) (body : LambdaBody) :
    (body.part isStatement).size < sizeOf body := by
  cases body <;> simp [LambdaBody.part]

theorem Member.sizeOf_lt {member : Member} {e : Expr} (isValue : e ∈ member.values) :
    sizeOf e < sizeOf member := by
  cases member with
  | single name value =>
    obtain rfl := List.mem_singleton.1 isValue
    rw [Member.single.sizeOf_spec]
    omega
  | sequence name values =>
    have below : sizeOf e < sizeOf values := List.sizeOf_lt_of_mem isValue
    simp
    omega

theorem Expr.sizeOf_operands (es : List Expr) :
    ∀ q ∈ es.map Part.operand, q.size < sizeOf es :=
  List.forall_mem_map.2 fun _ mem => List.sizeOf_lt_of_mem mem

theorem Member.sizeOf_operands (members : List Member) :
    ∀ q ∈ (members.flatMap Member.values).map Part.operand, q.size < sizeOf members := by
  refine List.forall_mem_map.2 fun e mem => ?_
  obtain ⟨member, isMember, isValue⟩ := List.mem_flatMap.1 mem
  exact Nat.lt_trans (Member.sizeOf_lt isValue) (List.sizeOf_lt_of_mem isMember)

theorem Access.sizeOf_parts (access : Access) : ∀ q ∈ access.parts, q.size < sizeOf access := by
  cases access with
  | mapForEach map keyName valueName body =>
    have below := body.size_part true
    simp [Access.parts]
    omega
  | _ =>
    simp [Access.parts] <;> omega

theorem AsyncHandler.sizeOf_parts (handler : AsyncHandler) :
    ∀ q ∈ handler.parts, q.size < sizeOf handler := by
  obtain ⟨name, paramType, resultType, body, succeeded, failed⟩ := handler
  have below := body.size_part false
  cases succeeded <;> cases failed <;>
    simp [AsyncHandler.parts, AsyncHandler.isSplit] <;> omega

theorem Expr.size_receiverParts (receiver : Expr) :
    ∀ q ∈ receiver.receiverParts, q.size = sizeOf receiver := by
  cases this : receiver.isThis <;> simp [Expr.receiverParts, this]

theorem Expr.sizeOf_parts (e : Expr) : ∀ q ∈ e.parts, q.size < sizeOf e := by
  cases e with
  | concat es | jsonArray es | list es | construct _ es =>
    intro q isPart
    have below := Expr.sizeOf_operands es q isPart
    simp
    omega
  | jsonObject members | dataObject _ members =>
    intro q isPart
    have below := Member.sizeOf_operands members q isPart
    simp
    omega
  | invocation receiver site =>
    obtain ⟨receiverType, method, returnType, args, argTypes⟩ := site
    intro q isPart
    rcases List.mem_append.1 isPart with isReceiver | isArg
    · have same := receiver.size_receiverParts q isReceiver
      simp
      omega
    · have below := Expr.sizeOf_operands args q isArg
      simp
      omega
  | methodReference receiver method =>
    intro q isPart
    have same := receiver.size_receiverParts q isPart
    simp
    omega
  | lambda function =>
    obtain ⟨paramNames, paramTypes, body⟩ := function
    have below := body.size_part false
    simp [Expr.parts]
    omega
  | asyncHandler handler =>
    intro q isPart
    have below := handler.sizeOf_parts q isPart
    simp
    omega
  | throwable type reason => cases reason <;> simp [Expr.parts]; omega
  | access operation =>
    intro q isPart
    have below := operation.sizeOf_parts q isPart
    simp
    omega
  | _ => simp [Expr.parts] <;> omega

theorem Stmt.sizeOf_parts (s : Stmt) : ∀ q ∈ s.parts, q.size < sizeOf s := by
  cases s with
  | conditionals branches otherwise =>
    intro q isPart
    rcases List.mem_append.1 isPart with inBranch | isLast
    · obtain ⟨branch, mem, isPart⟩ := List.mem_flatMap.1 inBranch
      have below := List.sizeOf_lt_of_mem mem
      obtain ⟨cond, body⟩ := branch
      have either : q = .operand cond ∨ q = .stmt body := by simpa using isPart
      rcases either with rfl | rfl <;> simp at below ⊢ <;> omega
    · obtain ⟨last, isThere, rfl⟩ := List.mem_map.1 isLast
      obtain rfl := Option.mem_toList.1 isThere
      simp
      omega
  | «return» value => cases value <;> simp [Stmt.parts]; omega
  | varDecl scope type name value => cases value <;> simp [Stmt.parts]; omega
  | throw type reason => cases reason <;> simp [Stmt.parts]; omega
  | _ => simp [Stmt.parts] <;> omega

theorem Part.size_lt {p q : Part} (isPart : q ∈ p.parts) : q.size < p.size := by
  cases p with
  | expr isStatement e => exact e.sizeOf_parts q isPart
  | stmt s => exact s.sizeOf_parts q isPart
  | block b =>
    obtain ⟨stmts, fragments⟩ := b
    obtain ⟨s, mem, rfl⟩ := List.mem_map.1 isPart
    have below := List.sizeOf_lt_of_mem mem
    simp at below ⊢
    omega

/-- What holds of a part if it holds of the parts of that part holds of every part. -/
theorem Part.induction {motive : Part → Prop}
    (step : ∀ p : Part, (∀ q ∈ p.parts, motive q) → motive p) (p : Part) : motive p := by
  -- parts of parts are of three types, so the induction is on the size
  induction h : p.size using Nat.strongRecOn generalizing p with
  | ind n ih =>
    subst h
    exact step p fun q isPart => ih q.size (Part.size_lt isPart) q rfl

/-- A part breaks off exactly if something rejected is rendered for it. -/
theorem Part.unbroken_iff (t : Target) (p : Part) :
    (p.draft t).Unbroken ↔ ∀ q, p.Renders q → ¬ Rejected t q := by
  induction p using Part.induction with
  | step p ih =>
    have deeper : (∀ next ∈ p.parts, (next.draft t).Unbroken) ↔
        ∀ next ∈ p.parts, ∀ q, next.Renders q → ¬ Rejected t q :=
      forall₂_congr ih
    rw [p.unbroken_step, deeper]
    constructor
    · rintro ⟨here, below⟩ q renders
      -- what is rendered is the part itself or is rendered for a part of it
      obtain rfl | ⟨next, isPart, further⟩ := Relation.ReflTransGen.cases_head renders
      · exact here
      · exact below next isPart q further
    · intro all
      exact ⟨all p .refl, fun next isPart q further => all q (.head isPart further)⟩

/-! ### Programs -/

theorem Unit.unbroken_counted (t : Target) (unit : Unit) :
    (unit.counted t).Unbroken ↔ ∀ p ∈ unit.parts, (p.draft t).Unbroken := by
  simp only [Unit.counted, Unit.parts, Draft.unbroken_append, Draft.unbroken_concat,
    List.forall_mem_append, List.forall_mem_map, List.forall_mem_flatMap, Item.draft,
    Target.unbroken_varDecl, Target.unbroken_method]
  cases unit.entry.stmts.isEmpty <;> simp [Expr.optionDraft_eq, and_assoc]

/-- A program cannot be rendered exactly if a shape that the language rejects is rendered for
one of its parts. -/
theorem Unit.render_error_iff (t : Target) (indent : String) (unit : Unit) :
    (∃ cause, unit.render t indent = .error cause) ↔
      ∃ p ∈ unit.parts, ∃ q, p.Renders q ∧ Rejected t q := by
  have fails : (∃ cause, unit.render t indent = .error cause) ↔
      ¬ (unit.counted t).Unbroken := by
    rw [Draft.Unbroken, (unit.counts t).fault, Unit.render]
    cases (unit.draft t).fault <;> simp
  rw [fails, Unit.unbroken_counted]
  simp only [Part.unbroken_iff, not_forall, not_not, exists_prop]

end Polyscript.Model
