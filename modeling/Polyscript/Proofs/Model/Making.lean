import Polyscript.Proofs.Model.Calls
import Polyscript.Proofs.Model.Nodes

/-!
# What operations make

The operations on expressions put expressions together from what they are applied to. A node of
their result is a node of an operand, the literal of an object that has grown by a member, or one
that the operation makes; and the only nodes made that say anything of the class are a call or a
reference on the enclosing instance, made from one. A kind is given to expressions of some forms
only. So a property of nodes that literals keep as they grow, and that the others have by
themselves, is kept by every operation.

## Main definitions

* `Every`: all nodes of a list have a property.
* `Expr.takesKind`, `Expr.takesUpKind`: the forms of expressions that a kind is given to, and those
  that coercions give it to.
* `Expr.Grows`: literals of objects that grow by a member.
* `AdmitsMade`: a property that nodes have that operations make.
* `Expr.isPlain`: expressions that are neither the enclosing instance nor a value with a kind.
-/

namespace Polyscript.Model

/-- Whether an expression is of a form that a kind is given to: a variable, a field, a call,
parentheses, a choice, an access, or a literal that is called. -/
@[reducible]
def Expr.takesKind : Expr → Bool
  | .identifier .. | .field .. | .invocation .. | .parenthesized _ | .conditional .. => true
  | .asyncCall .. | .access _ | .jsonObject _ | .jsonArray _ | .dataObject .. => true
  | _ => false

/-- Whether an expression is given a kind by coercions. -/
def Expr.takesUpKind : Expr → Bool
  | .identifier .. | .field .. | .invocation .. | .parenthesized _ | .conditional .. => true
  | .asyncCall .. | .access _ => true
  | _ => false

/-- Whether an expression is one that operations make, apart from what is below it: no field, no
variable from outside the class, no callback, no call or reference on the enclosing instance, a
kind only around what it is given to, and no object with members. -/
@[reducible]
def Expr.isMade : Expr → Bool
  | .identifier _ .field | .identifier _ .global | .asyncHandler _ => false
  | .invocation receiver _ | .methodReference receiver _ => !receiver.isThis
  | .typed value _ => value.takesKind
  | .jsonObject members | .dataObject _ members => members.isEmpty
  | _ => true

/-- The literal of an object with one more member, or another one of its name. -/
inductive Expr.Grows : Expr → Expr → Prop
  | put (member : Member) (members : List Member) :
    Grows (.jsonObject members) (.jsonObject (insertMember member members))
  | set (type : ClassType) (member : Member) (members : List Member) :
    Grows (.dataObject type members) (.dataObject type (insertMember member members))
  | add (type : ClassType) (name : String) (value : Expr) (members : List Member) :
    Grows (.dataObject type members) (.dataObject type (appendMember name value members))

/-- Whether all nodes have a property. -/
def Every (P : Node → Prop) (nodes : List Node) : Prop := ∀ node ∈ nodes, P node

/-- A property of nodes that the expressions that operations make have by themselves, and that
the literals of objects keep as they grow. -/
class AdmitsMade (P : Node → Prop) : Prop where
  admits (e : Expr) (isMade : e.isMade) : P (.expr e)
  grown {e e' : Expr} (grows : e.Grows e') (holds : P (.expr e)) : P (.expr e')

theorem made (P : Node → Prop) [AdmitsMade P] (e : Expr) (isMade : e.isMade) : P (.expr e) :=
  AdmitsMade.admits e isMade

variable {P : Node → Prop}

@[simp] theorem every_nil : Every P [] := List.forall_mem_nil _

@[simp] theorem every_append {nodes others : List Node} :
    Every P (nodes ++ others) ↔ Every P nodes ∧ Every P others :=
  List.forall_mem_append

@[simp] theorem every_cons {node : Node} {nodes : List Node} :
    Every P (node :: nodes) ↔ P node ∧ Every P nodes :=
  List.forall_mem_cons

theorem every_nodesAll_append {es others : List Expr} :
    Every P (Expr.nodesAll (es ++ others)) ↔
      Every P (Expr.nodesAll es) ∧ Every P (Expr.nodesAll others) := by
  induction es with
  | nil => simp
  | cons e rest ih => simp [ih, and_assoc]

theorem insertMember_every (member : Member) {members : List Member}
    (own : Every P member.nodes) (holds : Every P (Member.nodesAll members)) :
    Every P (Member.nodesAll (insertMember member members)) := by
  induction members with
  | nil => simpa [insertMember] using own
  | cons m rest ih =>
    simp only [Member.nodesAll, every_append] at holds
    unfold insertMember
    split
    · simp [own, holds.2]
    · simp [holds.1, ih holds.2]

theorem appendMember_every {name : String} {value : Expr} {members : List Member}
    (own : Every P value.nodes) (holds : Every P (Member.nodesAll members)) :
    Every P (Member.nodesAll (appendMember name value members)) := by
  induction members with
  | nil => simpa [appendMember] using own
  | cons m rest ih =>
    simp only [Member.nodesAll, every_append] at holds
    unfold appendMember
    split
    · split
      · simp only [Member.nodes] at holds
        simp [every_nodesAll_append, own, holds]
      · simp [own, holds.2]
    · simp [holds.1, ih holds.2]

/-- The nodes of what has a place in a slot. -/
@[simp]
def Slot.nodes : Slot → List Node
  | .value e => e.nodes
  | .key _ => []
  | .iteration _ _ body => body.nodes

theorem Access.nodes_slots (access : Access) :
    access.nodes = access.container.nodes ++ access.slots.flatMap Slot.nodes := by
  cases access <;> simp [container, slots]

theorem Slot.nodes_values (values : List Expr) :
    (values.map .value).flatMap Slot.nodes = Expr.nodesAll values := by
  induction values with
  | nil => rfl
  | cons value rest ih => simp [ih]

/-- What has places in slots has a property where the arguments have it. -/
theorem Slot.every_of_holds {slots : List Slot} {args : List Expr}
    (holds : List.Forall₂ Slot.Holds slots args) (ofArgs : Every P (Expr.nodesAll args)) :
    Every P (slots.flatMap Slot.nodes) := by
  induction holds with
  | nil => exact every_nil
  | cons first _ ih =>
    obtain ⟨ofFirst, ofRest⟩ := every_append.1 ofArgs
    refine every_append.2 ⟨?_, ih ofRest⟩
    cases first with
    | value => exact ofFirst
    | key => exact every_nil
    | iteration => exact (every_cons.1 ofFirst).2

variable [AdmitsMade P]

namespace Expr

theorem select_every {receiver e : Expr} {name : String} (ok : receiver.select name = .ok e)
    (holds : Every P receiver.nodes) : Every P e.nodes := by
  unfold select at ok
  split at ok
  · split at ok
    · cases ok
      simp [made P]
    · split at ok
      · cases ok
        simp [made P]
      · cases ok
  · cases ok
    simp [made P]
  · cases ok
  · cases ok
    simpa [made P] using holds

/-- Whether an expression is neither the enclosing instance nor a value with a kind. -/
def isPlain : Expr → Bool
  | .this | .typed .. => false
  | _ => true

theorem withKind_every {value : Expr} (type : TypeInfo) (takesKind : value.takesKind)
    (holds : Every P value.nodes) : Every P (value.withKind type).nodes := by
  unfold withKind
  split
  · exact every_cons.2 ⟨made P _ takesKind, holds⟩
  · exact holds

theorem takesKind_of_takesUpKind {e : Expr} (takes : e.takesUpKind) : e.takesKind := by
  unfold takesUpKind at takes
  split at takes
  case h_8 => cases takes
  all_goals rfl

/-- A coercion gives a kind to what takes up one, or another kind to what has one. -/
theorem coerce_cases {e e' : Expr} {type : TypeInfo} (ok : e.coerce type = .ok e') :
    e' = e ∨ (e.takesUpKind ∧ e' = e.withKind type) ∨
      ∃ value kind, e = .typed value kind ∧ e' = value.withKind type := by
  unfold coerce at ok
  split at ok
  · exact .inl (Except.ok.inj ok).symm
  split at ok
  case h_1 | h_2 | h_3 =>
    split at ok <;> cases ok
    exact .inl rfl
  case h_4 value kind => exact .inr (.inr ⟨value, kind, rfl, (Except.ok.inj ok).symm⟩)
  case h_12 => exact .inl (Except.ok.inj ok).symm
  all_goals exact .inr (.inl ⟨rfl, (Except.ok.inj ok).symm⟩)

theorem coerce_every {e e' : Expr} {type : TypeInfo} (plain : e.isPlain)
    (ok : e.coerce type = .ok e') (holds : Every P e.nodes) : Every P e'.nodes := by
  rcases coerce_cases ok with rfl | ⟨takes, rfl⟩ | ⟨value, kind, rfl, _⟩
  · exact holds
  · exact withKind_every type (takesKind_of_takesUpKind takes) holds
  · cases plain

end Expr

/-! ### Calls -/

/-- A receiver with a kind has its value with the kind, or the literal can have it. -/
theorem Expr.every_of_kinded {receiver value : Expr} {kind : ValueKind}
    (kinded : receiver.kinded? = some (value, kind)) (holds : Every P receiver.nodes) :
    Every P (Expr.typed value kind).nodes := by
  unfold kinded? at kinded
  split at kinded <;> cases kinded
  · exact holds
  all_goals exact every_cons.2 ⟨made P _ rfl, holds⟩

section Calls

variable {site : CallSite} {receiver result : Expr}

theorem CallSite.invoke_every (args : Every P (Expr.nodesAll site.args))
    (holds : Every P receiver.nodes)
    (own : receiver = .this → P (.expr (.invocation .this site))) :
    Every P (site.invoke receiver).nodes := by
  obtain ⟨receiverType, method, returnType, args, argTypes⟩ := site
  simp only [invoke, Expr.nodes, CallSite.nodes, every_cons, every_append]
  refine ⟨?_, holds, args⟩
  cases receiver with
  | this => exact own rfl
  | _ => exact made P _ rfl

/-- What is added has its nodes from the receiver and from what the places hold, or they are
made. -/
theorem CallSite.Adds.every {slots : List Slot} (adds : site.Adds receiver result slots)
    (holds : Every P receiver.nodes) (ofSlots : Every P (slots.flatMap Slot.nodes))
    (own : receiver = .this → P (.expr (.invocation .this site))) : Every P result.nodes := by
  induction adds with
  | print stream arg => exact every_cons.2 ⟨made P _ rfl, by simpa using ofSlots⟩
  | list values => exact every_cons.2 ⟨made P _ rfl, by rwa [← Slot.nodes_values]⟩
  | put key value placed =>
    obtain rfl := placed.eq_insertMember
    obtain ⟨object, below⟩ := every_cons.1 holds
    exact every_cons.2 ⟨AdmitsMade.grown (.put _ _) object,
      insertMember_every (.single key value) (by simpa using ofSlots) below⟩
  | push values value =>
    refine every_cons.2 ⟨made P _ rfl, every_nodesAll_append.2 ⟨(every_cons.1 holds).2, ?_⟩⟩
    rwa [← Slot.nodes_values]
  | set type name value placed =>
    obtain rfl := placed.eq_insertMember
    obtain ⟨object, below⟩ := every_cons.1 holds
    exact every_cons.2 ⟨AdmitsMade.grown (.set _ _ _) object,
      insertMember_every (.single name value) (by simpa using ofSlots) below⟩
  | add type name value placed =>
    obtain rfl := placed.eq_appendMember
    obtain ⟨object, below⟩ := every_cons.1 holds
    exact every_cons.2 ⟨AdmitsMade.grown (.add _ _ _ _) object,
      appendMember_every (by simpa using ofSlots) below⟩
  | ask name resultType op => exact every_cons.2 ⟨made P _ rfl, every_nil⟩
  | access kinded access on =>
    obtain ⟨-, ofValue⟩ := every_cons.1 (Expr.every_of_kinded kinded holds)
    refine every_cons.2 ⟨made P _ rfl, ?_⟩
    rw [Access.nodes_slots, on]
    exact every_append.2 ⟨ofValue, ofSlots⟩
  | invokeKinded kinded =>
    rw [Slot.nodes_values] at ofSlots
    exact CallSite.invoke_every ofSlots (Expr.every_of_kinded kinded holds) fun isThis => by
      cases isThis
  | invoke incapable =>
    rw [Slot.nodes_values] at ofSlots
    exact CallSite.invoke_every ofSlots holds own
  | enclosed capable _ ih =>
    -- the enclosing instance is called in its parentheses, since it has no capabilities
    refine ih (every_cons.1 holds).2 ofSlots fun isThis => ?_
    rw [isThis] at capable
    cases capable

/-- The nodes of a call come from its receiver and its arguments, or are made; and if the receiver
is the enclosing instance, the call is a node on it. -/
theorem Expr.call_every {e : Expr} (args : Every P (Expr.nodesAll site.args))
    (ok : receiver.call site = .ok e) (holds : Every P receiver.nodes)
    (own : receiver = .this → P (.expr (.invocation .this site))) : Every P e.nodes := by
  obtain ⟨slots, invented, adds, invents, placed⟩ := keeps_of_call ok
  have ofInvented : Every P (Expr.nodesAll invented) := by
    cases invents with
    | nothing => exact every_nil
    | null | emptyText => simp [Expr.null, Expr.string, made P]
  exact adds.every holds (Slot.every_of_holds placed (every_nodesAll_append.2 ⟨args, ofInvented⟩))
    own

end Calls

namespace Expr

theorem constructWith_every {args : List Expr} {cls e : Expr} (ok : cls.constructWith args = .ok e)
    (holds : Every P (nodesAll args)) : Every P e.nodes := by
  have container {c : Container} {value : Expr} (ok : newContainer c args value = .ok e)
      (value : Every P value.nodes) : Every P e.nodes := by
    unfold newContainer at ok
    split at ok <;> cases ok
    exact value
  unfold constructWith at ok
  split at ok
  case h_1 | h_2 | h_3 | h_4 => exact container ok (by simp [made P])
  case h_5 type =>
    cases ok
    split
    · simp [made P]
    · simpa [made P] using holds
  case h_6 type | h_7 type =>
    cases ok
    simpa [made P] using holds
  case h_8 type =>
    split at ok <;> cases ok
    · simp [made P]
    · simpa [made P] using holds
  all_goals cases ok

theorem testInstance_every {cls : ClassType} {e e' : Expr} (ok : e.testInstance cls = .ok e')
    (holds : Every P e.nodes) : Every P e'.nodes := by
  unfold testInstance at ok
  split at ok <;> cases ok
  simpa [made P] using holds

theorem applyUnary_every {op : UnaryOp} {e e' : Expr} (ok : e.applyUnary op = .ok e')
    (holds : Every P e.nodes) : Every P e'.nodes := by
  unfold applyUnary at ok
  split at ok <;> cases ok
  simpa [made P] using holds

theorem sum_every {lhs rhs : Expr} (left : Every P lhs.nodes) (right : Every P rhs.nodes) :
    Every P (lhs.sum rhs).nodes := by
  unfold sum
  split
  · simp only [nodes, every_cons] at left
    simp [made P, every_nodesAll_append, left.2, right]
  · split
    · simp [made P, left, right]
    · simp [made P, left, right]

theorem applyBinary_every {op : BinaryOp} {lhs rhs e : Expr} (ok : lhs.applyBinary op rhs = .ok e)
    (left : Every P lhs.nodes) (right : Every P rhs.nodes) : Every P e.nodes := by
  unfold applyBinary at ok
  split at ok
  · cases ok
  · split at ok <;> cases ok
    · exact sum_every left right
    · simp [made P, left, right]

/-- The nodes of a reference come from its receiver, apart from the reference itself. -/
theorem refer_every {method : Signature} {receiver e : Expr} (ok : receiver.refer method = .ok e)
    (holds : Every P receiver.nodes)
    (own : receiver = .this → P (.expr (.methodReference .this method))) :
    Every P e.nodes := by
  unfold refer at ok
  split at ok <;> cases ok
  simp only [nodes, every_cons]
  refine ⟨?_, holds⟩
  cases receiver with
  | this => exact own rfl
  | _ => exact made P _ rfl

theorem isPlain_of_select {receiver e : Expr} {name : String} (ok : receiver.select name = .ok e) :
    e.isPlain := by
  unfold select at ok
  split at ok
  · split at ok
    · cases ok
      rfl
    · split at ok <;> cases ok
      rfl
  · cases ok
    rfl
  · cases ok
  · cases ok
    rfl

theorem isPlain_of_call {site : CallSite} {receiver e : Expr} (ok : receiver.call site = .ok e) :
    e.isPlain := by
  obtain ⟨slots, invented, adds, -, -⟩ := keeps_of_call ok
  clear ok
  induction adds with
  | enclosed _ _ ih => exact ih
  | _ => rfl

/-- A coercion gives the enclosing instance only if it is applied to it. -/
theorem coerce_ne_this {e e' : Expr} {type : TypeInfo} (plain : e.isPlain)
    (ok : e.coerce type = .ok e') : e' ≠ .this := by
  have withKind_ne {value : Expr} (own : value ≠ .this) : value.withKind type ≠ .this := by
    unfold withKind
    split
    · exact fun isThis => by cases isThis
    · exact own
  rintro rfl
  rcases coerce_cases ok with rfl | ⟨takes, isThis⟩ | ⟨value, kind, rfl, _⟩
  · cases plain
  · refine withKind_ne (fun isThis => ?_) isThis.symm
    rw [isThis] at plain
    cases plain
  · cases plain

theorem isPlain_of_constructWith {args : List Expr} {cls e : Expr}
    (ok : cls.constructWith args = .ok e) : e.isPlain := by
  unfold constructWith newContainer at ok
  split at ok
  case h_1 | h_2 | h_3 | h_4 | h_8 => split at ok <;> cases ok <;> rfl
  case h_5 =>
    cases ok
    split <;> rfl
  case h_6 | h_7 =>
    cases ok
    rfl
  all_goals cases ok

theorem isPlain_of_testInstance {cls : ClassType} {e e' : Expr}
    (ok : e.testInstance cls = .ok e') : e'.isPlain := by
  unfold testInstance at ok
  split at ok <;> cases ok
  rfl

theorem isPlain_of_applyUnary {op : UnaryOp} {e e' : Expr} (ok : e.applyUnary op = .ok e') :
    e'.isPlain := by
  unfold applyUnary at ok
  split at ok <;> cases ok
  rfl

theorem isPlain_of_applyBinary {op : BinaryOp} {lhs rhs e : Expr}
    (ok : lhs.applyBinary op rhs = .ok e) : e.isPlain := by
  unfold applyBinary at ok
  split at ok
  · cases ok
  · split at ok <;> cases ok
    · unfold sum
      split
      · rfl
      · split <;> rfl
    · rfl

theorem isPlain_of_refer {method : Signature} {receiver e : Expr}
    (ok : receiver.refer method = .ok e) : e.isPlain := by
  unfold refer at ok
  split at ok <;> cases ok
  rfl

theorem ne_this_of_isPlain {e : Expr} (plain : e.isPlain) : e ≠ .this := by
  rintro rfl
  cases plain

end Expr

end Polyscript.Model
