import Mathlib.Data.List.Basic
import Polyscript.Spelling.Container
import Polyscript.Spelling.Statement

/-!
# What makes a draft break off

A draft that is put together breaks off exactly if one of its parts does. So does what the
target languages spell, with two exceptions that break off by themselves: steps by one inside
an expression of Ruby, and tests for an enum in JavaScript.
-/

namespace Polyscript

/-- Whether a draft does not break off. -/
def Draft.Unbroken (d : Draft) : Prop := d.fault = none

namespace Draft

variable {d e : Draft} {ds : List Draft}

@[simp] theorem unbroken_empty : Draft.empty.Unbroken := rfl

@[simp] theorem unbroken_text (s : String) : (Draft.text s).Unbroken := rfl

@[simp] theorem unbroken_mark (m : Mark) : (Draft.mark m).Unbroken := rfl

@[simp] theorem not_unbroken_fail (fault : Unsupported) : ¬ (Draft.fail fault).Unbroken :=
  Option.some_ne_none fault

@[simp] theorem unbroken_append : (d ++ e).Unbroken ↔ d.Unbroken ∧ e.Unbroken := by
  unfold Unbroken
  cases broken : d.fault with
  | some fault => simp [append_of_fault broken, broken]
  | none => simp [append_of_unbroken broken]

@[simp] theorem unbroken_closedBy (marks : List Mark) :
    (d.closedBy marks).Unbroken ↔ d.Unbroken :=
  Iff.rfl

@[simp] theorem unbroken_indented : d.indented.Unbroken ↔ d.Unbroken := by
  simp [Draft.indented]

@[simp] theorem unbroken_concat : (Draft.concat ds).Unbroken ↔ ∀ d ∈ ds, d.Unbroken := by
  induction ds with
  | nil => simp [Draft.concat]
  | cons d rest ih => simp [Draft.concat, ih]

@[simp] theorem unbroken_joined (separator : String) :
    (Draft.joined separator ds).Unbroken ↔ ∀ d ∈ ds, d.Unbroken := by
  induction ds with
  | nil => simp [Draft.joined]
  | cons d rest ih =>
    cases rest with
    | nil => simp [Draft.joined]
    | cons => simp [Draft.joined, ih]

end Draft

namespace Target

open Draft

variable {t : Target} {d e f : Draft} {ds : List Draft} {body : BodyDraft}
  {value : Option Draft}

@[simp] theorem unbroken_braces : (braces d).Unbroken ↔ d.Unbroken := by
  simp [braces]

@[simp] theorem unbroken_asLines : body.asLines.Unbroken ↔ body.plain.Unbroken := by
  cases body <;> simp [BodyDraft.asLines, BodyDraft.plain]

/-! ### Expressions -/

/-- The parts of a concatenation that are texts are written without their drafts. -/
theorem unbroken_concatenation {parts : List (Option String × Draft)}
    (texts : ∀ part ∈ parts, part.1.isSome → part.2.Unbroken) :
    (t.concatenation parts).Unbroken ↔ ∀ part ∈ parts, part.2.Unbroken := by
  have template (opening : String) :
      (t.template opening parts).Unbroken ↔ ∀ part ∈ parts, part.2.Unbroken := by
    simp only [template, unbroken_append, unbroken_text, unbroken_concat, List.forall_mem_map,
      true_and, and_true]
    refine forall₂_congr fun part mem => ?_
    obtain ⟨text, d⟩ := part
    cases text with
    | some text => simpa using texts _ mem rfl
    | none => simp
  cases t with
  | javascript => rw [concatenation, unbroken_joined, List.forall_mem_map]
  | _ => exact template _

@[simp] theorem unbroken_parenthesized : (parenthesized d).Unbroken ↔ d.Unbroken := by
  simp [parenthesized]

@[simp] theorem unbroken_binary (op : Model.BinaryOp) :
    (t.binary op d e).Unbroken ↔ d.Unbroken ∧ e.Unbroken := by
  simp [binary]

/-- Only Ruby refuses an operator: a step by one that is not a statement. -/
@[simp] theorem unbroken_unary (isStatement isCheck : Bool) (op : Model.UnaryOp) :
    (t.unary isStatement isCheck op d).Unbroken ↔
      ¬ (t = .ruby ∧ op.isStep ∧ isStatement = false) ∧ d.Unbroken := by
  cases t with
  | ruby =>
    cases step : op.isStep <;> cases isStatement <;> simp [unary, step]
    cases op <;> simp
  | javascript => cases behind : op.isPostfix <;> cases isCheck <;> simp [unary, behind]
  | groovy | kotlin => cases behind : op.isPostfix <;> simp [unary, behind]

@[simp] theorem unbroken_conditional :
    (t.conditional d e f).Unbroken ↔ d.Unbroken ∧ e.Unbroken ∧ f.Unbroken := by
  cases t <;> simp [conditional, and_assoc]

@[simp] theorem unbroken_assignment :
    (assignment d e).Unbroken ↔ d.Unbroken ∧ e.Unbroken := by
  simp [assignment]

@[simp] theorem unbroken_fieldAccess (name : String) :
    (t.fieldAccess d name).Unbroken ↔ d.Unbroken := by
  simp [fieldAccess]

@[simp] theorem unbroken_arguments : (arguments ds).Unbroken ↔ ∀ d ∈ ds, d.Unbroken := by
  simp [arguments]

@[simp] theorem unbroken_qualifier (isThis : Bool) :
    (qualifier isThis d).Unbroken ↔ (isThis = false → d.Unbroken) := by
  cases isThis <;> simp [qualifier]

@[simp] theorem unbroken_invocation (isThis : Bool) (method : String) :
    (t.invocation isThis d method ds).Unbroken ↔
      (isThis = false → d.Unbroken) ∧ ∀ d ∈ ds, d.Unbroken := by
  simp [invocation]

@[simp] theorem unbroken_construction (type : ClassType) :
    (t.construction type ds).Unbroken ↔ ∀ d ∈ ds, d.Unbroken := by
  cases t <;> simp [construction]

@[simp] theorem unbroken_throwable (type : ClassType) :
    (t.throwable type value).Unbroken ↔ ∀ d ∈ value, d.Unbroken := by
  cases t <;> cases value <;> simp [throwable]

/-- Only JavaScript refuses a test: one for an enum. -/
@[simp] theorem unbroken_instanceTest (type : ClassType) :
    (t.instanceTest d type).Unbroken ↔
      ¬ (t = .javascript ∧ type.kind = .enum) ∧ (d.Unbroken) := by
  cases t <;> simp [instanceTest]
  split <;> simp [*]

@[simp] theorem unbroken_arrowBody : (arrowBody body).Unbroken ↔ body.plain.Unbroken := by
  cases body <;> simp [arrowBody, BodyDraft.plain]

@[simp] theorem unbroken_closureBody : (closureBody body).Unbroken ↔ body.plain.Unbroken := by
  cases body <;> simp [closureBody, BodyDraft.plain]

@[simp] theorem unbroken_groovyClosure (params : List String) :
    (groovyClosure params body).Unbroken ↔ body.plain.Unbroken := by
  unfold groovyClosure
  split <;> simp

@[simp] theorem unbroken_lambda (params : List String) :
    (t.lambda params body).Unbroken ↔ body.plain.Unbroken := by
  cases t with
  | ruby | kotlin => simp only [lambda]; split <;> simp
  | javascript | groovy => simp [lambda]

/-- Groovy writes the receiver of a reference even if it is `this`. -/
theorem unbroken_methodReference (isThis : Bool) (method : String) (arity : Nat)
    (this : isThis → d.Unbroken) :
    (t.methodReference isThis d method arity).Unbroken ↔ (isThis = false → d.Unbroken) := by
  cases t with
  | kotlin => simp only [methodReference]; split <;> simp
  | groovy => cases isThis <;> simp_all [methodReference]
  | javascript | ruby => simp [methodReference]

@[simp] theorem unbroken_consolePrint (stream : Model.Stream) :
    (t.consolePrint stream d).Unbroken ↔ d.Unbroken := by
  cases t <;> cases stream <;> simp [consolePrint]

/-! ### Containers -/

section Containers

variable {ms : List (String × Draft)}

@[simp] theorem unbroken_memberLines (opening closing : String) :
    (memberLines opening closing ds).Unbroken ↔ ∀ d ∈ ds, d.Unbroken := by
  simp [memberLines]

@[simp] theorem unbroken_entries (separator : String) :
    (∀ d ∈ t.entries separator ms, d.Unbroken) ↔ ∀ m ∈ ms, m.2.Unbroken := by
  rw [entries, List.forall_mem_map]
  simp

@[simp] theorem unbroken_mapLiteral :
    (t.mapLiteral ms).Unbroken ↔ ∀ m ∈ ms, m.2.Unbroken := by
  cases ms with
  | nil => cases t <;> simp [mapLiteral]
  | cons m rest =>
    cases t <;>
      simp only [mapLiteral, List.isEmpty_cons, Bool.false_eq_true, if_false,
        unbroken_memberLines, unbroken_entries]

@[simp] theorem unbroken_jsonBlock (insideJson : Bool) :
    (jsonBlock insideJson d).Unbroken ↔ d.Unbroken := by
  cases insideJson <;> simp [jsonBlock]

@[simp] theorem unbroken_pairs : (pairs ms).Unbroken ↔ ∀ m ∈ ms, m.2.Unbroken := by
  simp [pairs]

@[simp] theorem unbroken_jsonObject (insideJson : Bool) :
    (t.jsonObject insideJson ms).Unbroken ↔ ∀ m ∈ ms, m.2.Unbroken := by
  cases t <;> simp [jsonObject]

@[simp] theorem unbroken_listLiteral :
    (t.listLiteral ds).Unbroken ↔ ∀ d ∈ ds, d.Unbroken := by
  cases t <;> simp [listLiteral]

@[simp] theorem unbroken_jsonArray (insideJson : Bool) :
    (t.jsonArray insideJson ds).Unbroken ↔ ∀ d ∈ ds, d.Unbroken := by
  cases t <;> simp [jsonArray]

@[simp] theorem unbroken_dataObject (type : ClassType) :
    (t.dataObject type ms).Unbroken ↔ ∀ m ∈ ms, m.2.Unbroken := by
  cases t with
  | kotlin =>
    cases ms with
    | nil => simp [dataObject]
    | cons m rest =>
      simp only [dataObject, List.isEmpty_cons, Bool.false_eq_true, if_false, unbroken_append,
        unbroken_text, unbroken_indented, unbroken_joined, List.forall_mem_map, true_and, and_true]
  | _ => exact unbroken_mapLiteral

@[simp] theorem unbroken_element : (element d e).Unbroken ↔ d.Unbroken ∧ e.Unbroken := by
  simp [element]

@[simp] theorem unbroken_memberCall (method : String) :
    (memberCall d method ds).Unbroken ↔ d.Unbroken ∧ ∀ d ∈ ds, d.Unbroken := by
  simp [memberCall]

/-- A key that is a literal may be written as a name, without its draft. -/
theorem unbroken_jsonMember {text : Option String} (key : text.isSome → e.Unbroken) :
    (t.jsonMember d e text).Unbroken ↔ d.Unbroken ∧ e.Unbroken := by
  unfold jsonMember
  split
  · split <;> simp_all
  · simp

theorem unbroken_jsonObjectGet {text : Option String} (key : text.isSome → e.Unbroken) :
    (t.jsonObjectGet d e text).Unbroken ↔ d.Unbroken ∧ e.Unbroken := by
  cases t <;> simp [jsonObjectGet, unbroken_jsonMember key]

/-- Kotlin puts `null` without the draft of the value. -/
theorem unbroken_jsonObjectPut {text : Option String} {isNull : Bool}
    (key : text.isSome → e.Unbroken) (null : isNull → f.Unbroken) :
    (t.jsonObjectPut d e f text isNull).Unbroken ↔
      d.Unbroken ∧ e.Unbroken ∧ f.Unbroken := by
  cases t with
  | kotlin => cases isNull <;> simp_all [jsonObjectPut]
  | _ => simp [jsonObjectPut, unbroken_jsonMember key, and_assoc]

@[simp] theorem unbroken_jsonEncode : (t.jsonEncode d).Unbroken ↔ d.Unbroken := by
  cases t <;> simp [jsonEncode]

@[simp] theorem unbroken_jsonArrayGet :
    (t.jsonArrayGet d e).Unbroken ↔ d.Unbroken ∧ e.Unbroken := by
  cases t <;> simp [jsonArrayGet]

@[simp] theorem unbroken_listAdd :
    (t.listAdd d e).Unbroken ↔ d.Unbroken ∧ e.Unbroken := by
  cases t <;> simp [listAdd]

/-- Kotlin adds `null` without the draft of the value. -/
theorem unbroken_jsonArrayAdd {isNull : Bool} (null : isNull → e.Unbroken) :
    (t.jsonArrayAdd d e isNull).Unbroken ↔ d.Unbroken ∧ e.Unbroken := by
  cases t with
  | kotlin => cases isNull <;> simp_all [jsonArrayAdd]
  | _ => simp [jsonArrayAdd]

@[simp] theorem unbroken_listSize : (t.listSize d).Unbroken ↔ d.Unbroken := by
  cases t <;> simp [listSize]

@[simp] theorem unbroken_jsonArraySize : (t.jsonArraySize d).Unbroken ↔ d.Unbroken := by
  cases t <;> simp [jsonArraySize]

@[simp] theorem unbroken_property (name : String) :
    (t.property d name).Unbroken ↔ d.Unbroken := by
  cases t <;> simp [property]

@[simp] theorem unbroken_mapForEach (key value : String) :
    (t.mapForEach d key value body).Unbroken ↔ d.Unbroken ∧ body.plain.Unbroken := by
  cases t <;> simp [mapForEach]

end Containers

/-! ### Statements -/

section Statements

@[simp] theorem unbroken_fragment (s : String) : (t.fragment s).Unbroken := by
  have line (chars : List Char) : (t.fragmentLine chars).Unbroken := by
    unfold fragmentLine
    split <;> simp
  simp [fragment, line]

@[simp] theorem unbroken_nestedBlock : (t.nestedBlock d).Unbroken ↔ d.Unbroken := by
  cases t <;> simp [nestedBlock]

@[simp] theorem unbroken_returnValue :
    (returnValue value).Unbroken ↔ ∀ d ∈ value, d.Unbroken := by
  cases value <;> simp [returnValue]

@[simp] theorem unbroken_varDecl (scope : Model.Scope) (type : TypeInfo) (name : String) :
    (t.varDecl scope type name value).Unbroken ↔ ∀ d ∈ value, d.Unbroken := by
  cases t <;> cases value <;> simp [varDecl]
  split <;> simp

@[simp] theorem unbroken_conditionals {branches : List (Draft × Draft)} :
    (t.conditionals branches value).Unbroken ↔
      (∀ b ∈ branches, b.1.Unbroken ∧ b.2.Unbroken) ∧ ∀ d ∈ value, d.Unbroken := by
  cases t with
  | ruby =>
    cases branches with
    | nil => cases value <;> simp [conditionals]
    | cons first rest =>
      simp only [conditionals, List.take_succ_cons, List.take_zero, List.drop_succ_cons,
        List.drop_zero, List.map_cons, List.map_nil, List.singleton_append, unbroken_append,
        unbroken_concat, List.forall_mem_cons, List.forall_mem_map, unbroken_text,
        unbroken_indented, true_and, and_true]
      cases value <;> simp
  | _ =>
    simp only [conditionals, unbroken_append, unbroken_joined, List.forall_mem_map, unbroken_text,
      unbroken_braces, true_and, and_true]
    cases value <;> simp

@[simp] theorem unbroken_tryCatch (param : String) :
    (t.tryCatch d param e).Unbroken ↔ d.Unbroken ∧ e.Unbroken := by
  cases t <;> simp [tryCatch]

@[simp] theorem unbroken_throw (type : ClassType) :
    (t.throw type value).Unbroken ↔ ∀ d ∈ value, d.Unbroken := by
  cases t <;> cases value <;> simp [throw]

@[simp] theorem unbroken_loop {init : Draft} :
    (t.loop init d e f).Unbroken ↔
      init.Unbroken ∧ d.Unbroken ∧ e.Unbroken ∧ f.Unbroken := by
  cases t <;> simp [loop] <;> tauto

@[simp] theorem unbroken_sequenceFor (id : String) :
    (t.sequenceFor id d e f).Unbroken ↔ d.Unbroken ∧ e.Unbroken ∧ f.Unbroken := by
  cases t <;> simp [sequenceFor, and_assoc]

@[simp] theorem unbroken_forEach (element : String) :
    (t.forEach element d e).Unbroken ↔ d.Unbroken ∧ e.Unbroken := by
  cases t <;> simp [forEach]

@[simp] theorem unbroken_method (signature : Signature) (params : List String) :
    (t.method signature params d).Unbroken ↔ d.Unbroken := by
  cases t <;> simp [method]

end Statements

end Target

end Polyscript
