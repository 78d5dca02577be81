import Polyscript.Proofs.Layout.Opening

/-!
# What the spellings of constructs begin with

A construct whose spelling begins with an operand writes a sign behind it that opens no brace: a
point, a bracket, an operator or a blank. So the construct begins with a brace if the operand does.

## Main statements

* `Target.precedes_binary` and its like: which operand a construct begins with.
* `Target.opening_unary`: an operator in front of its operand opens no brace.
-/

namespace Polyscript

open Draft

namespace Target

variable {t : Target} {d e f : Draft}

/-! ### Expressions -/

theorem precedes_concatenation (text : Option String) (parts : List (Option String × Draft)) :
    d.Precedes (concatenation .javascript ((text, d) :: parts)) := by
  cases parts with
  | nil => exact .refl d
  | cons part rest =>
    change d.Precedes (d ++ " + " ++ joined " + " ((part :: rest).map Prod.snd))
    rw [append_assoc]
    exact precedes_text rfl (by decide) _ _

theorem precedes_binary (op : Model.BinaryOp) : d.Precedes (t.binary op d e) := by
  simp only [binary, append_assoc]
  exact precedes_text rfl (by decide) _ _

/-- Whether a unary operation is written behind its operand: a step by one that Ruby writes as an
assignment, or an operator that follows its operand. -/
def isBehind (t : Target) (isStatement : Bool) (op : Model.UnaryOp) : Bool :=
  match t with
  | .ruby => isStatement && op.isStep
  | _ => op.isPostfix

theorem precedes_unary {isStatement : Bool} (isCheck : Bool) {op : Model.UnaryOp}
    (behind : t.isBehind isStatement op) : d.Precedes (t.unary isStatement isCheck op d) := by
  have sign (s : String) (noBrace : s.toList.head? ≠ some '\x7b') : d.Precedes (d ++ text s) :=
    ⟨text s, rfl, by rwa [opening_text]⟩
  cases t with
  | ruby =>
    obtain ⟨rfl, step⟩ : isStatement = true ∧ op.isStep = true := by simpa [isBehind] using behind
    cases op with
    | postIncrement | preIncrement => exact sign " += 1" (by decide)
    | postDecrement | preDecrement => exact sign " -= 1" (by decide)
    | not | minus | plus => cases step
  | javascript | groovy | kotlin =>
    cases op with
    | postIncrement | postDecrement => exact sign _ (by decide)
    | _ => cases behind

/-- Before its operand, an operation begins with its operator. Ruby has no steps by one inside
expressions. -/
theorem opening_unary {isStatement : Bool} (isCheck : Bool) {op : Model.UnaryOp}
    (before : t.isBehind isStatement op = false) :
    (t.unary isStatement isCheck op d).opening ≠ some '\x7b' := by
  have sign (rest : Draft) : (text op.symbol ++ rest).opening ≠ some '\x7b' := by
    rw [opening_text_append]
    intro same
    cases op <;> cases same
  cases t with
  | ruby =>
    cases step : op.isStep with
    | false =>
      simp only [unary, step]
      exact sign d
    | true =>
      -- a step inside an expression breaks off, and nothing is written for it
      have inside : isStatement = false := by simpa [isBehind, step] using before
      simp only [unary, step, inside]
      intro same
      cases same
  | javascript | groovy | kotlin =>
    have notBehind : op.isPostfix = false := before
    simp only [unary, notBehind]
    exact sign _

theorem precedes_conditional (notKotlin : t ≠ .kotlin) : d.Precedes (t.conditional d e f) := by
  cases t with
  | kotlin => exact absurd rfl notKotlin
  | javascript | groovy | ruby =>
    simp only [conditional, append_assoc]
    exact precedes_text rfl (by decide) _ _

theorem precedes_assignment : d.Precedes (assignment d e) := by
  rw [assignment, append_assoc]
  exact precedes_text rfl (by decide) _ _

theorem precedes_fieldAccess (name : String) : d.Precedes (t.fieldAccess d name) := by
  rw [fieldAccess, append_assoc]
  exact precedes_text rfl (by decide) _ _

theorem precedes_invocation (method : String) (args : List Draft) :
    d.Precedes (t.invocation false d method args) := by
  simp only [invocation, qualifier, Bool.false_eq_true, if_false, append_assoc]
  exact precedes_text rfl (by decide) _ _

/-- A call of a method of the enclosing instance begins with the name of the method. -/
theorem precedes_ownCall (method : String) (args : List Draft) :
    (text (t.methodName method)).Precedes (t.invocation true d method args) := by
  simp only [invocation, qualifier, if_true, empty_append, append_assoc]
  exact precedes_text rfl (by decide) _ _

/-- Ruby begins a construction with the name of the class. -/
theorem precedes_construction (type : ClassType) (args : List Draft) :
    (text type.simpleName).Precedes (construction .ruby type args) := by
  simp only [construction, append_assoc]
  exact precedes_text rfl (by decide) _ _

theorem precedes_instanceTest {c : ClassType} (unbroken : (t.instanceTest d c).Unbroken) :
    d.Precedes (t.instanceTest d c) := by
  rw [unbroken_instanceTest] at unbroken
  unfold instanceTest
  cases t with
  | javascript =>
    rw [if_neg fun isEnum => unbroken.1 ⟨rfl, isEnum⟩, append_assoc]
    exact precedes_text rfl (by decide) _ _
  | groovy | ruby | kotlin =>
    simp only [append_assoc]
    exact precedes_text rfl (by decide) _ _

theorem precedes_methodReference (isShort : t = .groovy ∨ t = .ruby) (method : String)
    (arity : Nat) : d.Precedes (t.methodReference false d method arity) := by
  rcases isShort with rfl | rfl <;>
    simp only [methodReference, qualifier, Bool.false_eq_true, if_false, append_assoc] <;>
    exact precedes_text rfl (by decide) _ _

/-! ### Containers -/

theorem precedes_element : d.Precedes (element d e) := by
  simp only [element, append_assoc]
  exact precedes_text rfl (by decide) _ _

theorem precedes_memberCall (method : String) (args : List Draft) :
    d.Precedes (memberCall d method args) := by
  simp only [memberCall, append_assoc]
  exact precedes_text rfl (by decide) _ _

theorem precedes_jsonMember (text : Option String) : d.Precedes (t.jsonMember d e text) := by
  unfold jsonMember
  split
  · split
    · rw [append_assoc]
      exact precedes_text rfl (by decide) _ _
    · exact precedes_element
  · exact precedes_element

theorem precedes_jsonObjectGet (text : Option String) :
    d.Precedes (t.jsonObjectGet d e text) := by
  unfold jsonObjectGet
  split
  · exact precedes_memberCall _ _
  · exact precedes_jsonMember text

theorem precedes_jsonObjectPut (text : Option String) (isNull : Bool) :
    d.Precedes (t.jsonObjectPut d e f text isNull) := by
  unfold jsonObjectPut
  split
  · split <;> exact precedes_memberCall _ _
  · exact (precedes_jsonMember text).trans precedes_assignment

theorem precedes_jsonArrayGet : d.Precedes (t.jsonArrayGet d e) := by
  unfold jsonArrayGet
  split
  · exact precedes_memberCall _ _
  · exact precedes_element

theorem precedes_listAdd : d.Precedes (t.listAdd d e) := by
  unfold listAdd
  split <;> exact precedes_memberCall _ _

theorem precedes_jsonArrayAdd (isNull : Bool) : d.Precedes (t.jsonArrayAdd d e isNull) := by
  unfold jsonArrayAdd
  split
  · split <;> exact precedes_memberCall _ _
  · exact precedes_listAdd

theorem precedes_listSize : d.Precedes (t.listSize d) := by
  unfold listSize
  split
  case h_3 => exact precedes_memberCall _ _
  all_goals exact ⟨_, rfl, by decide⟩

theorem precedes_jsonArraySize : d.Precedes (t.jsonArraySize d) := by
  unfold jsonArraySize
  split
  · exact precedes_memberCall _ _
  · exact precedes_listSize

theorem precedes_property (name : String) : d.Precedes (t.property d name) := by
  unfold property
  split
  · exact precedes_element
  · exact precedes_fieldAccess name

theorem precedes_mapForEach (isMethod : t = .groovy ∨ t = .ruby) (key value : String)
    (body : BodyDraft) : d.Precedes (t.mapForEach d key value body) := by
  rcases isMethod with rfl | rfl <;> simp only [mapForEach, append_assoc] <;>
    exact precedes_text rfl (by decide) _ _

end Target

end Polyscript
