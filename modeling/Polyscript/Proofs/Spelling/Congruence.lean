import Mathlib.Data.List.Forall2
import Polyscript.Spelling.Container
import Polyscript.Spelling.Statement

/-!
# Relations that every spelling keeps

A draft can be written for a place inside a structured literal, where the ends of literals
are only marked, or for a place that is told whether it stands inside one. A relation between
the two kinds of drafts that is kept where drafts are put together, and where a literal
begins and ends, is kept by every spelling of every target language.
-/

namespace Polyscript

/-- What a relation between the drafts of a language has to be kept by. `R inside d d'`
relates `d`, which marks the ends of all its literals, to `d'`, which is told whether it
stands `inside` one. Only Kotlin makes a difference between the two. -/
structure Draft.Congruence (t : Target) (R : Bool → Draft → Draft → Prop) : Prop where
  empty {inside : Bool} : R inside .empty .empty
  text {inside : Bool} (s : String) : R inside (.text s) (.text s)
  fail {inside : Bool} (fault : Unsupported) : R inside (.fail fault) (.fail fault)
  append {inside : Bool} {d d' e e' : Draft} (first : R inside d d') (second : R inside e e') :
    R inside (d ++ e) (d' ++ e')
  indented {inside : Bool} {d d' : Draft} (same : R inside d d') :
    R inside d.indented d'.indented
  closedBy {inside : Bool} {d d' : Draft} (s : String) (same : R inside d d') :
    R inside (d.closedBy [.text s]) (d'.closedBy [.text s])
  jsonBlock {inside : Bool} {d d' : Draft} (isKotlin : t = .kotlin) (same : R true d d') :
    R inside (Target.jsonBlock true d) (Target.jsonBlock inside d')
  outside {inside : Bool} {d d' : Draft} (other : t ≠ .kotlin) (same : R true d d') :
    R inside d d'

/-- Bodies of lambdas whose drafts are related. -/
inductive BodyDraft.Rel (R : Draft → Draft → Prop) : BodyDraft → BodyDraft → Prop where
  | expr {d d' : Draft} (body : R d d') : Rel R (.expr d) (.expr d')
  | lines {d d' : Draft} (body : R d d') : Rel R (.lines d) (.lines d')

theorem BodyDraft.Rel.plain {R : Draft → Draft → Prop} {body body' : BodyDraft}
    (same : body.Rel R body') : R body.plain body'.plain := by
  cases same with
  | expr body => exact body
  | lines body => exact body

/-- Related drafts under the same names. -/
inductive Draft.Named {α : Type} (R : Draft → Draft → Prop) : α × Draft → α × Draft → Prop where
  | mk {d d' : Draft} (name : α) (same : R d d') : Named R (name, d) (name, d')

namespace Draft.Congruence

open Target

variable {t : Target} {R : Bool → Draft → Draft → Prop} (c : Draft.Congruence t R)
  {inside : Bool} {d d' e e' f f' : Draft} {ds ds' : List Draft} {body body' : BodyDraft}
  {value value' : Option Draft}

include c

theorem joined (separator : String) (same : List.Forall₂ (R inside) ds ds') :
    R inside (.joined separator ds) (.joined separator ds') := by
  induction same with
  | nil => exact c.empty
  | cons first rest ih =>
    cases rest with
    | nil => exact first
    | cons => exact c.append (c.append first (c.text separator)) ih

theorem concat (same : List.Forall₂ (R inside) ds ds') :
    R inside (.concat ds) (.concat ds') := by
  induction same with
  | nil => exact c.empty
  | cons first _ ih => exact c.append first ih

theorem braces (same : R inside d d') : R inside (braces d) (braces d') := by
  unfold Target.braces
  apply_rules [c.indented, c.text, c.append]

theorem asLines (same : body.Rel (R inside) body') : R inside body.asLines body'.asLines := by
  cases same with
  | expr body => exact c.append body (c.text "\n")
  | lines body => exact body

/-! ### Expressions -/

theorem concatenation {parts parts' : List (Option String × Draft)}
    (same : List.Forall₂ (Draft.Named (R inside)) parts parts') :
    R inside (t.concatenation parts) (t.concatenation parts') := by
  have template (opening : String) :
      R inside (t.template opening parts) (t.template opening parts') := by
    unfold Target.template
    refine c.append (c.append (c.text _) (c.concat (List.rel_map ?_ same))) (c.text _)
    rintro _ _ ⟨text, same⟩
    cases text with
    | some text => exact c.text _
    | none => exact c.append (c.append (c.text _) same) (c.text _)
  cases t with
  | javascript =>
    exact c.joined " + " (List.rel_map (by rintro _ _ ⟨_, same⟩; exact same) same)
  | _ => exact template _

theorem parenthesized (same : R inside d d') :
    R inside (parenthesized d) (parenthesized d') := by
  unfold Target.parenthesized
  apply_rules [c.text, c.append]

theorem binary (op : Model.BinaryOp) (lhs : R inside d d') (rhs : R inside e e') :
    R inside (t.binary op d e) (t.binary op d' e') := by
  unfold Target.binary
  apply_rules [c.text, c.append]

theorem unary (isStatement isCheck : Bool) (op : Model.UnaryOp) (same : R inside d d') :
    R inside (t.unary isStatement isCheck op d) (t.unary isStatement isCheck op d') := by
  have checked : R inside (if isCheck then Target.parenthesized d else d)
      (if isCheck then Target.parenthesized d' else d') := by
    split
    · exact c.parenthesized same
    · exact same
  cases t with
  | ruby =>
    simp only [Target.unary]
    split
    · split
      · refine c.append same ?_
        split <;> exact c.text _
      · exact c.fail _
    · exact c.append (c.text _) same
  | javascript =>
    simp only [Target.unary]
    split
    · exact c.append same (c.text _)
    · exact c.append (c.text _) checked
  | _ =>
    simp only [Target.unary]
    split
    · exact c.append same (c.text _)
    · exact c.append (c.text _) same

theorem conditional (cond : R inside d d') (yes : R inside e e') (no : R inside f f') :
    R inside (t.conditional d e f) (t.conditional d' e' f') := by
  unfold Target.conditional
  split <;> apply_rules [c.text, c.append]

theorem assignment (target : R inside d d') (value : R inside e e') :
    R inside (assignment d e) (assignment d' e') := by
  unfold Target.assignment
  apply_rules [c.text, c.append]

theorem fieldAccess (name : String) (receiver : R inside d d') :
    R inside (t.fieldAccess d name) (t.fieldAccess d' name) := by
  unfold Target.fieldAccess
  apply_rules [c.text, c.append]

theorem arguments (args : List.Forall₂ (R inside) ds ds') :
    R inside (arguments ds) (arguments ds') :=
  c.joined ", " args

theorem qualifier (isThis : Bool) (receiver : R inside d d') :
    R inside (qualifier isThis d) (qualifier isThis d') := by
  unfold Target.qualifier
  split
  · exact c.empty
  · exact c.append receiver (c.text ".")

theorem invocation (isThis : Bool) (method : String) (receiver : R inside d d')
    (args : List.Forall₂ (R inside) ds ds') :
    R inside (t.invocation isThis d method ds) (t.invocation isThis d' method ds') := by
  unfold Target.invocation
  apply_rules [c.qualifier, c.arguments, c.text, c.append]

theorem construction (type : ClassType) (args : List.Forall₂ (R inside) ds ds') :
    R inside (t.construction type ds) (t.construction type ds') := by
  unfold Target.construction
  split <;> apply_rules [c.arguments, c.text, c.append]

theorem throwable (type : ClassType) (reason : Option.Rel (R inside) value value') :
    R inside (t.throwable type value) (t.throwable type value') := by
  unfold Target.throwable
  cases reason with
  | none =>
    split
    · exact c.append (c.append (c.text _) c.empty) (c.text _)
    · exact c.construction type .nil
  | some reason =>
    split
    · exact c.append (c.append (c.text _) reason) (c.text _)
    · exact c.construction type (.cons reason .nil)

theorem instanceTest (type : ClassType) (same : R inside d d') :
    R inside (t.instanceTest d type) (t.instanceTest d' type) := by
  unfold Target.instanceTest
  split
  · split
    · exact c.fail _
    · apply_rules [c.text, c.append]
  all_goals apply_rules [c.text, c.append]

theorem arrowBody (same : body.Rel (R inside) body') :
    R inside (arrowBody body) (arrowBody body') := by
  cases same with
  | expr body => exact body
  | lines body => exact c.braces body

theorem closureBody (same : body.Rel (R inside) body') :
    R inside (closureBody body) (closureBody body') := by
  cases same with
  | expr body => exact c.append (c.append (c.text _) body) (c.text _)
  | lines body => exact c.append (c.append (c.text _) (c.indented body)) (c.text _)

theorem groovyClosure (params : List String) (same : body.Rel (R inside) body') :
    R inside (groovyClosure params body) (groovyClosure params body') := by
  unfold Target.groovyClosure
  refine c.append (c.append (c.text _) ?_) (c.closureBody same)
  split
  · exact c.empty
  · apply_rules [c.text, c.append]

theorem lambda (params : List String) (same : body.Rel (R inside) body') :
    R inside (t.lambda params body) (t.lambda params body') := by
  unfold Target.lambda
  split
  · apply_rules [c.arrowBody, c.text, c.append]
  · exact c.groovyClosure params same
  · refine c.append (c.append (c.text _) ?_) (c.closureBody same)
    split
    · exact c.empty
    · apply_rules [c.text, c.append]
  · refine c.append (c.append (c.append (c.text _) ?_) (c.indented (c.asLines same))) (c.text _)
    split <;> apply_rules [c.text, c.append]

theorem methodReference (isThis : Bool) (method : String) (arity : Nat)
    (receiver : R inside d d') :
    R inside (t.methodReference isThis d method arity)
      (t.methodReference isThis d' method arity) := by
  unfold Target.methodReference
  split <;> apply_rules [c.qualifier, c.text, c.append]

theorem consolePrint (stream : Model.Stream) (arg : R inside d d') :
    R inside (t.consolePrint stream d) (t.consolePrint stream d') := by
  unfold Target.consolePrint
  split <;> apply_rules [c.text, c.append]

/-! ### Containers -/

section Containers

variable {ms ms' : List (String × Draft)}

theorem memberLines (opening closing : String) (members : List.Forall₂ (R inside) ds ds') :
    R inside (memberLines opening closing ds) (memberLines opening closing ds') := by
  -- the depth is raised and restored around the members, whatever brackets are written
  have shape (ds : List Draft) : Target.memberLines opening closing ds =
      Draft.text opening ++ "\n" ++ (Draft.joined ",\n" ds).indented ++ "\n" ++ closing := by
    simp only [Target.memberLines, Draft.indented, Draft.append_assoc]
  rw [shape, shape]
  apply_rules [c.indented, c.joined, c.text, c.append]

theorem entries (separator : String) (members : List.Forall₂ (Draft.Named (R inside)) ms ms') :
    List.Forall₂ (R inside) (t.entries separator ms) (t.entries separator ms') := by
  refine List.rel_map ?_ members
  rintro _ _ ⟨name, same⟩
  exact c.append (c.append (c.text _) (c.text _)) same

theorem mapLiteral (members : List.Forall₂ (Draft.Named (R inside)) ms ms') :
    R inside (t.mapLiteral ms) (t.mapLiteral ms') := by
  have lines (opening closing separator : String) :
      R inside (Target.memberLines opening closing (t.entries separator ms))
        (Target.memberLines opening closing (t.entries separator ms')) :=
    c.memberLines opening closing (c.entries separator members)
  unfold Target.mapLiteral
  cases members with
  | nil => cases t <;> exact c.text _
  | cons => cases t <;> exact lines _ _ _

theorem pairs (isKotlin : t = .kotlin) (members : List.Forall₂ (Draft.Named (R inside)) ms ms') :
    R inside (pairs ms) (pairs ms') := by
  subst isKotlin
  unfold Target.pairs
  rw [members.length_eq]
  have lines := c.joined ("," ++ if 1 < ms'.length then "\n" else "") (c.entries " to " members)
  apply_rules [c.indented, c.text, c.append]

/-- An object whose members stand inside it. -/
theorem jsonObject (members : List.Forall₂ (Draft.Named (R true)) ms ms') :
    R inside (t.jsonObject true ms) (t.jsonObject inside ms') := by
  by_cases isKotlin : t = .kotlin
  · subst isKotlin
    exact c.jsonBlock rfl (c.pairs rfl members)
  · have literal : R inside (t.mapLiteral ms) (t.mapLiteral ms') :=
      c.outside isKotlin (c.mapLiteral members)
    cases t with
    | kotlin => exact absurd rfl isKotlin
    | _ => exact literal

theorem listLiteral (values : List.Forall₂ (R inside) ds ds') :
    R inside (t.listLiteral ds) (t.listLiteral ds') := by
  unfold Target.listLiteral
  split <;> apply_rules [c.arguments, c.text, c.append]

/-- An array whose values stand inside it. -/
theorem jsonArray (values : List.Forall₂ (R true) ds ds') :
    R inside (t.jsonArray true ds) (t.jsonArray inside ds') := by
  by_cases isKotlin : t = .kotlin
  · subst isKotlin
    exact c.jsonBlock rfl (c.closedBy ")" (c.append (c.text _) (c.arguments values)))
  · have literal : R inside (t.listLiteral ds) (t.listLiteral ds') :=
      c.outside isKotlin (c.listLiteral values)
    cases t with
    | kotlin => exact absurd rfl isKotlin
    | _ => exact literal

theorem dataObject (type : ClassType) (members : List.Forall₂ (Draft.Named (R inside)) ms ms') :
    R inside (t.dataObject type ms) (t.dataObject type ms') := by
  unfold Target.dataObject
  split
  · cases members with
    | nil => exact c.append (c.text _) (c.text _)
    | cons first others =>
      refine c.append (c.append (c.append (c.text _) (c.text _)) ?_) (c.text _)
      refine c.indented (c.joined _ (List.rel_map ?_ (.cons first others)))
      rintro _ _ ⟨name, same⟩
      exact c.append (c.append (c.text _) (c.text _)) same
  · exact c.mapLiteral members

theorem element (container : R inside d d') (key : R inside e e') :
    R inside (element d e) (element d' e') := by
  unfold Target.element
  apply_rules [c.text, c.append]

theorem memberCall (method : String) (container : R inside d d')
    (args : List.Forall₂ (R inside) ds ds') :
    R inside (memberCall d method ds) (memberCall d' method ds') := by
  unfold Target.memberCall
  apply_rules [c.arguments, c.text, c.append]

theorem jsonMember (text : Option String) (object : R inside d d') (key : R inside e e') :
    R inside (t.jsonMember d e text) (t.jsonMember d' e' text) := by
  unfold Target.jsonMember
  split
  · split
    · exact c.append (c.append object (c.text _)) (c.text _)
    · exact c.element object key
  · exact c.element object key

theorem jsonObjectGet (text : Option String) (object : R inside d d') (key : R inside e e') :
    R inside (t.jsonObjectGet d e text) (t.jsonObjectGet d' e' text) := by
  unfold Target.jsonObjectGet
  split
  · exact c.memberCall _ object (.cons key .nil)
  · exact c.jsonMember text object key

theorem jsonObjectPut (text : Option String) (isNull : Bool) (object : R inside d d')
    (key : R inside e e') (value : R inside f f') :
    R inside (t.jsonObjectPut d e f text isNull) (t.jsonObjectPut d' e' f' text isNull) := by
  unfold Target.jsonObjectPut
  split
  · split
    · exact c.memberCall _ object (.cons key .nil)
    · exact c.memberCall _ object (.cons key (.cons value .nil))
  · exact c.append (c.append (c.jsonMember text object key) (c.text _)) value

theorem jsonEncode (value : R inside d d') :
    R inside (t.jsonEncode d) (t.jsonEncode d') := by
  cases t with
  | kotlin => exact c.memberCall _ value .nil
  | _ => exact c.append (c.append (c.text _) value) (c.text _)

theorem jsonArrayGet (array : R inside d d') (index : R inside e e') :
    R inside (t.jsonArrayGet d e) (t.jsonArrayGet d' e') := by
  cases t with
  | kotlin => exact c.memberCall _ array (.cons index .nil)
  | _ => exact c.element array index

theorem listAdd (list : R inside d d') (value : R inside e e') :
    R inside (t.listAdd d e) (t.listAdd d' e') := by
  cases t <;> exact c.memberCall _ list (.cons value .nil)

theorem jsonArrayAdd (isNull : Bool) (array : R inside d d') (value : R inside e e') :
    R inside (t.jsonArrayAdd d e isNull) (t.jsonArrayAdd d' e' isNull) := by
  unfold Target.jsonArrayAdd
  split
  · split
    · exact c.memberCall _ array .nil
    · exact c.memberCall _ array (.cons value .nil)
  · exact c.listAdd array value

theorem listSize (list : R inside d d') : R inside (t.listSize d) (t.listSize d') := by
  cases t with
  | groovy => exact c.memberCall _ list .nil
  | _ => exact c.append list (c.text _)

theorem jsonArraySize (array : R inside d d') :
    R inside (t.jsonArraySize d) (t.jsonArraySize d') := by
  unfold Target.jsonArraySize
  split
  · exact c.memberCall _ array .nil
  · exact c.listSize array

theorem property (name : String) (object : R inside d d') :
    R inside (t.property d name) (t.property d' name) := by
  unfold Target.property
  split
  · exact c.element object (c.text _)
  · exact c.fieldAccess name object

theorem mapForEach (key value : String) (map : R inside d d')
    (same : body.Rel (R inside) body') :
    R inside (t.mapForEach d key value body) (t.mapForEach d' key value body') := by
  have lines := c.asLines same
  unfold Target.mapForEach
  split <;> apply_rules [c.indented, c.arrowBody, c.groovyClosure, c.text, c.append]

end Containers

/-! ### Statements -/

section Statements

theorem fragment (s : String) : R inside (t.fragment s) (t.fragment s) := by
  have line (chars : List Char) : R inside (t.fragmentLine chars) (t.fragmentLine chars) := by
    unfold fragmentLine
    split
    · exact c.text _
    · exact c.append (c.text _) (c.text _)
    · exact c.empty
  exact c.concat (List.rel_map (by rintro chars _ rfl; exact line chars)
    (List.forall₂_eq_eq_eq.symm ▸ rfl))

theorem nestedBlock (same : R inside d d') :
    R inside (t.nestedBlock d) (t.nestedBlock d') := by
  unfold Target.nestedBlock
  split <;> apply_rules [c.indented, c.braces, c.text, c.append]

theorem returnValue (same : Option.Rel (R inside) value value') :
    R inside (returnValue value) (returnValue value') := by
  cases same with
  | none => exact c.text _
  | some same => exact c.append (c.text _) same

theorem varDecl (scope : Model.Scope) (type : TypeInfo) (name : String)
    (same : Option.Rel (R inside) value value') :
    R inside (t.varDecl scope type name value) (t.varDecl scope type name value') := by
  cases same with
  | none =>
    cases t with
    | groovy =>
      refine c.append (c.append (c.text _) (c.text _)) ?_
      simp only
      split
      · exact c.text _
      · exact c.empty
    | javascript => exact c.append (c.append (c.text _) (c.text _)) c.empty
    | _ => exact c.append (c.append (c.text _) (c.text _)) (c.text _)
  | some same =>
    cases t with
    | ruby => exact c.append (c.append (c.text _) (c.text _)) same
    | _ => exact c.append (c.append (c.text _) (c.text _)) (c.append (c.text _) same)

theorem conditionals {branches branches' : List (Draft × Draft)}
    (same : List.Forall₂ (fun b b' => R inside b.1 b'.1 ∧ R inside b.2 b'.2) branches branches')
    (otherwise : Option.Rel (R inside) value value') :
    R inside (t.conditionals branches value) (t.conditionals branches' value') := by
  cases t with
  | ruby =>
    -- the first branch is spelled otherwise than the ones after it
    simp only [Target.conditionals]
    refine c.append (c.append (c.concat ?_) ?_) (c.text _)
    · refine List.rel_append (List.rel_map ?_ (List.forall₂_take 1 same))
        (List.rel_map ?_ (List.forall₂_drop 1 same))
      all_goals
        intro b b' same
        exact c.append (c.append (c.append (c.text _) same.1) (c.text _)) (c.indented same.2)
    · cases otherwise with
      | none => exact c.empty
      | some body => exact c.append (c.text _) (c.indented body)
  | _ =>
    simp only [Target.conditionals]
    refine c.append (c.joined _ (List.rel_map ?_ same)) ?_
    · intro b b' same
      exact c.append (c.append (c.append (c.text _) same.1) (c.text _)) (c.braces same.2)
    · cases otherwise with
      | none => exact c.empty
      | some body => exact c.append (c.text _) (c.braces body)

theorem tryCatch (param : String) (tried : R inside d d') (handler : R inside e e') :
    R inside (t.tryCatch d param e) (t.tryCatch d' param e') := by
  unfold Target.tryCatch
  split <;> apply_rules [c.indented, c.braces, c.text, c.append]

theorem throw (type : ClassType) (reason : Option.Rel (R inside) value value') :
    R inside (t.throw type value) (t.throw type value') := by
  unfold Target.throw
  split
  · cases reason with
    | none => exact c.text _
    | some reason => exact c.append (c.text _) reason
  · exact c.append (c.text _) (c.throwable type reason)

theorem loop {init init' : Draft} (first : R inside init init') (cond : R inside d d')
    (update : R inside e e') (lines : R inside f f') :
    R inside (t.loop init d e f) (t.loop init' d' e' f') := by
  unfold Target.loop
  split <;> apply_rules [c.indented, c.braces, c.text, c.append]

theorem sequenceFor (id : String) (start : R inside d d') (stop : R inside e e')
    (lines : R inside f f') :
    R inside (t.sequenceFor id d e f) (t.sequenceFor id d' e' f') := by
  unfold Target.sequenceFor
  split <;> apply_rules [c.indented, c.braces, c.text, c.append]

theorem forEach (element : String) (iterable : R inside d d') (lines : R inside e e') :
    R inside (t.forEach element d e) (t.forEach element d' e') := by
  unfold Target.forEach
  split <;> apply_rules [c.indented, c.braces, c.text, c.append]

theorem method (signature : Signature) (params : List String) (lines : R inside d d') :
    R inside (t.method signature params d) (t.method signature params d') := by
  unfold Target.method
  split <;> apply_rules [c.indented, c.braces, c.text, c.append]

end Statements

end Draft.Congruence

end Polyscript
