import Polyscript.Proofs.Model.Rendered
import Polyscript.Proofs.Model.Written
import Polyscript.Proofs.Spelling.Balance

/-!
# Balanced programs of JavaScript

A program of JavaScript has all its brackets closed, if what it takes over as it stands has no
delimiters in it: names, spellings of numbers and the indentation. Texts, keys, constants and
comments are free to have any.

## Main definitions

* `Unit.words`: the names and the spellings of numbers in a program.

## Main statements

* `Unit.balanced_of_render`: what is rendered in JavaScript is balanced.
-/

namespace Polyscript.Model

open Scanner Target
open Draft (IsClosed)

/-! ### Words -/

/-- The names and the spellings of numbers that a node has of its own. -/
def Node.words : Node → List String
  | .expr (.identifier name _) | .expr (.field _ name) | .expr (.asyncResult name _)
  | .expr (.asyncCall name _ _) | .expr (.access (.dataObjectGet _ name))
  | .expr (.access (.dataObjectSet _ name _)) => [name]
  | .expr (.literal value) => value.spelling?.toList
  | .expr (.invocation _ site) => [site.method.name]
  | .expr (.methodReference _ method) => [method.name]
  | .expr (.construct cls _) | .expr (.instanceOf _ cls) => [cls.name]
  | .expr (.cls cls) => cls.name?.toList
  | .expr (.lambda function) => function.paramNames
  | .expr (.asyncHandler handler) => [handler.name]
  | .expr (.access (.mapForEach _ key value _)) => [key, value]
  | .stmt (.varDecl _ _ name _) | .stmt (.tryCatch _ name _) | .stmt (.sequenceFor name _ _ _)
  | .stmt (.forEach name _ _ _) => [name]
  | _ => []

/-- The names and the spellings of numbers in a program. -/
def Unit.words (unit : Unit) : List String :=
  unit.fields.map (·.name) ++ (unit.methods.flatMap (fun m => m.signature.name :: m.paramNames) ++
    unit.nodes.flatMap Node.words)

/-- Whether every draft of a part closes whatever it opens. -/
def Part.IsClosed : Part → Prop
  | .expr isStatement e => ∀ inside, (e.draft .javascript inside isStatement).IsClosed
  | .stmt s => ∀ inside position, (s.draft .javascript inside position).IsClosed
  | .block b => ∀ inside, (b.draft .javascript inside).IsClosed

/-! ### One step -/

section Step

variable {es : List Expr} {value : Option Expr} {otherwise : Option Stmt} {receiver : Expr}
  {members : List Member} {body : LambdaBody}

theorem Expr.closed_drafts (parts : ∀ q ∈ es.map Part.operand, q.IsClosed) (inside : Bool) :
    ∀ d ∈ Expr.drafts .javascript inside es, d.IsClosed := by
  rw [Expr.drafts_eq]
  exact List.forall_mem_map.2 fun e mem => List.forall_mem_map.1 parts e mem inside

theorem Expr.closed_optionDraft (parts : ∀ q ∈ value.toList.map Part.operand, q.IsClosed)
    (inside : Bool) : ∀ d ∈ Expr.optionDraft .javascript inside value, d.IsClosed := by
  rw [Expr.optionDraft_eq]
  cases value with
  | none => simp
  | some e => simpa using parts (.operand e) (by simp) inside

theorem Stmt.closed_optionDraft (parts : ∀ q ∈ otherwise.toList.map Part.stmt, q.IsClosed)
    (inside : Bool) : ∀ d ∈ Stmt.optionDraft .javascript inside otherwise, d.IsClosed := by
  rw [Stmt.optionDraft_eq]
  cases otherwise with
  | none => simp
  | some s => simpa using parts (.stmt s) (by simp) inside .body

theorem Expr.closed_receiver (parts : ∀ q ∈ receiver.receiverParts, q.IsClosed) (inside : Bool) :
    receiver.isThis = false → (receiver.draft .javascript inside false).IsClosed := by
  intro notThis
  rw [Expr.receiverParts, notThis] at parts
  exact parts _ (List.mem_singleton_self _) inside

theorem Member.closed_drafts
    (parts : ∀ q ∈ (members.flatMap Member.values).map Part.operand, q.IsClosed) (inside : Bool) :
    ∀ m ∈ Member.drafts .javascript inside members, m.2.IsClosed := by
  rw [Member.drafts_eq]
  refine List.forall_mem_map.2 fun m mem => ?_
  have values : ∀ q ∈ m.values.map Part.operand, q.IsClosed := fun q isValue =>
    parts q (List.map_subset _ (fun e isValue => List.mem_flatMap.2 ⟨m, mem, isValue⟩) isValue)
  cases m with
  | single name value => exact values (.operand value) (List.mem_singleton_self _) inside
  | sequence name es => exact closed_listLiteral (Expr.closed_drafts values inside)

theorem LambdaBody.closed_draft {isStatement : Bool} (part : (body.part isStatement).IsClosed)
    (inside : Bool) : (body.draft .javascript inside isStatement).plain.IsClosed := by
  cases body <;> exact part inside

theorem AsyncHandler.closed_draft {handler : AsyncHandler} (plain : IsPlain handler.name)
    (parts : ∀ q ∈ handler.parts, q.IsClosed) (inside : Bool) :
    (handler.draft .javascript inside).IsClosed := by
  obtain ⟨name, paramType, resultType, body, succeeded, failed⟩ := handler
  have params := plain_handlerParams plain
  -- one branch that asks the result, and perhaps another one
  have split (op : AsyncOp) {branch : Draft} {other : Option Draft} (closed : branch.IsClosed)
      (closedOther : ∀ d ∈ other, d.IsClosed) :
      (conditionals .javascript [(Draft.text (asyncCall .javascript name op), branch)] other ++
        Draft.text "\n").IsClosed :=
    (closed_conditionals (List.forall_mem_singleton.2 ⟨.text (plain_asyncCall plain op), closed⟩)
      closedOther).write (by decide)
  cases succeeded with
  | some success =>
    have branches : ∀ q ∈ Part.stmt success :: failed.toList.map .stmt, q.IsClosed := by
      simpa [AsyncHandler.parts, AsyncHandler.isSplit] using parts
    obtain ⟨first, other⟩ := List.forall_mem_cons.1 branches
    exact closed_lambda params (split .succeeded (first inside .body)
      (Stmt.closed_optionDraft other inside))
  | none =>
    cases failed with
    | some failure =>
      have branch : (Part.stmt failure).IsClosed := by
        simpa [AsyncHandler.parts, AsyncHandler.isSplit] using parts
      exact closed_lambda params (split .failed (branch inside .body) (by simp))
    | none =>
      have part : (body.part false).IsClosed := by
        simpa [AsyncHandler.parts, AsyncHandler.isSplit] using parts
      exact closed_lambda params (LambdaBody.closed_draft part inside)

theorem Access.closed_draft {access : Access}
    (plain : ∀ word ∈ (Node.expr (.access access)).words, IsPlain word)
    (parts : ∀ q ∈ access.parts, q.IsClosed) (inside : Bool) :
    (access.draft .javascript inside).IsClosed := by
  cases access with
  | jsonObjectGet object key =>
    obtain ⟨object, key⟩ : _ ∧ _ := by simpa [Access.parts] using parts
    exact closed_jsonMember (object inside) (key inside)
  | jsonObjectPut object key value =>
    obtain ⟨object, key, assigned⟩ : _ ∧ _ ∧ _ := by simpa [Access.parts] using parts
    exact closed_jsonObjectPut value.isNull (object inside) (key inside) (assigned inside)
  | jsonObjectEncode container | jsonArrayEncode container =>
    exact closed_jsonEncode (parts _ (List.mem_singleton_self _) inside)
  | jsonArraySize container | listSize container =>
    exact closed_listSize (parts _ (List.mem_singleton_self _) inside)
  | jsonArrayGet container key | mapGet container key | listGet container key =>
    obtain ⟨container, key⟩ : _ ∧ _ := by simpa [Access.parts] using parts
    exact closed_element (container inside) (key inside)
  | jsonArrayAdd container value | listAdd container value =>
    obtain ⟨container, added⟩ : _ ∧ _ := by simpa [Access.parts] using parts
    exact closed_listAdd (container inside) (added inside)
  | dataObjectGet object name =>
    exact closed_fieldAccess (parts _ (List.mem_singleton_self _) inside)
      (plain name (List.mem_singleton_self _))
  | dataObjectSet object name value =>
    obtain ⟨object, assigned⟩ : _ ∧ _ := by simpa [Access.parts] using parts
    have plain := plain name (List.mem_singleton_self _)
    exact closed_assignment (closed_fieldAccess (object inside) plain) (assigned inside)
  | mapPut map key value =>
    obtain ⟨map, key, assigned⟩ : _ ∧ _ ∧ _ := by simpa [Access.parts] using parts
    exact closed_assignment (closed_element (map inside) (key inside)) (assigned inside)
  | mapForEach map key value body =>
    obtain ⟨map, body⟩ : _ ∧ _ := by simpa [Access.parts] using parts
    obtain ⟨plainKey, plainValue⟩ : _ ∧ _ := by simpa [Node.words] using plain
    exact closed_mapForEach (map inside) plainKey plainValue (LambdaBody.closed_draft body inside)

/-- The drafts of an expression are closed if its names are plain and its parts are closed. -/
theorem Expr.closed_draft {e : Expr} {isStatement : Bool}
    (plain : ∀ word ∈ (Node.expr e).words, IsPlain word) (parts : ∀ q ∈ e.parts, q.IsClosed)
    (inside : Bool) : (e.draft .javascript inside isStatement).IsClosed := by
  have own {name : String} (words : (Node.expr e).words = [name]) : IsPlain name :=
    plain name (words ▸ List.mem_singleton_self _)
  cases e with
  | identifier name scope => exact .text (plain_variableName scope (own rfl))
  | this | newMap | newList => exact fun _ => .text rfl
  | literal value =>
    exact closed_literal fun spelling mem => plain spelling (Option.mem_toList.2 mem)
  | concat es =>
    rw [Expr.draft, Expr.drafts_eq, List.zip_map']
    exact closed_concatenation (List.forall_mem_map.2 fun e mem =>
      parts _ (List.mem_map_of_mem mem) inside)
  | parenthesized inner => exact closed_parenthesized (parts _ (List.mem_singleton_self _) inside)
  | binary op lhs rhs =>
    obtain ⟨lhs, rhs⟩ : _ ∧ _ := by simpa [Expr.parts] using parts
    exact closed_binary op (lhs inside) (rhs inside)
  | unary op operand =>
    exact closed_unary _ _ op (parts _ (List.mem_singleton_self _) inside)
  | conditional cond yes no =>
    obtain ⟨cond, yes, no⟩ : _ ∧ _ ∧ _ := by simpa [Expr.parts] using parts
    exact closed_conditional (cond inside) (yes inside) (no inside)
  | assign target value =>
    obtain ⟨target, value⟩ : _ ∧ _ := by simpa [Expr.parts] using parts
    exact closed_assignment (target inside) (value inside)
  | field receiver name =>
    exact closed_fieldAccess (parts _ (List.mem_singleton_self _) inside) (own rfl)
  | invocation receiver site =>
    obtain ⟨receiverType, method, returnType, args, argTypes⟩ := site
    obtain ⟨receiver, args⟩ := List.forall_mem_append.1 parts
    exact closed_invocation (Expr.closed_receiver receiver inside) (own rfl)
      (Expr.closed_drafts args inside)
  | construct cls args => exact closed_construction (own rfl) (Expr.closed_drafts parts inside)
  | instanceOf e cls =>
    exact closed_instanceTest (own rfl) (parts _ (List.mem_singleton_self _) inside)
  | lambda function =>
    obtain ⟨paramNames, paramTypes, body⟩ := function
    exact closed_lambda plain
      (LambdaBody.closed_draft (parts _ (List.mem_singleton_self _)) inside)
  | asyncHandler handler => exact handler.closed_draft (own rfl) parts inside
  | methodReference receiver method =>
    exact closed_methodReference (Expr.closed_receiver parts inside) (own rfl) _
  | cls cls =>
    exact .text (plain_className fun name mem => plain name (Option.mem_toList.2 mem))
  | jsonObject members => exact closed_mapLiteral (Member.closed_drafts parts true)
  | dataObject type members => exact closed_mapLiteral (Member.closed_drafts parts inside)
  | jsonArray values => exact closed_listLiteral (Expr.closed_drafts parts true)
  | list values => exact closed_listLiteral (Expr.closed_drafts parts inside)
  | throwable type reason => exact closed_throwable type (Expr.closed_optionDraft parts inside)
  | enumConstant type constant => exact closed_quote constant
  | console stream => exact .fail _
  | consolePrint stream arg =>
    exact closed_consolePrint stream (parts _ (List.mem_singleton_self _) inside)
  | asyncResult name type => exact .text (plain_variableName _ (own rfl))
  | asyncCall name type op => exact .text (plain_asyncCall (own rfl) op)
  | typed value kind => exact parts _ (List.mem_singleton_self _) inside
  | access access => exact access.closed_draft plain parts inside

theorem Position.closed_finish (position : Position) {terminator : String}
    (plain : IsPlain terminator) {d : Draft} (closed : d.IsClosed) :
    (position.finish terminator d).IsClosed := by
  cases position with
  | part => exact closed
  | line | body => exact (closed.write plain).write (by decide)

/-- The drafts of a statement are closed if its names are plain and its parts are closed. -/
theorem Stmt.closed_draft {s : Stmt} (plain : ∀ word ∈ (Node.stmt s).words, IsPlain word)
    (parts : ∀ q ∈ s.parts, q.IsClosed) (inside : Bool) (position : Position) :
    (s.draft .javascript inside position).IsClosed := by
  have ended : IsPlain (terminator .javascript) := by decide
  have unended : IsPlain "" := by decide
  have own {name : String} (words : (Node.stmt s).words = [name]) : IsPlain name :=
    plain name (words ▸ List.mem_singleton_self _)
  cases s with
  | «return» value =>
    exact position.closed_finish ended (closed_returnValue (Expr.closed_optionDraft parts inside))
  | assign target value =>
    obtain ⟨target, value⟩ : _ ∧ _ := by simpa [Stmt.parts] using parts
    exact position.closed_finish ended (closed_assignment (target inside) (value inside))
  | varDecl scope type name init =>
    exact position.closed_finish ended
      (closed_varDecl scope type (own rfl) (Expr.closed_optionDraft parts inside))
  | conditionals branches otherwise =>
    obtain ⟨inBranches, last⟩ := List.forall_mem_append.1 parts
    refine position.closed_finish unended
      (closed_conditionals ?_ (Stmt.closed_optionDraft last inside))
    rw [Branch.drafts_eq]
    refine List.forall_mem_map.2 fun branch mem => ?_
    obtain ⟨cond, body⟩ : _ ∧ _ := by
      simpa using List.forall_mem_flatMap.1 inBranches branch mem
    exact ⟨cond inside, body inside .body⟩
  | tryCatch body param handler =>
    obtain ⟨body, handler⟩ : _ ∧ _ := by simpa [Stmt.parts] using parts
    exact position.closed_finish unended
      (closed_tryCatch (body inside .body) (own rfl) (handler inside .body))
  | throw type reason =>
    exact position.closed_finish ended (closed_throw type (Expr.closed_optionDraft parts inside))
  | block b =>
    have lines := parts (.block b) (List.mem_singleton_self _) inside
    cases position with
    | body => exact lines
    | part => exact closed_nestedBlock lines
    | line => exact Position.closed_finish .line unended (closed_nestedBlock lines)
  | loop init cond update body =>
    obtain ⟨init, cond, update, body⟩ : _ ∧ _ ∧ _ ∧ _ := by simpa [Stmt.parts] using parts
    exact position.closed_finish unended
      (closed_loop (init inside .part) (cond inside) (update inside) (body inside .body))
  | sequenceFor id start stop body =>
    obtain ⟨start, stop, body⟩ : _ ∧ _ ∧ _ := by simpa [Stmt.parts] using parts
    exact position.closed_finish unended
      (closed_sequenceFor (own rfl) (start inside) (stop inside) (body inside .body))
  | forEach element type iterable body =>
    obtain ⟨iterable, body⟩ : _ ∧ _ := by simpa [Stmt.parts] using parts
    exact position.closed_finish unended
      (closed_forEach (own rfl) (iterable inside) (body inside .body))
  | expr e => exact position.closed_finish ended (parts _ (List.mem_singleton_self _) inside)

/-- Statements between fragments, whatever the fragments are. -/
theorem Stmt.closed_drafts {stmts : List Stmt} (parts : ∀ q ∈ stmts.map Part.stmt, q.IsClosed)
    (inside : Bool) (fragments : List String) :
    (Stmt.drafts .javascript inside stmts fragments).IsClosed := by
  have leading (fragments : List String) :
      (Stmt.drafts.leadingFragment .javascript fragments).IsClosed := by
    cases fragments with
    | nil => exact .empty
    | cons fragment => exact closed_fragment fragment
  induction stmts generalizing fragments with
  | nil => exact leading fragments
  | cons s rest ih =>
    obtain ⟨first, others⟩ := List.forall_mem_cons.1 parts
    exact ((leading fragments).append (first inside .line)).append (ih others fragments.tail)

end Step

/-! ### Any depth -/

/-- The drafts of a part are closed if no node of it has a name with delimiters. -/
theorem Part.closed_of_plain (p : Part)
    (plain : ∀ node ∈ p.nodes, ∀ word ∈ node.words, IsPlain word) : p.IsClosed := by
  -- a part has nodes of its own, and those of the parts that it is drafted from
  induction p using Part.induction with
  | step p ih =>
    have own := plain p.node (mem_nodes.2 (.inl rfl))
    have parts : ∀ q ∈ p.parts, q.IsClosed := fun q isPart =>
      ih q isPart fun node mem => plain node (mem_nodes.2 (.inr (.inr ⟨q, isPart, mem⟩)))
    cases p with
    | expr isStatement e => exact Expr.closed_draft own parts
    | stmt s => exact Stmt.closed_draft own parts
    | block b =>
      obtain ⟨stmts, fragments⟩ := b
      exact fun inside => Stmt.closed_drafts parts inside fragments

/-! ### Programs -/

/-- The draft of a program whose names are plain is closed. -/
theorem Unit.closed_draft {unit : Unit} (plain : ∀ word ∈ unit.words, IsPlain word) :
    (unit.draft .javascript).IsClosed := by
  obtain ⟨ofFields, others⟩ := List.forall_mem_append.1 plain
  obtain ⟨ofMethods, ofNodes⟩ := List.forall_mem_append.1 others
  have parts : ∀ p ∈ unit.parts, p.IsClosed := fun p isPart =>
    p.closed_of_plain fun node mem word isWord =>
      ofNodes word (List.mem_flatMap.2 ⟨node, mem_nodes.2 (.inl ⟨p, isPart, mem⟩), isWord⟩)
  -- the parts are what fields begin with, the bodies of methods and the entry
  obtain ⟨inits, blocks⟩ := List.forall_mem_append.1 parts
  obtain ⟨bodies, last⟩ := List.forall_mem_append.1 blocks
  have gap : (Draft.mark .gap).IsClosed := .mark (by simp)
  have fields : ∀ d ∈ unit.fields.map fun field => field.draft .javascript ++
      Draft.text (terminator .javascript) ++ Draft.text "\n", d.IsClosed := by
    refine List.forall_mem_map.2 fun field mem => ?_
    have init := Expr.closed_optionDraft (List.forall_mem_flatMap.1 inits field mem) false
    have declared :=
      closed_varDecl .field field.type (List.forall_mem_map.1 ofFields field mem) init
    exact (declared.write (by decide)).write (by decide)
  have methods : ∀ d ∈ unit.methods.map fun method => Draft.mark .gap ++ method.draft .javascript ++
      Draft.text "\n", d.IsClosed := by
    refine List.forall_mem_map.2 fun method mem => ?_
    obtain ⟨plain, params⟩ :=
      List.forall_mem_cons.1 (List.forall_mem_flatMap.1 ofMethods method mem)
    have body := List.forall_mem_map.1 bodies method mem false
    exact (gap.append (closed_method plain params body)).write (by decide)
  have entry : (if unit.entry.stmts.isEmpty then Draft.empty
      else Draft.mark .gap ++ unit.entry.draft .javascript false).IsClosed := by
    split
    next => exact .empty
    next some =>
      rw [if_neg some] at last
      exact gap.append (last _ (List.mem_singleton_self _) false)
  exact ((IsClosed.concat fields).append (.concat methods)).append entry

/-- A program that is rendered in JavaScript is balanced, if neither its names nor the spellings of
its numbers nor the indentation have brackets, quotes or slashes in them. -/
theorem Unit.balanced_of_render {unit : Unit} {indent text : String}
    (plain : ∀ word ∈ unit.words, IsPlain word) (blank : IsPlain indent)
    (ok : unit.render .javascript indent = .ok text) : Text.IsBalanced text := by
  have unbroken := Unit.fault_of_render ok
  -- on the blank page no bracket is open yet
  have written := Unit.closed_draft plain [] unbroken _ (Page.scans_blank blank)
  rw [Unit.render, unbroken] at ok
  obtain rfl := Except.ok.inj ok
  exact written.text

/-- A program with delimiters in its texts, in a comment and in a key, with a division. -/
def signed : Unit where
  name := "demo.App"
  fields := [⟨"limit", .primitive .int, some (.binary .divide (.identifier "size" .global)
    (.literal (.int "2")))⟩]
  methods := []
  entry := ⟨[.expr (.access (.mapForEach (.identifier "counts" .variable) "key" "count"
      (.block (.ofStmts [.expr (.consolePrint .out (.string "\"(\\"))])))),
    .return (some (.jsonObject [.single "[" (.literal (.char '/'))]))],
    ["// an open ( and \"\n", "", ""]⟩

/-- What the program is written as. -/
def signedText : String :=
  "let limit = size / 2;\n\n// an open ( and \"\n" ++
    "Object.entries(counts).forEach(([key, count]) => \x7b\n" ++
    "  console.log(\"\\\"(\\\\\");\n\x7d);\nreturn \x7b\n  \"[\" : \"/\"\n\x7d;\n"

theorem balanced_of_render_signed : (∀ word ∈ signed.words, IsPlain word) ∧ IsPlain "  " ∧
    signed.render .javascript "  " = .ok signedText ∧ Text.IsBalanced signedText := by
  have plain : ∀ word ∈ signed.words, IsPlain word := by decide +kernel
  have renders : signed.render .javascript "  " = .ok signedText := by decide +kernel
  exact ⟨plain, by decide, renders, Unit.balanced_of_render plain (by decide) renders⟩

/-- A program with a block one level deep. -/
def guarded : Unit where
  name := "demo.App"
  fields := []
  methods := []
  entry := .ofStmts [.conditionals [⟨.identifier "ready" .variable, .return none⟩] none]

/-- An indentation with a bracket in it opens one in each line of a block. -/
theorem indentation_unbalanced : (∀ word ∈ guarded.words, IsPlain word) ∧
    guarded.render .javascript "(" = .ok "if (ready) \x7b\n(return;\n\x7d\n" ∧
    ¬Text.IsBalanced "if (ready) \x7b\n(return;\n\x7d\n" := by
  decide +kernel

end Polyscript.Model
