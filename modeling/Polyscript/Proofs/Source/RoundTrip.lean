import Polyscript.Proofs.Json.Outline
import Polyscript.Proofs.Json.Reading
import Polyscript.Source.Decode

/-!
# Programs are read back

Whatever the outline of a program admits is read as the program: what is written of it, and what
differs from that in the order of fields and in fields left out. The induction is on the trees;
a node is read because its fields are found and their contents are read. The room that is left
never runs out, since what is written is no deeper than the room of the reader.

## Main statements

* `Source.Program.ofText?_of_admits`: a program is read back from its printed form, and from the
  printed form of everything else that its outline admits.
-/

namespace Polyscript

namespace Json

/-- Whether a reader gives a value back from all that an outline admits, as long as its room is
large enough. -/
def Outline.ReadBy {α : Type} (read : Nat → Json → Option α) (o : Outline) (x : α) : Prop :=
  ∀ room j, o.Within room j → read room j = some x

section Plain

variable {room : Nat} {j : Json}

theorem string?_of_within {value : String} (within : (Outline.text value).Within room j) :
    j.string? = some value := by
  rw [within.eq_text]
  rfl

theorem bool?_of_within {value : Bool} (within : (Outline.bool value).Within room j) :
    j.bool? = some value := by
  rw [within.eq_bool]
  rfl

theorem natural?_of_within {value : Nat} (within : (Outline.natural value).Within room j) :
    natural? UInt64.size j = some value := by
  obtain ⟨rfl, fits⟩ := within.eq_natural
  exact digits?_toString _ _ fits

theorem symbol?_of_within {id : SymbolId} (within : id.outline.Within room j) :
    SymbolId.ofJson? j = some id := by
  have digits : natural? SymbolId.bound (natural id.toNat) = some id.toNat :=
    digits?_toString _ _ id.toNat_lt
  obtain ⟨rfl, _⟩ := Outline.Within.eq_natural within
  rw [SymbolId.ofJson?, digits, Option.map_some, UInt32.ofNat_toNat]

end Plain

/-! ### Lists and values that may be missing -/

section Several

variable {α : Type} {read : Nat → Json → Option α}

theorem mapM_of_within {room : Nat} {os : List Outline} {js : List Json} {xs : List α}
    (within : List.Forall₂ (Outline.Within room) os js)
    (reads : List.Forall₂ (Outline.ReadBy read) os xs) : js.mapM (read room) = some xs := by
  induction within generalizing xs with
  | nil =>
    cases reads
    rfl
  | cons here further ih =>
    cases reads with
    | cons reads readsRest => simp [reads room _ here, ih readsRest]

theorem Outline.ReadBy.list {os : List Outline} {xs : List α}
    (reads : List.Forall₂ (Outline.ReadBy read) os xs) :
    (Outline.list os).ReadBy (Source.listOfJson? read) xs := by
  intro room j within
  obtain ⟨room, js, rfl, rfl, items⟩ := within.list
  simp [Source.listOfJson?, items?, mapM_of_within items reads]

/-- The items of a list whose outlines are given one by one. -/
theorem Outline.ReadBy.map {write : α → Outline} (reads : ∀ x, (write x).ReadBy read x)
    (xs : List α) : (Outline.list (xs.map write)).ReadBy (Source.listOfJson? read) xs :=
  .list (List.forall₂_map_left_iff.2 (List.forall₂_same.2 fun x _ => reads x))

/-- Nothing is written as `null`. -/
theorem Outline.ReadBy.absent : Outline.null.ReadBy (fun room => nullable? (read room)) none := by
  intro room j within
  rw [within.eq_null]
  rfl

/-- A value that is there is read by its own reader, unless that accepts `null`. -/
theorem Outline.ReadBy.present {o : Outline} {x : α} (noNull : ∀ room, read room .null = none)
    (reads : o.ReadBy read x) : o.ReadBy (fun room => nullable? (read room)) (some x) := by
  intro room j within
  have reads := reads room j within
  cases j with
  | null => rw [noNull] at reads; cases reads
  | _ => simp [nullable?, reads]

end Several

theorem Outline.text_readBy (value : String) :
    (Outline.text value).ReadBy (fun _ => string?) value :=
  fun _ _ => string?_of_within

/-- A text that may be missing. -/
theorem Outline.nullable_text_readBy (value : Option String) :
    (Outline.nullable (value.map .text)).ReadBy (fun _ => nullable? string?) value := by
  cases value with
  | none => exact .absent
  | some value => exact .present (fun _ => rfl) (Outline.text_readBy value)

theorem texts?_eq (room : Nat) : texts? room = Source.listOfJson? (fun _ => string?) room := by
  funext value
  cases room <;> rfl

/-- An alternative without content is its name, which leads to it in the table of the reader. -/
theorem Outline.ReadBy.oneOf {α : Type} {table : List (String × α)} {tag : String} {x : α}
    (listed : table.lookup tag = some x) : (Outline.text tag).ReadBy (oneOf? table) x := by
  intro room j within
  rw [within.eq_text]
  exact listed

/-! ### Fields -/

namespace Field.FoundIn

variable {α : Type} {room : Nat} {r : Record Json} {name : String}
  {read : Nat → Json → Option α} {o : Outline}

theorem text {value : String} (found : (Field.required name (.text value)).FoundIn room r) :
    r.required name string? = some value :=
  found.required fun _ => string?_of_within

theorem symbol {id : SymbolId} (found : (Field.required name id.outline).FoundIn room r) :
    r.required name SymbolId.ofJson? = some id :=
  found.required fun _ => symbol?_of_within

theorem flag {value : Bool}
    (found : (Field.optional name (!value) (.bool value)).FoundIn room r) :
    r.optional name false bool? = some value :=
  found.optional (by simp) fun _ => bool?_of_within

theorem node {x : α} (found : (Field.required name o).FoundIn room r) (reads : o.ReadBy read x) :
    r.required name (read room) = some x :=
  found.required (reads room)

theorem items {xs : List α} (found : (Field.optional name xs.isEmpty o).FoundIn room r)
    {read : Nat → Json → Option (List α)} (reads : o.ReadBy read xs) :
    r.optional name [] (read room) = some xs :=
  found.optional List.isEmpty_iff.1 (reads room)

theorem option {x : Option α} (found : (Field.optional name x.isNone o).FoundIn room r)
    (reads : o.ReadBy (fun room => nullable? (read room)) x) :
    r.optional name none (nullable? (read room)) = some x :=
  found.optional Option.isNone_iff_eq_none.1 (reads room)

theorem table {κ : Type} [Ord κ] [Std.TransOrd κ] {t : Table κ α}
    {read : Nat → Json → Option (Table κ α)}
    (found : (Field.optional name t.entries.isEmpty o).FoundIn room r)
    (reads : o.ReadBy read t) : r.optional name ∅ (read room) = some t := by
  refine found.optional (fun none => ?_) (reads room)
  obtain ⟨entries, sorted⟩ := t
  obtain rfl : entries = [] := List.isEmpty_iff.1 none
  rfl

end Field.FoundIn

end Json

namespace Source

open Json (Outline Field oneOf? nullable? record?)

/-! ### Alternatives without content -/

theorem SymbolKind.readBy (kind : SymbolKind) :
    (Outline.text kind.tag).ReadBy SymbolKind.ofJson? kind :=
  .oneOf (by cases kind <;> rfl)

theorem ClassDeclKind.readBy (kind : ClassDeclKind) :
    (Outline.text kind.tag).ReadBy ClassDeclKind.ofJson? kind :=
  .oneOf (by cases kind <;> rfl)

theorem BinaryKind.readBy (op : BinaryKind) : (Outline.text op.tag).ReadBy BinaryKind.ofJson? op :=
  .oneOf (by cases op <;> rfl)

theorem UnaryKind.readBy (op : UnaryKind) : (Outline.text op.tag).ReadBy UnaryKind.ofJson? op :=
  .oneOf (by cases op <;> rfl)

theorem RefMode.readBy (mode : RefMode) : (Outline.text mode.tag).ReadBy RefMode.ofJson? mode :=
  .oneOf (by cases mode <;> rfl)

theorem primitive_readBy (kind : Primitive) :
    (Outline.text kind.keyword).ReadBy primitiveOfJson? kind :=
  .oneOf (by cases kind <;> rfl)

/-! ### Spans, literals and types -/

theorem Span.readBy (span : Span) : span.outline.ReadBy Span.ofJson? span := by
  intro room j within
  obtain ⟨inner, r, rfl, fields, start, stop⟩ := within.struct ["start", "end"] rfl (by decide)
  simp [Span.ofJson?, fields, start.required fun _ => Json.natural?_of_within,
    stop.required fun _ => Json.natural?_of_within]

/-- The range of a node is read, also if it is left out. -/
theorem Span.optional_of_found {span : Span} {room : Nat} {r : Record Json}
    (found : span.field.FoundIn room r) :
    r.optional "span" {} (Span.ofJson? room) = some span :=
  found.optional of_decide_eq_true (span.readBy room)

theorem Literal.readBy (value : Literal) : value.outline.ReadBy Literal.ofJson? value := by
  intro room j within
  cases value with
  | null =>
    rw [Outline.Within.eq_text within]
    rfl
  | boolean value =>
    obtain ⟨inner, body, rfl, chosen, content⟩ := Outline.Within.choice within
    simp [Literal.ofJson?, chosen, Json.bool?_of_within content]
  | char value =>
    obtain ⟨inner, body, rfl, chosen, content⟩ := Outline.Within.choice within
    have single : (String.singleton value).toList = [value] := by simp
    simp [Literal.ofJson?, chosen, Json.char?, Json.string?_of_within content, single]
  | _ =>
    obtain ⟨inner, body, rfl, chosen, content⟩ := Outline.Within.choice within
    simp [Literal.ofJson?, chosen, Json.string?_of_within content]

theorem Ty.listOfJson?_eq (room : Nat) :
    Ty.listOfJson? room = Source.listOfJson? Ty.ofJson? room := by
  funext value
  cases room <;> rfl

mutual

theorem Ty.readBy (ty : Ty) : ty.outline.ReadBy Ty.ofJson? ty := by
  intro room j within
  cases ty with
  | primitive kind =>
    obtain ⟨inner, body, rfl, chosen, content⟩ := Outline.Within.choice within
    simp [Ty.ofJson?, chosen, primitive_readBy kind inner body content]
  | void =>
    rw [Outline.Within.eq_text within]
    cases room <;> rfl
  | null =>
    rw [Outline.Within.eq_text within]
    cases room <;> rfl
  | declared name args =>
    obtain ⟨inner, body, r, rfl, chosen, fields, nameIn, argsIn⟩ :=
      Outline.Within.form within ["name", "args"] rfl (by decide)
    simp [Ty.ofJson?, Ty.declaredOfJson?, Ty.listOfJson?_eq, chosen, fields, nameIn.text,
      argsIn.items (.list (Ty.readBy_all args))]
  | array component =>
    obtain ⟨inner, body, rfl, chosen, content⟩ := Outline.Within.choice within
    simp [Ty.ofJson?, chosen, component.readBy inner body content]
  | «variable» name =>
    obtain ⟨inner, body, rfl, chosen, content⟩ := Outline.Within.choice within
    simp [Ty.ofJson?, chosen, Json.string?_of_within content]

theorem Ty.readBy_all (tys : List Ty) :
    List.Forall₂ (Outline.ReadBy Ty.ofJson?) (Ty.outlines tys) tys := by
  cases tys with
  | nil => exact .nil
  | cons ty rest => exact .cons ty.readBy (Ty.readBy_all rest)

end

theorem LambdaParam.readBy (param : LambdaParam) :
    param.outline.ReadBy LambdaParam.ofJson? param := by
  intro room j within
  obtain ⟨inner, r, rfl, fields, nameIn, symIn, tyIn, explicitIn⟩ :=
    within.struct ["name", "sym", "ty", "explicit_type"] rfl (by decide)
  simp [LambdaParam.ofJson?, fields, nameIn.text, symIn.symbol, tyIn.node param.ty.readBy,
    explicitIn.flag]

/-! ### Expressions and statements -/

section Reading

variable (room : Nat)

theorem Expr.listOfJson?_eq : Expr.listOfJson? room = Source.listOfJson? Expr.ofJson? room := by
  funext value
  cases room <;> rfl

theorem Expr.paramsOfJson?_eq :
    Expr.ofJson?.paramsOfJson? room = Source.listOfJson? LambdaParam.ofJson? room := by
  funext value
  cases room <;> rfl

theorem Arg.listOfJson?_eq : Arg.listOfJson? room = Source.listOfJson? Arg.ofJson? room := by
  funext value
  cases room <;> rfl

theorem CatchClause.listOfJson?_eq :
    CatchClause.listOfJson? room = Source.listOfJson? CatchClause.ofJson? room := by
  funext value
  cases room <;> rfl

theorem Stmt.listOfJson?_eq : Stmt.listOfJson? room = Source.listOfJson? Stmt.ofJson? room := by
  funext value
  cases room <;> rfl

theorem Expr.ofJson?_null : Expr.ofJson? room .null = none := by
  match room with
  | 0 | 1 | _ + 2 => rfl

theorem Block.ofJson?_null : Block.ofJson? room .null = none := by
  cases room <;> rfl

theorem Stmt.ofJson?_null : Stmt.ofJson? room .null = none := by
  match room with
  | 0 | 1 | _ + 2 => rfl

end Reading

/-- A block takes a level of its own. -/
theorem Block.room_of_within {room : Nat} {j : Json} {block : Block}
    (within : block.outline.Within room j) : ∃ inner, room = inner + 1 := by
  obtain ⟨stmts, span⟩ := block
  obtain ⟨inner, _, room, _⟩ :=
    Outline.Within.struct within ["stmts", "span"] rfl (by decide)
  exact ⟨inner, room⟩

/-- The declaration of a variable takes a level of its own. -/
theorem VarDecl.room_of_within {room : Nat} {j : Json} {decl : VarDecl}
    (within : decl.outline.Within room j) : ∃ inner, room = inner + 1 := by
  obtain ⟨name, sym, ty, init, span⟩ := decl
  obtain ⟨inner, _, room, _⟩ :=
    Outline.Within.struct within ["name", "sym", "ty", "init", "span"] rfl (by decide)
  exact ⟨inner, room⟩

mutual

theorem Expr.readBy (e : Expr) : e.outline.ReadBy Expr.ofJson? e := by
  intro room j within
  cases e with
  | ident name sym span =>
    obtain ⟨room, body, r, rfl, chosen, fields, nameIn, symIn, spanIn⟩ :=
      Outline.Within.form within ["name", "sym", "span"] rfl (by decide)
    rw [Expr.ofJson?, chosen]
    change Option.bind (record? _ body) _ = _
    simp [fields, nameIn.text, symIn.symbol, Span.optional_of_found spanIn]
  | literal value span =>
    obtain ⟨room, body, r, rfl, chosen, fields, valueIn, spanIn⟩ :=
      Outline.Within.form within ["value", "span"] rfl (by decide)
    rw [Expr.ofJson?, chosen]
    change Option.bind (record? _ body) _ = _
    simp [fields, valueIn.node value.readBy, Span.optional_of_found spanIn]
  | binary op lhs rhs span =>
    obtain ⟨room, body, r, rfl, chosen, fields, opIn, lhsIn, rhsIn, spanIn⟩ :=
      Outline.Within.form within ["op", "lhs", "rhs", "span"] rfl (by decide)
    rw [Expr.ofJson?, chosen]
    change Option.bind (record? _ body) _ = _
    simp [fields, opIn.node op.readBy, lhsIn.node lhs.readBy,
      rhsIn.node rhs.readBy, Span.optional_of_found spanIn]
  | unary op operand span =>
    obtain ⟨room, body, r, rfl, chosen, fields, opIn, operandIn, spanIn⟩ :=
      Outline.Within.form within ["op", "operand", "span"] rfl (by decide)
    rw [Expr.ofJson?, chosen]
    change Option.bind (record? _ body) _ = _
    simp [fields, opIn.node op.readBy, operandIn.node operand.readBy,
      Span.optional_of_found spanIn]
  | assign target value span =>
    obtain ⟨room, body, r, rfl, chosen, fields, targetIn, valueIn, spanIn⟩ :=
      Outline.Within.form within ["target", "value", "span"] rfl (by decide)
    rw [Expr.ofJson?, chosen]
    change Option.bind (record? _ body) _ = _
    simp [fields, targetIn.node target.readBy, valueIn.node value.readBy,
      Span.optional_of_found spanIn]
  | compoundAssign op target value span =>
    obtain ⟨room, body, r, rfl, chosen, fields, opIn, targetIn, valueIn, spanIn⟩ :=
      Outline.Within.form within ["op", "target", "value", "span"] rfl (by decide)
    rw [Expr.ofJson?, chosen]
    change Option.bind (record? _ body) _ = _
    simp [fields, opIn.node op.readBy, targetIn.node target.readBy,
      valueIn.node value.readBy, Span.optional_of_found spanIn]
  | conditional cond yes no span =>
    obtain ⟨room, body, r, rfl, chosen, fields, condIn, yesIn, noIn, spanIn⟩ :=
      Outline.Within.form within ["cond", "then", "otherwise", "span"] rfl (by decide)
    rw [Expr.ofJson?, chosen]
    change Option.bind (record? _ body) _ = _
    simp [fields, condIn.node cond.readBy, yesIn.node yes.readBy,
      noIn.node no.readBy, Span.optional_of_found spanIn]
  | parens inner span =>
    obtain ⟨room, body, r, rfl, chosen, fields, innerIn, spanIn⟩ :=
      Outline.Within.form within ["inner", "span"] rfl (by decide)
    rw [Expr.ofJson?, chosen]
    change Option.bind (record? _ body) _ = _
    simp [fields, innerIn.node inner.readBy, Span.optional_of_found spanIn]
  | select target name ty span =>
    obtain ⟨room, body, r, rfl, chosen, fields, targetIn, nameIn, tyIn, spanIn⟩ :=
      Outline.Within.form within ["target", "name", "ty", "span"] rfl (by decide)
    rw [Expr.ofJson?, chosen]
    change Option.bind (record? _ body) _ = _
    simp [fields, targetIn.node target.readBy, nameIn.text,
      tyIn.node ty.readBy, Span.optional_of_found spanIn]
  | call callee method args ty span =>
    obtain ⟨room, body, r, rfl, chosen, fields, calleeIn, methodIn, argsIn, tyIn, spanIn⟩ :=
      Outline.Within.form within ["callee", "method", "args", "ty", "span"] rfl (by decide)
    rw [Expr.ofJson?, chosen]
    change Option.bind (record? _ body) _ = _
    simp [Arg.listOfJson?_eq, fields, calleeIn.node callee.readBy,
      methodIn.symbol, argsIn.items (.list (Arg.readBy_all args)), tyIn.node ty.readBy,
      Span.optional_of_found spanIn]
  | construct cls args span =>
    obtain ⟨room, body, r, rfl, chosen, fields, clsIn, argsIn, spanIn⟩ :=
      Outline.Within.form within ["class", "args", "span"] rfl (by decide)
    rw [Expr.ofJson?, chosen]
    change Option.bind (record? _ body) _ = _
    simp [Expr.listOfJson?_eq, fields, clsIn.node cls.readBy,
      argsIn.items (.list (Expr.readBy_all args)), Span.optional_of_found spanIn]
  | instanceOf expr cls span =>
    obtain ⟨room, body, r, rfl, chosen, fields, exprIn, clsIn, spanIn⟩ :=
      Outline.Within.form within ["expr", "class", "span"] rfl (by decide)
    rw [Expr.ofJson?, chosen]
    change Option.bind (record? _ body) _ = _
    simp [fields, exprIn.node expr.readBy, clsIn.symbol,
      Span.optional_of_found spanIn]
  | lambda params lambdaBody span =>
    obtain ⟨room, body, r, rfl, chosen, fields, paramsIn, bodyIn, spanIn⟩ :=
      Outline.Within.form within ["params", "body", "span"] rfl (by decide)
    rw [Expr.ofJson?, chosen]
    change Option.bind (record? _ body) _ = _
    simp [Expr.paramsOfJson?_eq, fields,
      paramsIn.node (.map LambdaParam.readBy params), bodyIn.node lambdaBody.readBy,
      Span.optional_of_found spanIn]
  | methodRef qualifier name mode method span =>
    obtain ⟨room, body, r, rfl, chosen, fields, qualifierIn, nameIn, modeIn, methodIn,
        spanIn⟩ :=
      Outline.Within.form within ["qualifier", "name", "mode", "method", "span"] rfl (by decide)
    rw [Expr.ofJson?, chosen]
    change Option.bind (record? _ body) _ = _
    simp [fields, qualifierIn.node qualifier.readBy, nameIn.text,
      modeIn.node mode.readBy, methodIn.symbol, Span.optional_of_found spanIn]
  | typeApply base args span =>
    obtain ⟨room, body, r, rfl, chosen, fields, baseIn, argsIn, spanIn⟩ :=
      Outline.Within.form within ["base", "args", "span"] rfl (by decide)
    rw [Expr.ofJson?, chosen]
    change Option.bind (record? _ body) _ = _
    simp [Ty.listOfJson?_eq, fields, baseIn.node base.readBy,
      argsIn.items (.list (Ty.readBy_all args)), Span.optional_of_found spanIn]

theorem Expr.readBy_all (es : List Expr) :
    List.Forall₂ (Outline.ReadBy Expr.ofJson?) (Expr.outlines es) es := by
  cases es with
  | nil => exact .nil
  | cons e rest => exact .cons e.readBy (Expr.readBy_all rest)

theorem Expr.readBy_option (e : Option Expr) :
    (Expr.optionOutline e).ReadBy (fun room => nullable? (Expr.ofJson? room)) e := by
  cases e with
  | none => exact .absent
  | some e => exact .present Expr.ofJson?_null e.readBy

theorem Callee.readBy (callee : Callee) : callee.outline.ReadBy Callee.ofJson? callee := by
  intro room j within
  cases callee with
  | unqualified name =>
    obtain ⟨room, body, r, rfl, chosen, fields, nameIn⟩ :=
      Outline.Within.form within ["name"] rfl (by decide)
    rw [Callee.ofJson?, chosen]
    change Option.bind (record? _ body) _ = _
    simp [fields, nameIn.text]
  | member target name =>
    obtain ⟨room, body, r, rfl, chosen, fields, targetIn, nameIn⟩ :=
      Outline.Within.form within ["target", "name"] rfl (by decide)
    rw [Callee.ofJson?, chosen]
    change Option.bind (record? _ body) _ = _
    simp [fields, targetIn.node target.readBy, nameIn.text]

theorem Arg.readBy (arg : Arg) : arg.outline.ReadBy Arg.ofJson? arg := by
  intro room j within
  obtain ⟨expr, ty⟩ := arg
  obtain ⟨room, r, rfl, fields, exprIn, tyIn⟩ :=
    Outline.Within.struct within ["expr", "ty"] rfl (by decide)
  simp [Arg.ofJson?, fields, exprIn.node expr.readBy, tyIn.node ty.readBy]

theorem Arg.readBy_all (args : List Arg) :
    List.Forall₂ (Outline.ReadBy Arg.ofJson?) (Arg.outlines args) args := by
  cases args with
  | nil => exact .nil
  | cons arg rest => exact .cons arg.readBy (Arg.readBy_all rest)

theorem LambdaBody.readBy (lambdaBody : LambdaBody) :
    lambdaBody.outline.ReadBy LambdaBody.ofJson? lambdaBody := by
  intro room j within
  cases lambdaBody with
  | expr e =>
    obtain ⟨room, body, rfl, chosen, content⟩ := Outline.Within.choice within
    simp [LambdaBody.ofJson?, chosen, e.readBy room body content]
  | block block =>
    obtain ⟨room, body, rfl, chosen, content⟩ := Outline.Within.choice within
    simp [LambdaBody.ofJson?, chosen, block.readBy room body content]

theorem Block.readBy (block : Block) : block.outline.ReadBy Block.ofJson? block := by
  intro room j within
  obtain ⟨stmts, span⟩ := block
  obtain ⟨room, r, rfl, fields, stmtsIn, spanIn⟩ :=
    Outline.Within.struct within ["stmts", "span"] rfl (by decide)
  simp [Block.ofJson?, Stmt.listOfJson?_eq, fields, stmtsIn.node (.list (Stmt.readBy_all stmts)),
    Span.optional_of_found spanIn]

theorem Block.readBy_option (block : Option Block) :
    (Block.optionOutline block).ReadBy (fun room => nullable? (Block.ofJson? room)) block := by
  cases block with
  | none => exact .absent
  | some block => exact .present Block.ofJson?_null block.readBy

theorem VarDecl.readBy (decl : VarDecl) : decl.outline.ReadBy VarDecl.ofJson? decl := by
  intro room j within
  obtain ⟨name, sym, ty, init, span⟩ := decl
  obtain ⟨room, r, rfl, fields, nameIn, symIn, tyIn, initIn, spanIn⟩ :=
    Outline.Within.struct within ["name", "sym", "ty", "init", "span"] rfl (by decide)
  simp [VarDecl.ofJson?, fields, nameIn.text, symIn.symbol, tyIn.node ty.readBy,
    initIn.option (Expr.readBy_option init), Span.optional_of_found spanIn]

theorem CatchClause.readBy (clause : CatchClause) :
    clause.outline.ReadBy CatchClause.ofJson? clause := by
  intro room j within
  obtain ⟨param, body⟩ := clause
  obtain ⟨room, r, rfl, fields, paramIn, bodyIn⟩ :=
    Outline.Within.struct within ["param", "body"] rfl (by decide)
  simp [CatchClause.ofJson?, fields, paramIn.node param.readBy, bodyIn.node body.readBy]

theorem CatchClause.readBy_all (clauses : List CatchClause) :
    List.Forall₂ (Outline.ReadBy CatchClause.ofJson?) (CatchClause.outlines clauses) clauses := by
  cases clauses with
  | nil => exact .nil
  | cons clause rest => exact .cons clause.readBy (CatchClause.readBy_all rest)

theorem Stmt.readBy (stmt : Stmt) : stmt.outline.ReadBy Stmt.ofJson? stmt := by
  intro room j within
  cases stmt with
  | block block =>
    obtain ⟨_, body, rfl, chosen, content⟩ := Outline.Within.choice within
    -- a statement is read only if two levels are left, and a block takes the second one
    obtain ⟨room, rfl⟩ := Block.room_of_within content
    rw [Stmt.ofJson?, chosen]
    change Option.bind (Block.ofJson? _ body) _ = _
    simp [block.readBy _ body content]
  | «local» decl =>
    obtain ⟨_, body, rfl, chosen, content⟩ := Outline.Within.choice within
    obtain ⟨room, rfl⟩ := VarDecl.room_of_within content
    rw [Stmt.ofJson?, chosen]
    change Option.bind (VarDecl.ofJson? _ body) _ = _
    simp [decl.readBy _ body content]
  | expr e span =>
    obtain ⟨room, body, r, rfl, chosen, fields, exprIn, spanIn⟩ :=
      Outline.Within.form within ["expr", "span"] rfl (by decide)
    rw [Stmt.ofJson?, chosen]
    change Option.bind (record? _ body) _ = _
    simp [fields, exprIn.node e.readBy, Span.optional_of_found spanIn]
  | conditional cond yes no span =>
    obtain ⟨room, body, r, rfl, chosen, fields, condIn, yesIn, noIn, spanIn⟩ :=
      Outline.Within.form within ["cond", "then", "otherwise", "span"] rfl (by decide)
    rw [Stmt.ofJson?, chosen]
    change Option.bind (record? _ body) _ = _
    simp [fields, condIn.node cond.readBy, yesIn.node yes.readBy,
      noIn.option (Stmt.readBy_option no), Span.optional_of_found spanIn]
  | loop init cond update loopBody span =>
    obtain ⟨room, body, r, rfl, chosen, fields, initIn, condIn, updateIn, bodyIn, spanIn⟩ :=
      Outline.Within.form within ["init", "cond", "update", "body", "span"] rfl (by decide)
    rw [Stmt.ofJson?, chosen]
    change Option.bind (record? _ body) _ = _
    simp [Stmt.listOfJson?_eq, Expr.listOfJson?_eq, fields,
      initIn.items (.list (Stmt.readBy_all init)), condIn.option (Expr.readBy_option cond),
      updateIn.items (.list (Expr.readBy_all update)), bodyIn.node loopBody.readBy,
      Span.optional_of_found spanIn]
  | forEach var iterable loopBody span =>
    obtain ⟨room, body, r, rfl, chosen, fields, varIn, iterableIn, bodyIn, spanIn⟩ :=
      Outline.Within.form within ["var", "iterable", "body", "span"] rfl (by decide)
    rw [Stmt.ofJson?, chosen]
    change Option.bind (record? _ body) _ = _
    simp [fields, varIn.node var.readBy, iterableIn.node iterable.readBy,
      bodyIn.node loopBody.readBy, Span.optional_of_found spanIn]
  | whileLoop cond loopBody span =>
    obtain ⟨room, body, r, rfl, chosen, fields, condIn, bodyIn, spanIn⟩ :=
      Outline.Within.form within ["cond", "body", "span"] rfl (by decide)
    rw [Stmt.ofJson?, chosen]
    change Option.bind (record? _ body) _ = _
    simp [fields, condIn.node cond.readBy, bodyIn.node loopBody.readBy,
      Span.optional_of_found spanIn]
  | tryCatch tried catches cleanup span =>
    obtain ⟨room, body, r, rfl, chosen, fields, bodyIn, catchesIn, cleanupIn, spanIn⟩ :=
      Outline.Within.form within ["body", "catches", "finally", "span"] rfl (by decide)
    rw [Stmt.ofJson?, chosen]
    change Option.bind (record? _ body) _ = _
    simp [CatchClause.listOfJson?_eq, fields, bodyIn.node tried.readBy,
      catchesIn.items (.list (CatchClause.readBy_all catches)),
      cleanupIn.option (Block.readBy_option cleanup), Span.optional_of_found spanIn]
  | throw e span =>
    obtain ⟨room, body, r, rfl, chosen, fields, exprIn, spanIn⟩ :=
      Outline.Within.form within ["expr", "span"] rfl (by decide)
    rw [Stmt.ofJson?, chosen]
    change Option.bind (record? _ body) _ = _
    simp [fields, exprIn.node e.readBy, Span.optional_of_found spanIn]
  | «return» e span =>
    obtain ⟨room, body, r, rfl, chosen, fields, exprIn, spanIn⟩ :=
      Outline.Within.form within ["expr", "span"] rfl (by decide)
    rw [Stmt.ofJson?, chosen]
    change Option.bind (record? _ body) _ = _
    simp [fields, exprIn.option (Expr.readBy_option e),
      Span.optional_of_found spanIn]
  | «break» span =>
    obtain ⟨room, body, r, rfl, chosen, fields, spanIn⟩ :=
      Outline.Within.form within ["span"] rfl (by decide)
    rw [Stmt.ofJson?, chosen]
    change Option.bind (record? _ body) _ = _
    simp [fields, Span.optional_of_found spanIn]
  | «continue» span =>
    obtain ⟨room, body, r, rfl, chosen, fields, spanIn⟩ :=
      Outline.Within.form within ["span"] rfl (by decide)
    rw [Stmt.ofJson?, chosen]
    change Option.bind (record? _ body) _ = _
    simp [fields, Span.optional_of_found spanIn]

theorem Stmt.readBy_all (stmts : List Stmt) :
    List.Forall₂ (Outline.ReadBy Stmt.ofJson?) (Stmt.outlines stmts) stmts := by
  cases stmts with
  | nil => exact .nil
  | cons stmt rest => exact .cons stmt.readBy (Stmt.readBy_all rest)

theorem Stmt.readBy_option (stmt : Option Stmt) :
    (Stmt.optionOutline stmt).ReadBy (fun room => nullable? (Stmt.ofJson? room)) stmt := by
  cases stmt with
  | none => exact .absent
  | some stmt => exact .present Stmt.ofJson?_null stmt.readBy

end

/-! ### Programs -/

theorem Symbol.readBy (symbol : Symbol) : symbol.outline.ReadBy Symbol.ofJson? symbol := by
  intro room j within
  obtain ⟨room, r, rfl, fields, nameIn, kindIn, tyIn, ownerIn⟩ :=
    within.struct ["name", "kind", "ty", "owner"] rfl (by decide)
  simp [Symbol.ofJson?, fields, nameIn.text, kindIn.node symbol.kind.readBy,
    tyIn.node symbol.ty.readBy, ownerIn.option (Outline.nullable_text_readBy symbol.owner)]

theorem ClassInfo.readBy (info : ClassInfo) : info.outline.ReadBy ClassInfo.ofJson? info := by
  intro room j within
  obtain ⟨room, r, rfl, fields, nameIn, kindIn, annotationsIn, supertypesIn⟩ :=
    within.struct ["name", "kind", "annotations", "supertypes"] rfl (by decide)
  simp [ClassInfo.ofJson?, Json.texts?_eq, fields, nameIn.text, kindIn.node info.kind.readBy,
    annotationsIn.items (.map Outline.text_readBy info.annotations),
    supertypesIn.items (.map Outline.text_readBy info.supertypes)]

theorem MethodType.readBy (method : MethodType) :
    method.outline.ReadBy MethodType.ofJson? method := by
  intro room j within
  obtain ⟨room, r, rfl, fields, nameIn, ownerIn, paramsIn, varargsIn, retIn⟩ :=
    within.struct ["name", "owner", "params", "varargs", "ret"] rfl (by decide)
  simp [MethodType.ofJson?, Ty.listOfJson?_eq, fields, nameIn.text,
    ownerIn.node method.owner.readBy, paramsIn.items (.list (Ty.readBy_all method.params)),
    varargsIn.flag, retIn.node method.ret.readBy]

theorem Param.readBy (param : Param) : param.outline.ReadBy Param.ofJson? param := by
  intro room j within
  obtain ⟨room, r, rfl, fields, nameIn, symIn, tyIn⟩ :=
    within.struct ["name", "sym", "ty"] rfl (by decide)
  simp [Param.ofJson?, fields, nameIn.text, symIn.symbol, tyIn.node param.ty.readBy]

theorem FieldDecl.readBy (decl : FieldDecl) : decl.outline.ReadBy FieldDecl.ofJson? decl := by
  intro room j within
  obtain ⟨room, r, rfl, fields, nameIn, symIn, tyIn, initIn⟩ :=
    within.struct ["name", "sym", "ty", "init"] rfl (by decide)
  simp [FieldDecl.ofJson?, fields, nameIn.text, symIn.symbol, tyIn.node decl.ty.readBy,
    initIn.option (Expr.readBy_option decl.init)]

theorem MethodDecl.readBy (decl : MethodDecl) :
    decl.outline.ReadBy MethodDecl.ofJson? decl := by
  intro room j within
  obtain ⟨room, r, rfl, fields, nameIn, paramsIn, retIn, bodyIn⟩ :=
    within.struct ["name", "params", "ret", "body"] rfl (by decide)
  simp [MethodDecl.ofJson?, fields, nameIn.text, paramsIn.items (.map Param.readBy decl.params),
    retIn.node decl.ret.readBy, bodyIn.node decl.body.readBy]

theorem ClassUnit.readBy (unit : ClassUnit) : unit.outline.ReadBy ClassUnit.ofJson? unit := by
  intro room j within
  obtain ⟨room, r, rfl, fields, nameIn, fieldsIn, methodsIn⟩ :=
    within.struct ["name", "fields", "methods"] rfl (by decide)
  simp [ClassUnit.ofJson?, fields, nameIn.text,
    fieldsIn.items (.map FieldDecl.readBy unit.fields),
    methodsIn.items (.map MethodDecl.readBy unit.methods)]

/-- A table is read if its keys and its values are. -/
theorem table_readBy {κ α : Type} [Ord κ] [Std.TransOrd κ] {key : κ → String}
    {readKey : Written → Option κ} {write : α → Outline} {read : Nat → Json → Option α}
    (keys : ∀ k, readKey (Written.ofText (key k)) = some k)
    (values : ∀ v, (write v).ReadBy read v) (t : Table κ α) :
    (tableOutline key write t).ReadBy (tableOfJson? readKey read) t := by
  intro room j within
  obtain ⟨room, members, rfl, rfl, entries⟩ := Outline.Within.table within
  rw [List.forall₂_map_left_iff] at entries
  have each : List.Forall₂ (fun e m => entryOfJson? readKey (read room) m = some e)
      t.entries (members.map Json.member) := by
    refine List.forall₂_map_right_iff.2 (entries.imp fun e m found => ?_)
    obtain ⟨sameKey, within⟩ := found
    simp [entryOfJson?, Json.member, sameKey, keys, values _ room _ within]
  rw [Json.record, tableOfJson?, Json.members?, Option.bind_eq_bind, Option.bind_some,
    Json.mapM_of_forall₂ each, Option.bind_eq_bind, Option.bind_some, t.ofList_entries]
  rfl

/-- A symbol's number as a key is plain digits, without escapes. -/
theorem symbol_key (id : SymbolId) :
    SymbolId.ofKey? (Written.ofText (toString id.toNat)) = some id := by
  have digits : Json.digits? SymbolId.bound (toString id.toNat).toList = some id.toNat :=
    Json.digits?_toString _ _ id.toNat_lt
  have plain := Json.escaped_toString id.toNat
  -- a key that is written with escapes would not be read
  simp only [SymbolId.ofKey?, plain, Bool.false_eq_true, if_false]
  rw [Written.ofText, Option.bind_eq_bind, Option.bind_some, digits, Option.map_some,
    UInt32.ofNat_toNat]

/-- A class name as a key is the name, whether it is written with escapes or not. -/
theorem className_key (name : String) : (Written.ofText (id name)).text = some name := rfl

theorem Program.readBy (p : Program) {j : Json} (within : p.outline.Within Json.maxDepth j) :
    ofJson? j = some p := by
  obtain ⟨room, r, room_eq, fields, unitIn, sourceIn, symbolsIn, classesIn, methodsIn⟩ :=
    within.struct ["unit", "source", "symbols", "classes", "methods"] rfl (by decide)
  -- the program is itself an object, so its fields have one level less
  obtain rfl : Json.maxDepth - 1 = room := by rw [room_eq, Nat.add_sub_cancel]
  have symbols := symbolsIn.table (table_readBy symbol_key Symbol.readBy p.symbols)
  have classes := classesIn.table (table_readBy className_key ClassInfo.readBy p.classes)
  have methods := methodsIn.table (table_readBy symbol_key MethodType.readBy p.methods)
  simp [ofJson?, fields, unitIn.node p.unit.readBy,
    sourceIn.option (Outline.nullable_text_readBy p.source), symbols, classes, methods]

/-- A program is read back from its printed form, and from the printed form of everything else
that its outline admits: fields may stand in another order, and fields that hold the value that
they take of their own accord may be left out. The printed form must not nest deeper than the
reader goes, and spans are 64-bit numbers; the numbers of symbols always fit. -/
theorem Program.ofText?_of_admits (p : Program) (shallow : p.toJson.depth ≤ Json.maxDepth)
    (fits : ∀ n ∈ p.outline.naturals, n < UInt64.size) :
    ofText? p.toText = some p ∧
      ∀ j, p.outline.Admits j → ofText? j.pretty = some p := by
  have reads : ∀ j, p.outline.Admits j → ofText? j.pretty = some p := by
    intro j admits
    -- the text is read as the value, which the bounds on the program keep within the room
    rw [ofText?, admits.canonical.ofText?_pretty, Option.bind_eq_bind, Option.bind_some]
    exact p.readBy ⟨admits, shallow, fits⟩
  exact ⟨reads _ p.outline.admits_toJson, reads⟩

/-- A class with one field, which holds the literal `null`. -/
def Program.greeting : Program where
  unit := {
    name := "demo.Greeting"
    fields := [⟨"next", 0, .declared "demo.Greeting" [], some (.literal .null ⟨30, 34⟩)⟩] }
  symbols := .ofList [(0, { name := "next", kind := .field, ty := .declared "demo.Greeting" [] })]

/-- The text may also hold the symbols before the class, and nothing else. -/
theorem Program.ofText?_of_admits_greeting :
    ofText? greeting.toText = some greeting ∧
      ofText? (Json.record
        [("symbols", Json.record [("0", Json.record
          [("name", Json.text "next"), ("kind", Json.text "field"),
            ("ty", Json.tagged "declared"
              (Json.record [("name", Json.text "demo.Greeting"), ("args", .array [])])),
            ("owner", .null)])]),
          ("unit", greeting.unit.outline.toJson)]).pretty = some greeting := by
  obtain ⟨whole, others⟩ := Program.ofText?_of_admits greeting (by decide) (by decide)
  refine ⟨whole, others _ ?_⟩
  exact .struct [(.optional "symbols" false _, _), (.required "unit" _, _)]
    [.optional "source" true _, .optional "classes" true _, .optional "methods" true _]
    (by
      simp only [List.forall_mem_cons]
      exact ⟨Outline.admits_toJson _, Outline.admits_toJson _, by simp⟩)
    ((List.Perm.swap ..).trans (.cons _ (.swap ..)))
    (by simp [Field.optional])

end Source

end Polyscript
