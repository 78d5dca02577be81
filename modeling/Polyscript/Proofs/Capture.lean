import Polyscript.Proofs.Lowering.Whole
import Polyscript.Proofs.Model.Mention

/-!
# Fields and local variables of one name

A field of the enclosing instance is a variable of its own scope in the model, without the
instance in front of it. Only Ruby writes that scope. In the other languages a field and a local
variable of one name are written alike, so that a local variable captures what refers to the
field: a method that sets a field to a parameter of its name sets the parameter to itself.

## Main statements

* `Source.Program.field_captured_iff`: when a local variable captures the references to a field.
* `Source.Program.setter_captured`: a method that is captured.
-/

namespace Polyscript

open Model (Part Site Mention Every)

/-! ### References in the model -/

section Lowering

open Lowering Source Step

variable {r : Resolver} {ctx : Context} {name : String} {e : Model.Expr} {s s' : Progress}

/-- A variable may be given a kind, and stays what it is. -/
theorem Model.Expr.untyped_coerce {scope : Model.Scope} {type : TypeInfo}
    (ok : (Model.Expr.identifier name scope).coerce type = .ok e) :
    e.untyped = .identifier name scope := by
  rcases coerce_cases ok with rfl | ⟨_, rfl⟩ | ⟨value, kind, isTyped, _⟩
  · rfl
  · unfold withKind
    split <;> rfl
  · cases isTyped

theorem Lowering.untyped_variableOf {scope : Model.Scope} {type : TypeInfo}
    (ok : variableOf name scope type s = (.ok e, s')) : e.untyped = .identifier name scope :=
  Model.Expr.untyped_coerce (coerce_of_variableOf ok)

/-- A field of the enclosing instance is lowered to a variable of the scope of fields. -/
theorem Source.Expr.untyped_lower_ownField {target : Expr} {ty : Ty} {span : Span}
    (isThis : target.stripParens.isThis) (declared : hasField r name)
    (ok : (Expr.select target name ty span).lower r ctx s = (.ok e, s')) :
    e.untyped = .identifier name .field := by
  rw [Expr.lower, Expr.lowerWith] at ok
  obtain ⟨type, _, _, ok⟩ := ok_of_bind ok
  rw [isThis, declared] at ok
  exact untyped_variableOf ok

/-- A name that is bound is lowered to a variable of the scope in which it is bound. -/
theorem Source.Expr.untyped_lower_ident {id : SymbolId} {span : Span} {binding : Binding}
    (notThis : name ≠ "this") (notAlias : ctx.alias? id = none)
    (bound : s.scopes.lookup id = some binding)
    (ok : (Expr.ident name id span).lower r ctx s = (.ok e, s')) :
    e.untyped = .identifier name binding.scope := by
  rw [Expr.lower, Expr.lowerWith, identifier_apply, if_neg notThis, notAlias] at ok
  simp only [bound] at ok
  exact untyped_variableOf ok

end Lowering

namespace Model

variable {t : Target} {unit : Unit} {body : Block}

/-- Whether a block is the body of a method or of the entry method of a program. -/
def Unit.HasBody (unit : Unit) (body : Block) : Prop :=
  body = unit.entry ∨ ∃ method ∈ unit.methods, body = method.body

theorem Unit.HasBody.mem_nodes (isBody : unit.HasBody body) {node : Node}
    (mem : node ∈ body.nodes) : node ∈ unit.nodes := by
  rcases isBody with rfl | ⟨method, isMethod, rfl⟩
  · exact List.mem_append_right _ (List.mem_append_right _ mem)
  · exact List.mem_append_right _
      (List.mem_append_left _ (List.mem_flatMap.2 ⟨method, isMethod, mem⟩))

/-- A body with an expression in it is rendered. -/
theorem Unit.HasBody.mem_parts (isBody : unit.HasBody body) {e : Expr}
    (mem : .expr e ∈ body.nodes) : .block body ∈ unit.parts := by
  rcases isBody with rfl | ⟨method, isMethod, rfl⟩
  · refine List.mem_append_right _ (List.mem_append_right _ ?_)
    -- without statements the body has no node but itself
    obtain ⟨name, fields, methods, ⟨stmts, fragments⟩⟩ := unit
    cases stmts with
    | nil => simp at mem
    | cons s rest => exact List.mem_singleton_self _
  · exact List.mem_append_right _ (List.mem_append_left _ (List.mem_map_of_mem isMethod))

/-- Which names an expression refers to by itself does not depend on where it stands. -/
theorem Expr.used_eq (isStatement : Bool) (e : Expr) :
    (Site.part (.expr isStatement e)).used t = (Site.part (.operand e)).used t := by
  cases e <;> rfl

/-- Whether a node is a variable of a name and a scope. -/
def Node.isVariable (name : String) (scope : Scope) : Node → Bool
  | .expr (.identifier other scope') => other = name ∧ scope' = scope
  | _ => false

theorem exists_variable {nodes : List Node} {name : String} {scope : Scope}
    (found : nodes.any (Node.isVariable name scope)) : .expr (.identifier name scope) ∈ nodes := by
  obtain ⟨node, mem, isVariable⟩ := List.any_eq_true.1 found
  unfold Node.isVariable at isVariable
  split at isVariable
  next =>
    obtain ⟨rfl, rfl⟩ := of_decide_eq_true isVariable
    exact mem
  next => cases isVariable

/-- A reference to a local variable is written as a field of its name is, unless fields have a
sign or one of the two is changed, since the name is reserved. -/
theorem Mention.word_eq_field_iff {m : Mention} {name : String} (named : m.local? = some name) :
    m.word t = t.variableName name .field ↔
      t ≠ .ruby ∧ (name ∈ t.reserved → m.isPlain = false) := by
  rw [t.variableName_eq]
  rw [Mention.word_of_local named]
  by_cases isRuby : t = .ruby
  · -- the word for the field is longer than either word for the local variable
    subst isRuby
    have shorter := Target.length_le_length_identifier .ruby name
    refine iff_of_false (fun same => ?_) fun differs => differs.1 rfl
    have lengths := congrArg (·.toList.length) same
    rw [String.toList_append, List.length_append] at lengths
    have sigil : (Target.sigil .ruby .field).toList.length = 1 := rfl
    split at lengths <;> omega
  · have noSigil : t.sigil .field = "" := by cases t <;> first | rfl | exact absurd rfl isRuby
    rw [noSigil, String.empty_append]
    cases m.isPlain with
    | false => simp [isRuby]
    | true =>
      rw [eq_comm, if_pos rfl, Target.identifier_eq_self_iff]
      simp [isRuby]

end Model

namespace Source.Program

variable {program : Program} {config : Config} {unit : Model.Unit} {body : Model.Block}
  {t : Target} {indent text : String}

/-- Whatever a body of a compiled program refers to is mentioned by something that is rendered
for it. The check of a callback whose branches are kept apart is mentioned by the callback. -/
theorem exists_mention (lowers : program.lower config = .ok unit) (isBody : unit.HasBody body)
    {e : Model.Expr} (mem : .expr e ∈ body.nodes) {m : Mention}
    (refers : m ∈ (Site.part (.operand e)).used t) :
    ∃ q, (Part.block body).Renders q ∧ m ∈ (Site.part q).used t := by
  have whole : Every Model.Node.IsWhole (Part.block body).nodes :=
    fun node mem => every_node lowers node (isBody.mem_nodes mem)
  rcases Part.renders_node whole mem with
    ⟨q, isNode, renders⟩ | isThis | ⟨handler, isNode, isSplit, ofBody⟩
  · cases q with
    | expr isStatement e' =>
      obtain rfl := Model.Node.expr.inj isNode
      exact ⟨_, renders, Model.Expr.used_eq isStatement e' ▸ refers⟩
    | _ => cases isNode
  · obtain rfl := Model.Node.expr.inj isThis
    cases refers
  · cases e with
    | asyncCall name type op =>
      obtain ⟨rfl, asks⟩ := ofBody
      rw [Site.used] at refers
      split at refers
      next => cases refers
      next named =>
        have notJs : t ≠ .javascript := fun isJs => named ⟨isJs, asks⟩
        rcases Part.renders_node whole isNode
          with ⟨q, isHandler, renders⟩ | isThis | ⟨_, _, _, ofBody⟩
        · cases q with
          | expr isStatement e =>
            obtain rfl := Model.Node.expr.inj isHandler
            refine ⟨_, renders, ?_⟩
            rw [Site.used, if_pos ⟨notJs, isSplit⟩]
            exact refers
          | _ => cases isHandler
        · cases isThis
        · cases ofBody
    | parenthesized | typed => cases refers
    | _ => cases ofBody

/-- Take a field and a local variable or parameter of one name to which the same body refers.
Both references are written in it, each as a word of its own. The words are the same exactly if
the language has no sign for fields and neither of them differs from the name alone because the
name is reserved. A reference to a field of the enclosing instance is lowered to a variable of the
scope of fields and a reference to a name that is bound to one of the scope of its binding, so
nothing but the words can tell the two apart. -/
theorem field_captured_iff (lowers : program.lower config = .ok unit)
    (ok : unit.render t indent = .ok text) (isBody : unit.HasBody body) {name : String}
    {e : Model.Expr} {m : Mention} (field : .expr (.identifier name .field) ∈ body.nodes)
    (mem : .expr e ∈ body.nodes) (refers : m ∈ (Site.part (.operand e)).used t)
    (named : m.local? = some name) :
    (∀ {ctx s s' target ty span own}, target.stripParens.isThis →
      Lowering.hasField (program.resolver config) name →
      (Source.Expr.select target name ty span).lower (program.resolver config) ctx s =
        (.ok own, s') → own.untyped = .identifier name .field) ∧
    (∀ {ctx s s' id span binding bound}, name ≠ "this" → ctx.alias? id = none →
      s.scopes.lookup id = some binding →
      (Source.Expr.ident name id span).lower (program.resolver config) ctx s =
        (.ok bound, s') → bound.untyped = .identifier name binding.scope) ∧
    ∃ d, (Part.block body).Drafts t d ∧ d.marks <:+: (unit.draft t).marks ∧
      d.Writes (t.variableName name .field) ∧ d.Writes (m.word t) ∧
      (m.word t = t.variableName name .field ↔
        t ≠ .ruby ∧ (name ∈ t.reserved → m.isPlain = false)) := by
  refine ⟨fun isThis declared ok => Expr.untyped_lower_ownField isThis declared ok,
    fun notThis notAlias bound ok => Expr.untyped_lower_ident notThis notAlias bound ok, ?_⟩
  obtain ⟨d, isDraft, unbroken, within⟩ :=
    Model.Unit.exists_draft ok ⟨_, isBody.mem_parts field, .refl⟩ rfl
  have writes {e : Model.Expr} (mem : .expr e ∈ body.nodes) {m : Mention}
      (refers : m ∈ (Site.part (.operand e)).used t) : d.Writes (m.word t) := by
    obtain ⟨q, renders, isUsed⟩ := exists_mention lowers isBody mem refers
    have notLiteral := Site.notLiteral_of_mem (List.mem_append_right _ isUsed)
    obtain ⟨part, isDraft, unbroken, within⟩ :=
      Part.exists_draft renders notLiteral isDraft unbroken
    exact (Site.writes_used isUsed isDraft unbroken).mono within
  have ofField : d.Writes (t.variableName name .field) :=
    writes field (List.mem_singleton_self (Mention.var name .field))
  exact ⟨d, isDraft, within, ofField, writes mem refers, Mention.word_eq_field_iff named⟩

/-- A program whose entry method calls a method that sets a field to its parameter of the same
name. -/
def setting : Program where
  unit := {
    name := "demo.App"
    fields := [{ name := "limit", sym := 1, ty := .primitive .int }]
    methods := [
      { name := "start"
        ret := .void
        body := { stmts := [
          .ofExpr (.localCall "setLimit" 3 [⟨.int 3, .primitive .int⟩] .void)] } },
      { name := "setLimit"
        params := [{ name := "limit", sym := 2, ty := .primitive .int }]
        ret := .void
        body := { stmts := [.ofExpr (.assign
          (.select (.ident "this" 0) "limit" (.primitive .int)) (.ident "limit" 2))] } }] }
  methods := .ofList [(3, {
    name := "setLimit"
    owner := .declared "demo.App" []
    params := [.primitive .int]
    ret := .void })]

/-- What the program is written as. -/
def settingText : Target → String
  | .javascript =>
    "let limit;\n\nfunction setLimit(limit) \x7b\n  limit = limit;\n\x7d\n\nsetLimit(3);\n"
  | .groovy =>
    "limit = null\n\ndef setLimit(limit) \x7b\n  limit = limit\n\x7d\n\nsetLimit(3)\n"
  | .ruby => "@limit = nil\n\ndef set_limit(limit)\n  @limit = limit\nend\n\nset_limit(3)\n"
  | .kotlin =>
    "var limit: Int? = null\n\n" ++
      "fun setLimit(limit: Int) \x7b\n  limit = limit\n\x7d\n\nsetLimit(3)\n"

/-- The method refers to the field and to the parameter. -/
theorem setting_lowers : ∃ unit body, setting.lower {} = .ok unit ∧ unit.HasBody body ∧
    .expr (.identifier "limit" .field) ∈ body.nodes ∧
    .expr (.identifier "limit" .parameter) ∈ body.nodes ∧
    ∀ t, unit.render t "  " = .ok (settingText t) := by
  have evaluated : (setting.lower {}).toOption.map (fun unit => (unit.methods.any (fun method =>
        method.body.nodes.any (Model.Node.isVariable "limit" .field) ∧
          method.body.nodes.any (Model.Node.isVariable "limit" .parameter)),
      Target.all.all fun t => (unit.render t "  ").toOption = some (settingText t))) =
      some (true, true) := by
    decide +kernel
  obtain ⟨unit, lowers, found⟩ := exists_ok_of_map evaluated
  obtain ⟨refers, texts⟩ := Prod.mk.inj found
  obtain ⟨method, isMethod, both⟩ := List.any_eq_true.1 refers
  obtain ⟨field, param⟩ := of_decide_eq_true both
  refine ⟨unit, method.body, lowers, .inr ⟨method, isMethod, rfl⟩, Model.exists_variable field,
    Model.exists_variable param, fun t => ?_⟩
  have isTarget : t ∈ Target.all := by cases t <;> decide
  exact ok_of_toOption (of_decide_eq_true (List.all_eq_true.1 texts t isTarget))

theorem field_captured_iff_setting : ∃ unit body, setting.lower {} = .ok unit ∧
    unit.HasBody body ∧ ∀ t : Target, ∃ d, (Part.block body).Drafts t d ∧
      d.marks <:+: (unit.draft t).marks ∧ d.Writes (t.variableName "limit" .field) ∧
      d.Writes (t.variableName "limit" .parameter) ∧
      (t.variableName "limit" .parameter = t.variableName "limit" .field ↔ t ≠ .ruby) := by
  obtain ⟨unit, body, lowers, isBody, field, param, texts⟩ := setting_lowers
  refine ⟨unit, body, lowers, isBody, fun t => ?_⟩
  have refers : Mention.var "limit" .parameter ∈
      (Site.part (.operand (.identifier "limit" .parameter))).used t :=
    List.mem_singleton_self _
  obtain ⟨_, _, d, isDraft, within, ofField, ofParam, alike⟩ :=
    field_captured_iff lowers (texts t) isBody field param refers rfl
  exact ⟨d, isDraft, within, ofField, ofParam, alike.trans (and_iff_left fun _ => rfl)⟩

/-- In every language but Ruby the method sets its parameter to itself. -/
theorem setter_captured : ∃ unit body, setting.lower {} = .ok unit ∧ unit.HasBody body ∧
    .expr (.identifier "limit" .field) ∈ body.nodes ∧
    .expr (.identifier "limit" .parameter) ∈ body.nodes ∧
    ∀ t ∈ [Target.javascript, .groovy, .kotlin], ∃ text, unit.render t "  " = .ok text ∧
      "  limit = limit".toList <:+: text.toList := by
  obtain ⟨unit, body, lowers, isBody, field, param, texts⟩ := setting_lowers
  refine ⟨unit, body, lowers, isBody, field, param, fun t isTarget => ⟨_, texts t, ?_⟩⟩
  simp only [List.mem_cons, List.not_mem_nil, or_false] at isTarget
  rcases isTarget with rfl | rfl | rfl <;> decide +kernel

end Source.Program

end Polyscript
