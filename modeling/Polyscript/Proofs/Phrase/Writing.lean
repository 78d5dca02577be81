import Polyscript.Proofs.Layout.Alike
import Polyscript.Proofs.Lowering.Memo
import Polyscript.Proofs.Phrase.Lexing
import Polyscript.Proofs.Phrase.Reading

/-!
# From source expressions to phrases

A source expression of variables, numbers and operators is a phrase. Lowering keeps its
shape, since none of its operands has a meaning of its own to an operator, and the model is
written as the text of the phrase: parentheses stand where they stand in the source and
nowhere else.
-/

namespace Polyscript

open Lowering Step
open Model (Scope BinaryOp UnaryOp)

/-- The scope of the variable that a name stands for, if it stands for a variable. -/
def Lowering.scope? (r : Resolver) (ctx : Context) (scopes : Scopes) (name : String)
    (id : SymbolId) : Option Scope :=
  if name = "this" then none
  else match ctx.alias? id with
    | some (.asyncResult result _) => if result = name then some .parameter else none
    | some _ => none
    | none => match scopes.lookup id with
      | some binding => some binding.scope
      | none => match r.program.symbol? id with
        | none => none
        | some symbol => match scopes.classify symbol, r.resolve symbol.ty with
          | .ok scope, .ok _ => some scope
          | _, _ => none

/-- The word that a language writes for a variable; none for a name that it reserves. -/
def Lowering.word? (t : Target) (r : Resolver) (ctx : Context) (scopes : Scopes) (name : String)
    (id : SymbolId) : Option String :=
  if t.reserved.contains name then none
  else (scope? r ctx scopes name id).map (t.variableName name)

/-- The operator of a phrase that Java writes for an operation; a phrase has no shifts. -/
def Source.BinaryKind.operator? : Source.BinaryKind → Option BinaryOp
  | .multiply => some .multiply
  | .divide => some .divide
  | .remainder => some .remainder
  | .plus => some .add
  | .minus => some .subtract
  | .leftShift | .rightShift | .unsignedRightShift => none
  | .lessThan => some .less
  | .lessThanEqual => some .lessEqual
  | .greaterThan => some .greater
  | .greaterThanEqual => some .greaterEqual
  | .equalTo => some .equal
  | .notEqualTo => some .notEqual
  | .and => some .bitAnd
  | .xor => some .bitXor
  | .or => some .bitOr
  | .conditionalAnd => some .both
  | .conditionalOr => some .either

/-- An operation is lowered to the operator that Java writes for it. -/
theorem Lowering.binaryOp_of_operator? {kind : Source.BinaryKind} {op : BinaryOp}
    (isOp : kind.operator? = some op) : binaryOp kind = .ok op := by
  cases kind <;> cases isOp <;> rfl

/-- The phrase that an expression is, given the words for its variables. -/
def Source.Expr.phrase? (word? : String → SymbolId → Option String) : Source.Expr → Option Phrase
  | .ident name id _ => (word? name id).map .name
  | .literal (.int digits) _ => some (.number digits)
  | .parens inner _ => (inner.phrase? word?).map .group
  | .binary kind lhs rhs _ => do
    let op ← kind.operator?
    return .binary op (← lhs.phrase? word?) (← rhs.phrase? word?)
  | .unary .logicalComplement operand _ => (operand.phrase? word?).map .not
  | .unary .postfixIncrement (.ident name id _) _ => (word? name id).map (.step .increment)
  | .unary .postfixDecrement (.ident name id _) _ => (word? name id).map (.step .decrement)
  | .conditional cond yes no _ => do
    return .conditional (← cond.phrase? word?) (← yes.phrase? word?) (← no.phrase? word?)
  | _ => none

/-- Whether an expression means nothing special to the operators: it is not a class, it
joins no texts, and it is not a check of an asynchronous result. -/
structure Model.Expr.IsOperand (e : Model.Expr) : Prop where
  notClass : e.isClass = false
  notText : e.text? = none
  notCheck : Target.isAsyncCheck e = false
  notConcat : ∀ parts, e ≠ .concat parts

/-- Operands stay what they are under a binary operator. -/
theorem Model.Expr.applyBinary_operands {lhs rhs : Model.Expr} (left : lhs.IsOperand)
    (right : rhs.IsOperand) (op : BinaryOp) :
    lhs.applyBinary op rhs = .ok (.binary op lhs rhs) := by
  rw [Model.Expr.applyBinary, left.notClass, right.notClass]
  by_cases isSum : op = .add
  · subst isSum
    have noTexts : lhs.sum rhs = .binary .add lhs rhs := by
      unfold Model.Expr.sum
      split
      next parts => exact absurd rfl (left.notConcat parts)
      next => simp [left.notText, right.notText]
    simp [noTexts]
  · simp [isSum]

/-! ## Variables -/

variable {r : Resolver} {ctx : Context} {name : String} {id : SymbolId} {scope : Scope}

/-- Whether an expression is an operand that every language writes as a variable. -/
structure Model.Expr.IsVariable (name : String) (scope : Scope) (e : Model.Expr) : Prop where
  isOperand : e.IsOperand
  draft (t : Target) (insideJson isStatement : Bool) :
    e.draft t insideJson isStatement = .text (t.variableName name scope)

/-- The kind of its type leaves a variable one. -/
theorem Model.Expr.isVariable_withKind (name : String) (scope : Scope) (type : TypeInfo) :
    ((Model.Expr.identifier name scope).withKind type).IsVariable name scope := by
  unfold Model.Expr.withKind
  split
  all_goals
    refine ⟨⟨rfl, rfl, rfl, by simp⟩, fun t insideJson isStatement => ?_⟩
    simp only [Model.Expr.draft]

theorem Lowering.variableOf_apply (name : String) (scope : Scope) (type : TypeInfo)
    (s : Progress) : ∃ model s', variableOf name scope type s = (.ok model, s') ∧
      s'.scopes = s.scopes ∧ model.IsVariable name scope := by
  have coerced : ∃ model, (Model.Expr.identifier name scope).coerce type = .ok model ∧
      model.IsVariable name scope := by
    have plain : (Model.Expr.identifier name scope).IsVariable name scope :=
      Model.Expr.isVariable_withKind name scope .void
    rw [Model.Expr.coerce]
    split
    · exact ⟨_, rfl, plain⟩
    · exact ⟨_, rfl, Model.Expr.isVariable_withKind name scope type⟩
  obtain ⟨model, ok, isVariable⟩ := coerced
  unfold variableOf
  by_cases isField : scope = .field
  · refine ⟨model, (useField name s).2, ?_, rfl, isVariable⟩
    rw [if_pos isField, ok]
    rfl
  · refine ⟨model, s, ?_, rfl, isVariable⟩
    rw [if_neg isField, ok]
    rfl

/-- Binding a symbol that looking it up would bind changes no variable. -/
theorem Lowering.scope?_declare {scopes : Scopes} {symbol : Source.Symbol} {type : TypeInfo}
    (unbound : scopes.lookup id = none) (found : r.program.symbol? id = some symbol)
    (classified : scopes.classify symbol = .ok scope) (resolved : r.resolve symbol.ty = .ok type) :
    scope? r ctx (scopes.declare id scope type) = scope? r ctx scopes := by
  funext name other
  have looked : (scopes.declare id scope type).lookup other =
      if other = id then some ⟨scope, type⟩ else scopes.lookup other := by
    rw [Scopes.lookup, Scopes.declare, List.lookup_cons]
    by_cases isNew : other = id
    · simp [isNew]
    · rw [beq_eq_false_iff_ne.2 isNew, if_neg isNew]
      rfl
  unfold scope?
  rw [looked]
  by_cases isNew : other = id
  · subst isNew
    simp only [if_true, unbound, found, classified, resolved]
  · have classify := Scopes.classify_congr (show (scopes.declare id scope type).fields =
      scopes.fields from rfl)
    simp only [isNew, if_false, classify]

/-- A name of a variable is lowered to the variable, and all variables are known as before. -/
theorem Lowering.identifier_of_scope? {s : Progress}
    (isScope : scope? r ctx s.scopes name id = some scope) :
    ∃ model s', identifier r ctx name id s = (.ok model, s') ∧
      scope? r ctx s'.scopes = scope? r ctx s.scopes ∧ model.IsVariable name scope := by
  have notThis : name ≠ "this" := by
    rintro rfl
    cases isScope
  rw [identifier_apply, if_neg notThis]
  rw [scope?, if_neg notThis] at isScope
  cases isAlias : ctx.alias? id with
  | some e =>
    -- the result of a callback is a variable as long as it keeps its name
    rw [isAlias] at isScope
    split at isScope
    next result _ isResult =>
      obtain rfl := Option.some.inj isResult
      split at isScope
      next sameName =>
        obtain rfl := Option.some.inj isScope
        subst sameName
        refine ⟨_, s, rfl, rfl, ⟨⟨rfl, rfl, rfl, by simp⟩, ?_⟩⟩
        intro t insideJson isStatement
        simp only [Model.Expr.draft]
      next => cases isScope
    next => cases isScope
    next noAlias => cases noAlias
  | none =>
    rw [isAlias] at isScope
    simp only at isScope
    cases bound : s.scopes.lookup id with
    | some binding =>
      rw [bound] at isScope
      obtain rfl := Option.some.inj isScope
      obtain ⟨model, s', ok, same, isVariable⟩ :=
        variableOf_apply name binding.scope binding.type s
      exact ⟨model, s', ok, by rw [same], isVariable⟩
    | none =>
      -- a symbol that has not been met before is bound by this
      rw [bound] at isScope
      simp only at isScope
      split at isScope
      next => cases isScope
      next symbol found =>
        split at isScope
        next scope' type classified resolved =>
          obtain rfl := Option.some.inj isScope
          obtain ⟨model, s', ok, same, isVariable⟩ := variableOf_apply name scope' type
            { s with scopes := s.scopes.declare id scope' type, lookedUp := id :: s.lookedUp }
          refine ⟨model, s', ?_, ?_, isVariable⟩
          · rw [unbound_apply found classified resolved]
            exact ok
          · rw [same]
            exact scope?_declare bound found classified resolved
        next => cases isScope

/-! ## Expressions -/

/-- Whether a phrase has binary operators and parentheses only. -/
def Phrase.IsPlain : Phrase → Prop
  | .name _ => True
  | .group inner => inner.IsPlain
  | .binary _ lhs rhs => lhs.IsPlain ∧ rhs.IsPlain
  | _ => False

/-- Whether a language writes every form of a phrase as it stands: Ruby has no steps in
expressions and Kotlin writes conditional expressions in words. -/
def Target.Keeps (t : Target) (p : Phrase) : Prop := p.IsPlain ∨ t = .javascript ∨ t = .groovy

variable {t : Target}

theorem Target.Keeps.common {p : Phrase} (keeps : t.Keeps p) (other : ¬p.IsPlain) :
    t = .javascript ∨ t = .groovy := keeps.resolve_left other

theorem Target.Keeps.operands {op : BinaryOp} {lhs rhs : Phrase}
    (keeps : t.Keeps (.binary op lhs rhs)) : t.Keeps lhs ∧ t.Keeps rhs := by
  rcases keeps with ⟨left, right⟩ | common
  · exact ⟨.inl left, .inl right⟩
  · exact ⟨.inr common, .inr common⟩

theorem Target.alike_parenthesized {inner : Draft} {text : String}
    (alike : inner.Alike (.text text)) :
    (Target.parenthesized inner).Alike (.text ("(" ++ text ++ ")")) :=
  ((Draft.Alike.refl _).text_append alike).text_append (.refl _)

theorem Target.alike_binary {lhs rhs : Draft} {left right : String} (op : BinaryOp)
    (alikeLeft : lhs.Alike (.text left)) (alikeRight : rhs.Alike (.text right)) :
    (t.binary op lhs rhs).Alike (.text (left ++ " " ++ t.token op ++ " " ++ right)) := by
  rw [← t.operator_eq_token op]
  exact (((alikeLeft.text_append (.refl _)).text_append (.refl _)).text_append
    (.refl _)).text_append alikeRight

theorem Target.alike_conditional {cond yes no : Draft} {condText yesText noText : String}
    (common : t = .javascript ∨ t = .groovy) (alikeCond : cond.Alike (.text condText))
    (alikeYes : yes.Alike (.text yesText)) (alikeNo : no.Alike (.text noText)) :
    (t.conditional cond yes no).Alike
      (.text (condText ++ " ? " ++ yesText ++ " : " ++ noText)) := by
  have alike := (((alikeCond.text_append (.refl (.text " ? "))).text_append alikeYes).text_append
    (.refl (.text " : "))).text_append alikeNo
  rcases common with rfl | rfl <;> exact alike

theorem Target.alike_not {operand : Draft} {text : String} (isStatement : Bool)
    (common : t = .javascript ∨ t = .groovy) (alike : operand.Alike (.text text)) :
    (t.unary isStatement false .not operand).Alike (.text ("!" ++ text)) := by
  have before := (Draft.Alike.refl (.text "!")).text_append alike
  rcases common with rfl | rfl <;> exact before

/-- The operator of a step. -/
def Stepping.op : Stepping → UnaryOp
  | .increment => .postIncrement
  | .decrement => .postDecrement

theorem Target.alike_step {operand : Draft} {word : String} (isStatement isCheck : Bool)
    (stepping : Stepping) (common : t = .javascript ∨ t = .groovy)
    (alike : operand.Alike (.text word)) :
    (t.unary isStatement isCheck stepping.op operand).Alike (.text (word ++ stepping.sign)) := by
  have after := alike.text_append (.refl (.text stepping.sign))
  rcases common with rfl | rfl <;> cases stepping <;> exact after

/-- Whether an expression is lowered to an operand that is written as a phrase, with all
variables known as before. -/
def Lowering.WritesAs (t : Target) (r : Resolver) (ctx : Context) (s : Progress)
    (e : Source.Expr) (p : Phrase) : Prop :=
  ∃ model s', e.lowerWith (identifier r) r ctx s = (.ok model, s') ∧
    scope? r ctx s'.scopes = scope? r ctx s.scopes ∧ model.IsOperand ∧
    ∀ insideJson isStatement,
      (model.draft t insideJson isStatement).Alike (.text (p.text t.token))

theorem Lowering.exists_of_word? {s : Progress} {word : String}
    (found : word? t r ctx s.scopes name id = some word) :
    ∃ model s', identifier r ctx name id s = (.ok model, s') ∧
      scope? r ctx s'.scopes = scope? r ctx s.scopes ∧ model.IsOperand ∧
      ∀ insideJson isStatement, model.draft t insideJson isStatement = .text word := by
  rw [word?] at found
  split at found
  next => cases found
  next =>
    obtain ⟨scope, isScope, rfl⟩ := Option.map_eq_some_iff.1 found
    obtain ⟨model, s', ok, same, isVariable⟩ := identifier_of_scope? isScope
    exact ⟨model, s', ok, same, isVariable.isOperand, isVariable.draft t⟩

/-- A step of a variable is lowered to that step. -/
theorem Lowering.writesAs_step {s : Progress} {word : String} (stepping : Stepping)
    {kind : Source.UnaryKind} (isOp : unaryOp kind = .ok stepping.op)
    (common : t = .javascript ∨ t = .groovy)
    (found : word? t r ctx s.scopes name id = some word) (place span : Source.Span) :
    WritesAs t r ctx s (.unary kind (.ident name id place) span) (.step stepping word) := by
  obtain ⟨model, s', ok, same, isOperand, isText⟩ := exists_of_word? found
  refine ⟨.unary stepping.op model, s', ?_, same, ⟨rfl, rfl, rfl, by simp⟩, ?_⟩
  · rw [Source.Expr.lowerWith, isOp]
    change ((Source.Expr.ident name id place).lowerWith (identifier r) r ctx >>= _) s = _
    rw [Source.Expr.lowerWith, bind_of_ok ok, Model.Expr.applyUnary, isOperand.notClass]
    rfl
  · intro insideJson isStatement
    rw [Model.Expr.draft, isText]
    exact t.alike_step isStatement _ stepping common (.refl _)

/-- An expression that is a phrase is lowered and written as that phrase. -/
theorem Lowering.writesAs_of_phrase? {s : Progress} {e : Source.Expr} {p : Phrase}
    (isPhrase : e.phrase? (word? t r ctx s.scopes) = some p) (keeps : t.Keeps p) :
    WritesAs t r ctx s e p := by
  -- what has been lowered before leaves the words of all variables as they are
  have sameWords {s s' : Progress} (same : scope? r ctx s'.scopes = scope? r ctx s.scopes) :
      word? t r ctx s'.scopes = word? t r ctx s.scopes := by
    funext name id
    rw [word?, word?, same]
  induction e using Source.Expr.phrase?.induct generalizing p s with
  | case1 name id span =>
    rw [Source.Expr.phrase?] at isPhrase
    obtain ⟨word, found, rfl⟩ := Option.map_eq_some_iff.1 isPhrase
    obtain ⟨model, s', ok, same, isOperand, isText⟩ := exists_of_word? found
    refine ⟨model, s', ?_, same, isOperand, fun insideJson isStatement => ?_⟩
    · rw [Source.Expr.lowerWith]
      exact ok
    · rw [isText]
      exact .refl _
  | case2 digits span =>
    rw [Source.Expr.phrase?] at isPhrase
    obtain rfl := Option.some.inj isPhrase
    refine ⟨.literal (.int digits), s, ?_, rfl, ⟨rfl, rfl, rfl, by simp⟩,
      fun insideJson isStatement => ?_⟩
    · rw [Source.Expr.lowerWith]
      rfl
    · rw [Model.Expr.draft]
      exact .refl _
  | case3 inner span ih =>
    rw [Source.Expr.phrase?] at isPhrase
    obtain ⟨q, isInner, rfl⟩ := Option.map_eq_some_iff.1 isPhrase
    obtain ⟨model, s', ok, same, _, alike⟩ := ih isInner keeps
    refine ⟨.parenthesized model, s', ?_, same, ⟨rfl, rfl, rfl, by simp⟩,
      fun insideJson isStatement => ?_⟩
    · rw [Source.Expr.lowerWith, bind_of_ok ok]
      rfl
    · rw [Model.Expr.draft]
      exact Target.alike_parenthesized (alike insideJson false)
  | case4 kind lhs rhs span ihl ihr =>
    rw [Source.Expr.phrase?] at isPhrase
    obtain ⟨op, isOp, isPhrase⟩ := Option.bind_eq_some_iff.1 isPhrase
    obtain ⟨left, isLeft, isPhrase⟩ := Option.bind_eq_some_iff.1 isPhrase
    obtain ⟨right, isRight, isPhrase⟩ := Option.bind_eq_some_iff.1 isPhrase
    obtain rfl := Option.some.inj isPhrase
    have isOp : binaryOp kind = .ok op := binaryOp_of_operator? isOp
    obtain ⟨keepsLeft, keepsRight⟩ := keeps.operands
    obtain ⟨lhs', s', okLeft, same, operandLeft, alikeLeft⟩ := ihl isLeft keepsLeft
    rw [← sameWords same] at isRight
    obtain ⟨rhs', s'', okRight, same', operandRight, alikeRight⟩ := ihr isRight keepsRight
    refine ⟨.binary op lhs' rhs', s'', ?_, same'.trans same, ⟨rfl, rfl, rfl, by simp⟩,
      fun insideJson isStatement => ?_⟩
    · rw [Source.Expr.lowerWith, isOp]
      change (lhs.lowerWith (identifier r) r ctx >>= _) s = _
      rw [bind_of_ok okLeft]
      rw [bind_of_ok okRight, Model.Expr.applyBinary_operands operandLeft operandRight]
      rfl
    · rw [Model.Expr.draft]
      exact Target.alike_binary op (alikeLeft insideJson false) (alikeRight insideJson false)
  | case5 operand span ih =>
    rw [Source.Expr.phrase?] at isPhrase
    obtain ⟨q, isInner, rfl⟩ := Option.map_eq_some_iff.1 isPhrase
    have common := keeps.common fun plain => plain
    obtain ⟨model, s', ok, same, isOperand, alike⟩ := ih isInner (.inr common)
    refine ⟨.unary .not model, s', ?_, same, ⟨rfl, rfl, rfl, by simp⟩,
      fun insideJson isStatement => ?_⟩
    · rw [Source.Expr.lowerWith]
      change (operand.lowerWith (identifier r) r ctx >>= _) s = _
      rw [bind_of_ok ok, Model.Expr.applyUnary, isOperand.notClass]
      rfl
    · rw [Model.Expr.draft, isOperand.notCheck]
      exact Target.alike_not isStatement common (alike insideJson false)
  | case6 name id place span =>
    rw [Source.Expr.phrase?] at isPhrase
    obtain ⟨word, found, rfl⟩ := Option.map_eq_some_iff.1 isPhrase
    exact writesAs_step .increment rfl (keeps.common (fun plain => plain)) found place span
  | case7 name id place span =>
    rw [Source.Expr.phrase?] at isPhrase
    obtain ⟨word, found, rfl⟩ := Option.map_eq_some_iff.1 isPhrase
    exact writesAs_step .decrement rfl (keeps.common (fun plain => plain)) found place span
  | case8 cond yes no span ihc ihy ihn =>
    rw [Source.Expr.phrase?] at isPhrase
    obtain ⟨first, isFirst, isPhrase⟩ := Option.bind_eq_some_iff.1 isPhrase
    obtain ⟨second, isSecond, isPhrase⟩ := Option.bind_eq_some_iff.1 isPhrase
    obtain ⟨third, isThird, isPhrase⟩ := Option.bind_eq_some_iff.1 isPhrase
    obtain rfl := Option.some.inj isPhrase
    have common := keeps.common fun plain => plain
    obtain ⟨cond', s₁, ok₁, same₁, _, alike₁⟩ := ihc isFirst (.inr common)
    rw [← sameWords same₁] at isSecond isThird
    obtain ⟨yes', s₂, ok₂, same₂, _, alike₂⟩ := ihy isSecond (.inr common)
    rw [← sameWords same₂] at isThird
    obtain ⟨no', s₃, ok₃, same₃, _, alike₃⟩ := ihn isThird (.inr common)
    refine ⟨.conditional cond' yes' no', s₃, ?_, same₃.trans (same₂.trans same₁),
      ⟨rfl, rfl, rfl, by simp⟩, fun insideJson isStatement => ?_⟩
    · rw [Source.Expr.lowerWith, bind_of_ok ok₁, bind_of_ok ok₂, bind_of_ok ok₃]
      rfl
    · rw [Model.Expr.draft]
      exact Target.alike_conditional common (alike₁ insideJson false) (alike₂ insideJson false)
        (alike₃ insideJson false)
  | case9 e notName notNumber notParens notBinary notNot notUp notDown notConditional =>
    rw [Source.Expr.phrase?] at isPhrase
    · cases isPhrase
    all_goals assumption

end Polyscript
