import Mathlib.Data.List.Chain
import Polyscript.Proofs.Phrase.Writing
import Polyscript.Proofs.Spelling.Name

/-!
# Stacked operators

Prefix operators are written one right after the other, the last one right before the operand. A
reader takes the longest token that there is, so two signs may become one: `- -n` is written `--n`,
which is a step of `n`. That happens just where a minus comes before a minus or a step down, and a
plus before a plus or a step up. All other operators are read as they have been written, however
many there are and whatever variable or number follows them.

## Main definitions

* `CutsInto`: the tokens of a text by longest match.
* `Signed`: prefix operators and the variable or number that they are applied to.
* `PrefixOp.meets`: the operators whose signs become one.

## Main statement

* `Source.Expr.lower_cutsInto_iff`: which stacked operators are read back.
-/

namespace Polyscript

open Lowering Step
open Model (Scope UnaryOp)

/-! ### Tokens by longest match -/

/-- Whether characters go on with a number after a character of it: digits, letters and points do,
and so does a sign after the letter of an exponent. -/
def goesOnNumeral : Char → List Char → Bool
  | _, [] => true
  | last, c :: rest =>
    (isWordChar c || c = '.' || (c = '+' || c = '-') && ['e', 'E', 'p', 'P'].contains last) &&
      goesOnNumeral c rest

/-- Whether characters are a number: they begin with a digit, or with a point and a digit. -/
def isNumeral : List Char → Bool
  | [] => false
  | c :: rest => (c.isDigit || c = '.' && rest.head?.any Char.isDigit) && goesOnNumeral c rest

/-- Whether characters are a word between backquotes. -/
def IsQuoted (chars : List Char) : Prop :=
  ∃ word, IsRun word ∧ chars = "`".toList ++ word ++ "`".toList

/-- Whether characters are a word or a number. -/
def IsAtom (chars : List Char) : Prop := IsRun chars ∨ IsQuoted chars ∨ isNumeral chars = true

/-- Whether characters are a word, a number or a sign. -/
def IsLexeme (chars : List Char) : Prop := IsAtom chars ∨ isSign chars = true

/-- The tokens of a text, each one as long as possible. Blanks separate tokens. -/
inductive CutsInto : List Char → List String → Prop where
  | nil : CutsInto [] []
  | blank {rest : List Char} {tokens : List String} (others : CutsInto rest tokens) :
    CutsInto (' ' :: rest) tokens
  | token {token : String} {rest : List Char} {tokens : List String}
    (isLexeme : IsLexeme token.toList)
    (longest : ∀ more, more ≠ [] → more <+: rest → ¬IsLexeme (token.toList ++ more))
    (others : CutsInto rest tokens) : CutsInto (token.toList ++ rest) (token :: tokens)

/-- The first character of a word or a number. -/
def beginsAtom (c : Char) : Bool := isWordChar c || c = '.' || "`".toList.contains c

theorem IsAtom.begins {chars : List Char} (isAtom : IsAtom chars) :
    ∃ c rest, chars = c :: rest ∧ beginsAtom c = true := by
  rcases isAtom with ⟨notNil, words⟩ | ⟨word, _, rfl⟩ | numeral
  · obtain ⟨c, rest, rfl⟩ := List.exists_cons_of_ne_nil notNil
    rw [List.all_cons, Bool.and_eq_true] at words
    exact ⟨c, rest, rfl, by simp only [beginsAtom, words.1, Bool.true_or]⟩
  · exact ⟨_, _, rfl, by decide⟩
  · cases chars with
    | nil => cases numeral
    | cons c rest =>
      simp only [isNumeral, Bool.and_eq_true, Bool.or_eq_true, decide_eq_true_eq] at numeral
      refine ⟨c, rest, rfl, ?_⟩
      rcases numeral.1 with isDigit | ⟨rfl, _⟩
      · simp [beginsAtom, isWordChar, Char.isAlphanum, isDigit]
      · decide

/-- What is true of the characters of all signs is true of those of a sign. -/
theorem all_of_isSign {p : Char → Bool} (all : (signs.all fun s => s.toList.all p) = true)
    {chars : List Char} (sign : isSign chars = true) {c : Char} (mem : c ∈ chars) : p c = true := by
  obtain ⟨s, inSigns, isText⟩ := List.any_eq_true.1 sign
  obtain rfl : s.toList = chars := of_decide_eq_true isText
  exact List.all_eq_true.1 (List.all_eq_true.1 all s inSigns) c mem

/-- Neither the first character of a sign nor another one begins a word or a number. -/
theorem not_beginsAtom_of_isSign {chars : List Char} (sign : isSign chars = true) {c : Char}
    (mem : c ∈ chars) : beginsAtom c = false := by
  have begins := @all_of_isSign (!beginsAtom ·) (by decide) chars sign c mem
  rwa [Bool.not_eq_true'] at begins

theorem ne_nil_of_isSign {chars : List Char} (sign : isSign chars = true) : chars ≠ [] := by
  rintro rfl
  revert sign
  decide

theorem ne_blank_of_isSign {chars : List Char} (sign : isSign chars = true) {c : Char}
    (mem : c ∈ chars) : c ≠ ' ' :=
  bne_iff_ne.1 (@all_of_isSign (· != ' ') (by decide) chars sign c mem)

/-- A token begins with a character that is no blank. -/
theorem IsLexeme.begins {chars : List Char} (isLexeme : IsLexeme chars) :
    ∃ c rest, chars = c :: rest ∧ c ≠ ' ' := by
  rcases isLexeme with isAtom | sign
  · obtain ⟨c, rest, isText, begins⟩ := isAtom.begins
    refine ⟨c, rest, isText, ?_⟩
    rintro rfl
    revert begins
    decide
  · obtain ⟨c, rest, rfl⟩ := List.exists_cons_of_ne_nil (ne_nil_of_isSign sign)
    exact ⟨c, rest, rfl, ne_blank_of_isSign sign List.mem_cons_self⟩

theorem IsLexeme.append_ne_nil {chars : List Char} (isLexeme : IsLexeme chars) (rest : List Char) :
    chars ++ rest ≠ [] := by
  obtain ⟨c, others, rfl, _⟩ := isLexeme.begins
  exact List.cons_ne_nil c _

theorem IsLexeme.append_ne_blank {chars : List Char} (isLexeme : IsLexeme chars)
    (rest rest' : List Char) : chars ++ rest ≠ ' ' :: rest' := by
  obtain ⟨c, others, rfl, notBlank⟩ := isLexeme.begins
  exact fun same => notBlank (List.cons.inj same).1

/-- What begins with a sign and is a token is a sign. -/
theorem isSign_of_isLexeme {front back : List Char} (sign : isSign front = true)
    (isLexeme : IsLexeme (front ++ back)) : isSign (front ++ back) = true := by
  refine isLexeme.resolve_left fun isAtom => ?_
  obtain ⟨c, front, rfl⟩ := List.exists_cons_of_ne_nil (ne_nil_of_isSign sign)
  obtain ⟨_, _, isText, begins⟩ := isAtom.begins
  cases isText
  rw [not_beginsAtom_of_isSign sign List.mem_cons_self] at begins
  cases begins

/-- A sign is as long as possible if the character that follows makes no longer sign of it. -/
theorem longest_iff {front : List Char} (sign : isSign front = true) (c : Char) (rest : List Char) :
    (∀ more, more ≠ [] → more <+: c :: rest → ¬IsLexeme (front ++ more)) ↔
      isSign (front ++ [c]) = false := by
  rw [Bool.eq_false_iff]
  constructor
  · intro longest longer
    exact longest [c] (List.cons_ne_nil c []) ⟨rest, rfl⟩ (.inr longer)
  · intro noSign more notNil begins isLexeme
    obtain ⟨d, more, rfl⟩ := List.exists_cons_of_ne_nil notNil
    obtain ⟨after, split⟩ := begins
    cases split
    -- what begins the longer sign is a sign itself
    have longer := isSign_of_isLexeme sign isLexeme
    rw [List.append_cons] at longer
    exact noSign (isSign_of_append longer (by simp))

/-- A sign at the beginning of a text is its first token if it is as long as possible. -/
theorem cutsInto_sign_iff {token : String} (sign : isSign token.toList = true) {c : Char}
    {rest : List Char} {tokens : List String} :
    CutsInto (token.toList ++ c :: rest) (token :: tokens) ↔
      isSign (token.toList ++ [c]) = false ∧ CutsInto (c :: rest) tokens := by
  rw [← longest_iff sign c rest]
  constructor
  · intro cuts
    -- the text as a whole is cut, so that its two readings can be compared
    generalize isText : token.toList ++ c :: rest = text at cuts
    cases cuts with
    | blank others => exact absurd isText (IsLexeme.append_ne_blank (.inr sign) _ _)
    | token isLexeme longest others =>
      obtain rfl := List.append_cancel_left isText
      exact ⟨longest, others⟩
  · rintro ⟨longest, others⟩
    exact .token (.inr sign) longest others

/-- Two tokens at the beginning of a text are the same if both are as long as possible. -/
theorem token_unique {token token' rest rest' : List Char}
    (split : token ++ rest = token' ++ rest') (isLexeme : IsLexeme token)
    (isLexeme' : IsLexeme token')
    (longest : ∀ more, more ≠ [] → more <+: rest → ¬IsLexeme (token ++ more))
    (longest' : ∀ more, more ≠ [] → more <+: rest' → ¬IsLexeme (token' ++ more)) :
    token = token' ∧ rest = rest' := by
  rcases List.append_eq_append_iff.1 split with ⟨more, rfl, rfl⟩ | ⟨more, rfl, rfl⟩
  · by_cases none : more = []
    · subst none
      simp
    · exact absurd isLexeme' (longest more none (List.prefix_append more rest'))
  · by_cases none : more = []
    · subst none
      simp
    · exact absurd isLexeme (longest' more none (List.prefix_append more rest))

/-- A text is cut in one way only. -/
theorem CutsInto.unique {text : List Char} {tokens tokens' : List String}
    (cuts : CutsInto text tokens) (cuts' : CutsInto text tokens') : tokens = tokens' := by
  induction cuts generalizing tokens' with
  | nil =>
    generalize isText : [] = text at cuts'
    cases cuts' with
    | nil => rfl
    | blank => cases isText
    | token isLexeme => exact absurd isText.symm (isLexeme.append_ne_nil _)
  | @blank rest tokens others ih =>
    generalize isText : ' ' :: rest = text at cuts'
    cases cuts' with
    | nil => cases isText
    | blank others' =>
      cases isText
      exact ih others'
    | token isLexeme => exact absurd isText.symm (isLexeme.append_ne_blank _ _)
  | @token token rest tokens isLexeme longest others ih =>
    generalize isText : token.toList ++ rest = text at cuts'
    cases cuts' with
    | nil => exact absurd isText (isLexeme.append_ne_nil _)
    | blank => exact absurd isText (isLexeme.append_ne_blank _ _)
    | token isLexeme' longest' others' =>
      -- of two tokens at the same place neither is the longer one
      obtain ⟨same, rfl⟩ := token_unique isText isLexeme isLexeme' longest longest'
      rw [String.toList_inj.1 same, ih others']

theorem cutsInto_atom {atom : String} (isAtom : IsAtom atom.toList) :
    CutsInto atom.toList [atom] := by
  have last : CutsInto (atom.toList ++ []) [atom] :=
    .token (.inl isAtom) (fun more notNil none => absurd (List.prefix_nil.1 none) notNil) .nil
  rwa [List.append_nil] at last

/-! ### Prefix operators -/

/-- The operators that are written before their operand. -/
inductive PrefixOp where
  | minus
  | plus
  | not
  | increment
  | decrement
  deriving DecidableEq

namespace PrefixOp

/-- The operator of the model. -/
def op : PrefixOp → UnaryOp
  | .minus => .minus
  | .plus => .plus
  | .not => .not
  | .increment => .preIncrement
  | .decrement => .preDecrement

/-- The sign of an operator. -/
def sign (op : PrefixOp) : String := op.op.symbol

/-- Whether the sign of an operator and that of another one right after it begin a longer sign: a
minus meets a minus or a step down, and a plus meets a plus or a step up. -/
def meets : PrefixOp → PrefixOp → Bool
  | .minus, .minus | .minus, .decrement | .plus, .plus | .plus, .increment => true
  | _, _ => false

theorem isSign_sign (op : PrefixOp) : isSign op.sign.toList = true := by cases op <;> decide

/-- What the first character of a sign makes of the sign before it. -/
theorem isSign_sign_append (op next : PrefixOp) :
    ∃ c rest, next.sign.toList = c :: rest ∧ isSign (op.sign.toList ++ [c]) = op.meets next := by
  cases op <;> cases next <;> exact ⟨_, _, rfl, by decide⟩

end PrefixOp

/-- Prefix operators, the first one first, and the text of a variable or number after them. -/
structure Signed where
  ops : List PrefixOp
  operand : String

namespace Signed

/-- The text that is written. -/
def text (signed : Signed) : String :=
  signed.ops.foldr (fun op text => op.sign ++ text) signed.operand

/-- The tokens that are meant. -/
def tokens (signed : Signed) : List String := signed.ops.map PrefixOp.sign ++ [signed.operand]

theorem toList_text_cons (op : PrefixOp) (ops : List PrefixOp) (operand : String) :
    (Signed.mk (op :: ops) operand).text.toList =
      op.sign.toList ++ (Signed.mk ops operand).text.toList :=
  String.toList_append

/-- The text is cut into the tokens that are meant just where no operator meets the one after it. -/
theorem cutsInto_iff {signed : Signed} (isAtom : IsAtom signed.operand.toList) :
    CutsInto signed.text.toList signed.tokens ↔
      signed.ops.IsChain fun op next => op.meets next = false := by
  obtain ⟨ops, operand⟩ := signed
  induction ops with
  | nil => exact iff_of_true (cutsInto_atom isAtom) .nil
  | cons op ops ih =>
    specialize ih isAtom
    -- the sign of the operator is decided by the first character after it
    have first {c : Char} {rest : List Char}
        (isText : (Signed.mk ops operand).text.toList = c :: rest) :
        CutsInto (Signed.mk (op :: ops) operand).text.toList
            (Signed.mk (op :: ops) operand).tokens ↔
          isSign (op.sign.toList ++ [c]) = false ∧
            ops.IsChain fun op next => op.meets next = false := by
      rw [toList_text_cons, ← ih, isText]
      exact cutsInto_sign_iff op.isSign_sign
    cases ops with
    | nil =>
      -- no sign goes on with a character that begins a word or a number
      obtain ⟨c, rest, isOperand, begins⟩ := isAtom.begins
      have ends : isSign (op.sign.toList ++ [c]) = false := by
        by_contra longer
        rw [not_beginsAtom_of_isSign (Bool.of_not_eq_false longer) (by simp)] at begins
        cases begins
      exact (first isOperand).trans (iff_of_true ⟨ends, .nil⟩ (.singleton op))
    | cons next ops =>
      obtain ⟨c, rest, isNext, longer⟩ := op.isSign_sign_append next
      rw [List.isChain_cons_cons, ← longer]
      exact first (by rw [toList_text_cons, isNext, List.cons_append])

end Signed

/-! ### Variables and numbers -/

theorem goesOnNumeral_of_words (last : Char) {chars : List Char}
    (words : chars.all isWordChar = true) : goesOnNumeral last chars = true := by
  induction chars generalizing last with
  | nil => rfl
  | cons c chars ih =>
    rw [List.all_cons, Bool.and_eq_true] at words
    simp only [goesOnNumeral, words.1, ih c words.2, Bool.true_or, Bool.and_self]

theorem goesOnNumeral_append {last : Char} {chars more : List Char}
    (goesOn : goesOnNumeral last chars = true) (words : more.all isWordChar = true) :
    goesOnNumeral last (chars ++ more) = true := by
  induction chars generalizing last with
  | nil => exact goesOnNumeral_of_words last words
  | cons c chars ih =>
    rw [goesOnNumeral, Bool.and_eq_true] at goesOn
    rw [List.cons_append, goesOnNumeral, goesOn.1, ih goesOn.2, Bool.and_self]

/-- Letters right after a number belong to it. -/
theorem isNumeral_append {chars more : List Char} (numeral : isNumeral chars = true)
    (words : more.all isWordChar = true) : isNumeral (chars ++ more) = true := by
  cases chars with
  | nil => cases numeral
  | cons c rest =>
    simp only [List.cons_append, isNumeral, Bool.and_eq_true, Bool.or_eq_true] at numeral ⊢
    refine ⟨numeral.1.imp_right fun ⟨point, digit⟩ => ⟨point, ?_⟩,
      goesOnNumeral_append numeral.2 words⟩
    cases rest with
    | nil => cases digit
    | cons d rest => exact digit

/-- Whether a literal is a number. -/
def Source.Literal.isNumber : Source.Literal → Bool
  | .int spelling | .long spelling | .float spelling | .double spelling =>
    isNumeral spelling.toList
  | _ => false

/-- A number is written as it is spelled; some languages write a letter after it. -/
theorem Target.isAtom_literal (t : Target) {value : Source.Literal} (isNumber : value.isNumber) :
    IsAtom (t.literal (Lowering.literal value)).toList := by
  obtain ⟨spelling, suffix, numeral, words, isText⟩ : ∃ spelling suffix : String,
      isNumeral spelling.toList = true ∧ suffix.toList.all isWordChar = true ∧
        t.literal (Lowering.literal value) = spelling ++ suffix := by
    cases value with
    | int spelling => exact ⟨spelling, "", isNumber, rfl, String.append_empty.symm⟩
    | long spelling =>
      cases t with
      | groovy | kotlin => exact ⟨spelling, "L", isNumber, by decide, rfl⟩
      | javascript | ruby => exact ⟨spelling, "", isNumber, rfl, String.append_empty.symm⟩
    | float spelling =>
      cases t with
      | groovy | kotlin => exact ⟨spelling, "f", isNumber, by decide, rfl⟩
      | javascript | ruby => exact ⟨spelling, "", isNumber, rfl, String.append_empty.symm⟩
    | double spelling =>
      cases t with
      | groovy => exact ⟨spelling, "d", isNumber, by decide, rfl⟩
      | _ => exact ⟨spelling, "", isNumber, rfl, String.append_empty.symm⟩
    | _ => cases isNumber
  rw [isText, String.toList_append]
  exact .inr (.inr (isNumeral_append numeral words))

theorem Target.isAtom_variableName {t : Target} (unmarked : t ≠ .ruby) {name : String}
    (word : isWord name = true) (scope : Scope) : IsAtom (t.variableName name scope).toList := by
  have isRun := isRun_of_isWord word
  have isIdentifier : t.variableName name scope = t.identifier name := by
    cases t with
    | ruby => exact absurd rfl unmarked
    | _ => rfl
  rw [isIdentifier]
  by_cases reserved : name ∈ t.reserved
  · have underscored : IsRun (name ++ "_").toList := by
      rw [String.toList_append]
      refine ⟨List.append_ne_nil_of_left_ne_nil isRun.1 _, ?_⟩
      rw [List.all_append, isRun.2]
      rfl
    cases t with
    | kotlin => exact .inr (.inl ⟨name.toList, isRun, by simp [identifier, reserved]⟩)
    | ruby => exact absurd rfl unmarked
    | javascript | groovy =>
      left
      simpa [identifier, reserved] using underscored
  · rw [identifier_of_notMem reserved]
    exact .inl isRun

/-! ### Source expressions -/

/-- The prefix operator of a unary operator; the complement of bits is not one that is lowered. -/
def Source.UnaryKind.prefixOp? : Source.UnaryKind → Option PrefixOp
  | .unaryMinus => some .minus
  | .unaryPlus => some .plus
  | .logicalComplement => some .not
  | .prefixIncrement => some .increment
  | .prefixDecrement => some .decrement
  | .postfixIncrement | .postfixDecrement | .bitwiseComplement => none

theorem Source.UnaryKind.unaryOp_eq {kind : Source.UnaryKind} {op : PrefixOp}
    (isPrefix : kind.prefixOp? = some op) : unaryOp kind = .ok op.op := by
  cases kind <;> cases isPrefix <;> rfl

/-- Whether an expression is a variable or number with prefix operators before it, as a language
writes them. -/
inductive Source.Expr.Stacked (t : Target) (r : Resolver) (ctx : Context) (scopes : Scopes) :
    Source.Expr → Signed → Prop where
  | name {name : String} {id : SymbolId} {span : Span} {scope : Scope}
    (word : isWord name = true) (isScope : scope? r ctx scopes name id = some scope) :
    Stacked t r ctx scopes (.ident name id span) ⟨[], t.variableName name scope⟩
  | number {value : Source.Literal} {span : Span} (isNumber : value.isNumber = true) :
    Stacked t r ctx scopes (.literal value span) ⟨[], t.literal (Lowering.literal value)⟩
  | unary {kind : UnaryKind} {operand : Source.Expr} {span : Span} {op : PrefixOp} {signed : Signed}
    (isPrefix : kind.prefixOp? = some op) (inner : Stacked t r ctx scopes operand signed) :
    Stacked t r ctx scopes (.unary kind operand span) ⟨op :: signed.ops, signed.operand⟩

/-- Whether an expression is lowered and written as a text wherever it stands. -/
def Source.Expr.IsWritten (t : Target) (r : Resolver) (ctx : Context) (s : Progress)
    (e : Source.Expr) (text : String) : Prop :=
  ∃ model s', e.lower r ctx s = (.ok model, s') ∧ ∀ insideJson isStatement,
    (model.draft t insideJson isStatement).Alike (.text text)

variable {t : Target} {r : Resolver} {ctx : Context} {s : Progress} {e : Source.Expr}
  {signed : Signed}

/-- What the operators are applied to is a word or a number. -/
theorem Source.Expr.Stacked.isAtom (notRuby : t ≠ .ruby)
    (stacked : e.Stacked t r ctx s.scopes signed) : IsAtom signed.operand.toList := by
  induction stacked with
  | name word isScope => exact Target.isAtom_variableName notRuby word _
  | number isNumber => exact t.isAtom_literal isNumber
  | unary isPrefix inner ih => exact ih

theorem Target.alike_unary (notRuby : t ≠ .ruby) (isStatement : Bool) (op : PrefixOp)
    {operand : Draft} {text : String} (alike : operand.Alike (.text text)) :
    (t.unary isStatement false op.op operand).Alike (.text (op.sign ++ text)) := by
  have written := (Draft.Alike.refl (.text op.sign)).text_append alike
  cases t with
  | ruby => exact absurd rfl notRuby
  | _ => cases op <;> exact written

/-- Stacked operators are lowered and written with nothing between them. -/
theorem Source.Expr.Stacked.lower (notRuby : t ≠ .ruby)
    (stacked : e.Stacked t r ctx s.scopes signed) :
    ∃ model s', e.lower r ctx s = (.ok model, s') ∧ model.isClass = false ∧
      Target.isAsyncCheck model = false ∧ ∀ insideJson isStatement,
        (model.draft t insideJson isStatement).Alike (.text signed.text) := by
  -- neither a class nor a check, an operand is written after the operator as it stands
  induction stacked with
  | name word isScope =>
    obtain ⟨model, s', ok, _, isVariable⟩ := identifier_of_scope? isScope
    refine ⟨model, s', ?_, isVariable.isOperand.notClass, isVariable.isOperand.notCheck,
      fun insideJson isStatement => ?_⟩
    · rw [Source.Expr.lower, lowerWith]
      exact ok
    · rw [isVariable.draft]
      exact .refl _
  | @number value span isNumber =>
    refine ⟨.literal (Lowering.literal value), s, ?_, rfl, rfl, fun insideJson isStatement => ?_⟩
    · rw [Source.Expr.lower, lowerWith]
      rfl
    · rw [Model.Expr.draft]
      exact .refl _
  | @unary kind operand span op signed isPrefix inner ih =>
    obtain ⟨model, s', ok, notClass, notCheck, alike⟩ := ih
    refine ⟨.unary op.op model, s', ?_, rfl, rfl, fun insideJson isStatement => ?_⟩
    · rw [Source.Expr.lower, lowerWith, UnaryKind.unaryOp_eq isPrefix]
      change (operand.lower r ctx >>= _) s = _
      rw [bind_of_ok ok, Model.Expr.applyUnary, notClass]
      rfl
    · rw [Model.Expr.draft, notCheck]
      exact Target.alike_unary notRuby isStatement op (alike insideJson false)

theorem Source.Expr.Stacked.isWritten (notRuby : t ≠ .ruby)
    (stacked : e.Stacked t r ctx s.scopes signed) : e.IsWritten t r ctx s signed.text := by
  obtain ⟨model, s', ok, _, _, alike⟩ := stacked.lower notRuby
  exact ⟨model, s', ok, alike⟩

/-- In JavaScript, Groovy and Kotlin a variable or number with prefix operators before it is always
lowered, and it is written as the signs of its operators and its operand. The text is cut into these
just where no minus stands before a minus or a step down and no plus before a plus or a step up. -/
theorem Source.Expr.lower_cutsInto_iff (notRuby : t ≠ .ruby)
    (stacked : e.Stacked t r ctx s.scopes signed) :
    e.IsWritten t r ctx s signed.text ∧
      (CutsInto signed.text.toList signed.tokens ↔
        signed.ops.IsChain fun op next => op.meets next = false) :=
  ⟨stacked.isWritten notRuby, Signed.cutsInto_iff (stacked.isAtom notRuby)⟩

/-- A class with the parameters `n` and `in`, of which most languages reserve the second. -/
def Source.Program.signing : Program where
  unit := { name := "Signing" }
  symbols := .ofList [
    (1, { name := "n", kind := .parameter, ty := .primitive .int }),
    (2, { name := "in", kind := .parameter, ty := .primitive .int })]

/-- `-++in` -/
def Source.Expr.minusStep : Source.Expr :=
  .unary .unaryMinus (.unary .prefixIncrement (.ident "in" 2))

/-- `-!+1.5e-3` -/
def Source.Expr.minusNot : Source.Expr :=
  .unary .unaryMinus (.unary .logicalComplement (.unary .unaryPlus (.literal (.double "1.5e-3"))))

/-- `- -n` -/
def Source.Expr.minusTwice : Source.Expr :=
  .unary .unaryMinus (.unary .unaryMinus (.ident "n" 1))

/-- Operators before a reserved name in Kotlin and before a number in Groovy. -/
theorem Source.Expr.lower_cutsInto_iff_minusStep :
    let r := Program.signing.resolver {}
    let ctx := ({} : Config).context
    let start := Program.signing.start
    (Target.kotlin ≠ .ruby ∧
      minusStep.Stacked .kotlin r ctx start.scopes ⟨[.minus, .increment], "`in`"⟩ ∧
      minusStep.IsWritten .kotlin r ctx start "-++`in`" ∧
      CutsInto "-++`in`".toList ["-", "++", "`in`"]) ∧
    (Target.groovy ≠ .ruby ∧
      minusNot.Stacked .groovy r ctx start.scopes ⟨[.minus, .not, .plus], "1.5e-3d"⟩ ∧
      minusNot.IsWritten .groovy r ctx start "-!+1.5e-3d" ∧
      CutsInto "-!+1.5e-3d".toList ["-", "!", "+", "1.5e-3d"]) := by
  intro r ctx start
  have name : (Source.Expr.ident "in" 2).Stacked .kotlin r ctx start.scopes
    ⟨[], Target.kotlin.variableName "in" .parameter⟩ := .name rfl rfl
  have number : (Source.Expr.literal (.double "1.5e-3")).Stacked .groovy r ctx start.scopes
    ⟨[], Target.groovy.literal (.double "1.5e-3")⟩ := .number (by decide)
  have step : minusStep.Stacked .kotlin r ctx start.scopes ⟨[.minus, .increment], "`in`"⟩ :=
    .unary rfl (.unary rfl name)
  have not : minusNot.Stacked .groovy r ctx start.scopes ⟨[.minus, .not, .plus], "1.5e-3d"⟩ :=
    .unary rfl (.unary rfl (.unary rfl number))
  obtain ⟨written, reads⟩ := lower_cutsInto_iff (by decide) step
  obtain ⟨written', reads'⟩ := lower_cutsInto_iff (by decide) not
  exact ⟨⟨by decide, step, written, reads.2 (by decide)⟩,
    by decide, not, written', reads'.2 (by decide)⟩

theorem Source.Expr.stacked_minusTwice (notRuby : t ≠ .ruby) :
    minusTwice.Stacked t (Program.signing.resolver {}) ({} : Config).context
      Program.signing.start.scopes ⟨[.minus, .minus], "n"⟩ := by
  have isName : t.variableName "n" .parameter = "n" := by
    cases t with
    | ruby => exact absurd rfl notRuby
    | _ => rfl
  have name : (Source.Expr.ident "n" 1).Stacked t (Program.signing.resolver {})
    ({} : Config).context Program.signing.start.scopes ⟨[], t.variableName "n" .parameter⟩ :=
    .name rfl rfl
  rw [isName] at name
  exact .unary rfl (.unary rfl name)

/-- A minus before another one is written as a step down is, and that is what is read. -/
theorem Source.Expr.minusTwice_steps :
    let r := Program.signing.resolver {}
    let ctx := ({} : Config).context
    let start := Program.signing.start
    (minusTwice.Stacked .javascript r ctx start.scopes ⟨[.minus, .minus], "n"⟩ ∧
      minusTwice.IsWritten .javascript r ctx start "--n") ∧
    (minusTwice.Stacked .groovy r ctx start.scopes ⟨[.minus, .minus], "n"⟩ ∧
      minusTwice.IsWritten .groovy r ctx start "--n") ∧
    (minusTwice.Stacked .kotlin r ctx start.scopes ⟨[.minus, .minus], "n"⟩ ∧
      minusTwice.IsWritten .kotlin r ctx start "--n") ∧
    CutsInto "--n".toList ["--", "n"] ∧ ¬CutsInto "--n".toList ["-", "-", "n"] := by
  intro r ctx start
  have written {t : Target} (notRuby : t ≠ .ruby) :
      minusTwice.Stacked t r ctx start.scopes ⟨[.minus, .minus], "n"⟩ ∧
        minusTwice.IsWritten t r ctx start "--n" :=
    ⟨stacked_minusTwice notRuby, (stacked_minusTwice notRuby).isWritten notRuby⟩
  -- the text is that of a step down, and a text is cut in one way only
  have isAtom : IsAtom "n".toList := .inl (isRun_of_isWord (by decide))
  have stepped : CutsInto "--n".toList ["--", "n"] :=
    (@Signed.cutsInto_iff ⟨[.decrement], "n"⟩ isAtom).2 (.singleton _)
  refine ⟨written (by decide), written (by decide), written (by decide), stepped, fun cuts => ?_⟩
  have same := stepped.unique cuts
  revert same
  decide

end Polyscript
