import Polyscript.Spelling.Name

/-!
# Phrases and the grammars of their operators

A phrase is an expression of names, numbers and operators as a reader of a program sees it,
parentheses included. The languages agree on what the operators are and differ in how
tightly they bind and how they are spelled; that is what a grammar says. A phrase fits a
grammar if parentheses stand wherever the grammar needs them.
-/

namespace Polyscript

open Model (BinaryOp)

/-- The two ways to step a variable by one. -/
inductive Stepping where
  | increment
  | decrement
  deriving DecidableEq

/-- The sign of a step, which follows its variable. -/
def Stepping.sign : Stepping → String
  | .increment => "++"
  | .decrement => "--"

/-- An expression of names, numbers and operators. -/
inductive Phrase where
  | name (word : String)
  | number (digits : String)
  | group (inner : Phrase)
  | binary (op : BinaryOp) (lhs rhs : Phrase)
  | not (operand : Phrase)
  | step (stepping : Stepping) (word : String)
  | conditional (cond yes no : Phrase)
  deriving DecidableEq

/-- Whether a character can stand in a name, the signs of fields and globals included. -/
def isWordChar (c : Char) : Bool :=
  c.isAlphanum || c = '_' || c = '$' || c = '@' || 128 ≤ c.toNat

/-- Whether a text is a name. -/
def isWord (s : String) : Bool :=
  match s.toList with
  | [] => false
  | c :: rest => isWordChar c && !c.isDigit && rest.all isWordChar

/-- Whether a text is a number. -/
def isNumber (s : String) : Bool := !s.toList.isEmpty && s.toList.all Char.isDigit

/-- The signs that are not operators between two phrases. -/
def punctuation : List String := ["(", ")", "!", "?", ":", "++", "--"]

/-- How tightly operators bind, a higher level more tightly, and how they are spelled. All
operators between two phrases associate to the left. -/
structure Grammar where
  level : BinaryOp → Nat
  /-- The level of prefix and postfix operators. -/
  unary : Nat
  spelling : BinaryOp → String
  /-- Conditional expressions are at level 0. -/
  level_pos : ∀ op, 0 < level op
  level_lt : ∀ op, level op < unary
  spelling_injective : Function.Injective spelling
  spelling_notMem : ∀ op, spelling op ∉ punctuation

namespace Phrase

/-- The tokens of a phrase. -/
def tokens (spelling : BinaryOp → String) : Phrase → List String
  | .name word => [word]
  | .number digits => [digits]
  | .group inner => "(" :: (inner.tokens spelling ++ [")"])
  | .binary op lhs rhs => lhs.tokens spelling ++ spelling op :: rhs.tokens spelling
  | .not operand => "!" :: operand.tokens spelling
  | .step stepping word => [word, stepping.sign]
  | .conditional cond yes no =>
    cond.tokens spelling ++ "?" :: (yes.tokens spelling ++ ":" :: no.tokens spelling)

variable (g : Grammar)

/-- How tightly the outermost operator of a phrase binds. -/
def rank : Phrase → Nat
  | .conditional .. => 0
  | .binary op _ _ => g.level op
  | _ => g.unary

/-- Whether a phrase has parentheses wherever the grammar needs them: a left operand binds at
least as tightly as its operator and a right operand more tightly, and only the last part
of a conditional expression may be one without parentheses. -/
def Fits : Phrase → Prop
  | .name word => isWord word
  | .number digits => isNumber digits
  | .group inner => inner.Fits
  | .binary op lhs rhs =>
    g.level op ≤ lhs.rank g ∧ g.level op < rhs.rank g ∧ lhs.Fits ∧ rhs.Fits
  | .not operand => operand.rank g = g.unary ∧ operand.Fits
  | .step _ word => isWord word
  | .conditional cond yes no => 0 < cond.rank g ∧ cond.Fits ∧ yes.Fits ∧ no.Fits

instance decidableFits : (p : Phrase) → Decidable (p.Fits g)
  | .name word => inferInstanceAs (Decidable (isWord word = true))
  | .number digits => inferInstanceAs (Decidable (isNumber digits = true))
  | .group inner => decidableFits inner
  | .binary _ lhs rhs =>
    have := decidableFits lhs
    have := decidableFits rhs
    inferInstanceAs (Decidable (_ ∧ _ ∧ _ ∧ _))
  | .not operand =>
    have := decidableFits operand
    inferInstanceAs (Decidable (_ ∧ _))
  | .step _ word => inferInstanceAs (Decidable (isWord word = true))
  | .conditional cond yes no =>
    have := decidableFits cond
    have := decidableFits yes
    have := decidableFits no
    inferInstanceAs (Decidable (_ ∧ _ ∧ _ ∧ _))

/-- What fits depends on the levels of a grammar only, not on how operators are spelled. -/
theorem fits_congr {g g' : Grammar} (level : g.level = g'.level) (unary : g.unary = g'.unary)
    (p : Phrase) : p.Fits g ↔ p.Fits g' := by
  have rank (q : Phrase) : q.rank g = q.rank g' := by
    cases q <;> simp only [Phrase.rank, level, unary]
  induction p with
  | name | number | step => rfl
  | group inner ih => exact ih
  | binary op lhs rhs ihl ihr => simp only [Fits, rank, level, ihl, ihr]
  | not operand ih => simp only [Fits, rank, unary, ih]
  | conditional cond yes no ihc ihy ihn => simp only [Fits, rank, ihc, ihy, ihn]

end Phrase

/-- The levels of operators in Java, JavaScript and Groovy. -/
def commonLevel : BinaryOp → Nat
  | .either => 1
  | .both => 2
  | .bitOr => 3
  | .bitXor => 4
  | .bitAnd => 5
  | .equal | .notEqual => 6
  | .less | .lessEqual | .greater | .greaterEqual => 7
  | .add | .subtract => 8
  | .multiply | .divide | .remainder => 9

/-- The levels of operators in Kotlin, where the operations on bits are functions that are
written between their arguments and bind more tightly than any comparison. -/
def kotlinLevel : BinaryOp → Nat
  | .either => 1
  | .both => 2
  | .equal | .notEqual => 3
  | .less | .lessEqual | .greater | .greaterEqual => 4
  | .bitAnd | .bitOr | .bitXor => 5
  | .add | .subtract => 6
  | .multiply | .divide | .remainder => 7

/-- The levels of operators in Ruby. -/
def rubyLevel : BinaryOp → Nat
  | .either => 1
  | .both => 2
  | .equal | .notEqual => 3
  | .less | .lessEqual | .greater | .greaterEqual => 4
  | .bitOr | .bitXor => 5
  | .bitAnd => 6
  | .add | .subtract => 7
  | .multiply | .divide | .remainder => 8

/-- The tokens of operators in Java. -/
def commonToken : BinaryOp → String
  | .either => "||"
  | .both => "&&"
  | .bitOr => "|"
  | .bitXor => "^"
  | .bitAnd => "&"
  | .equal => "=="
  | .notEqual => "!="
  | .less => "<"
  | .lessEqual => "<="
  | .greater => ">"
  | .greaterEqual => ">="
  | .add => "+"
  | .subtract => "-"
  | .multiply => "*"
  | .divide => "/"
  | .remainder => "%"

/-- The grammar of source expressions. -/
def Grammar.java : Grammar where
  level := commonLevel
  unary := 10
  spelling := commonToken
  level_pos op := by cases op <;> decide
  level_lt op := by cases op <;> decide
  spelling_injective op op' := by cases op <;> cases op' <;> decide
  spelling_notMem op := by cases op <;> decide

/-- The levels of operators in a target language. -/
def Target.level : Target → BinaryOp → Nat
  | .javascript | .groovy => commonLevel
  | .ruby => rubyLevel
  | .kotlin => kotlinLevel

/-- The tokens of operators in a target language. Equality that converts nothing has a longer token
in JavaScript, and the operations on bits are words in Kotlin. -/
def Target.token : Target → BinaryOp → String
  | .javascript, .equal => "==="
  | .javascript, .notEqual => "!=="
  | .kotlin, .bitOr => "or"
  | .kotlin, .bitXor => "xor"
  | .kotlin, .bitAnd => "and"
  | _, op => commonToken op

/-- The operators are written with the tokens that the language has for them. -/
theorem Target.operator_eq_token (t : Target) (op : BinaryOp) : t.operator op = t.token op := by
  cases t <;> cases op <;> rfl

/-- The grammar of a target language. -/
def Target.grammar (t : Target) : Grammar where
  level := t.level
  unary := 10
  spelling := t.token
  level_pos op := by cases t <;> cases op <;> decide
  level_lt op := by cases t <;> cases op <;> decide
  spelling_injective op op' := by cases t <;> cases op <;> cases op' <;> decide
  spelling_notMem op := by cases t <;> cases op <;> decide

end Polyscript
