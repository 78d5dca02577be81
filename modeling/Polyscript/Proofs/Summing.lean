import Polyscript.Model.Operation

/-!
# Sums and concatenations

A sum is built from its operands one sign at a time, and where one of them is known to be a text
the model turns the sum into a concatenation. Whether a sum is one of texts or of numbers is
decided by what its operands amount to when it is evaluated. The model keeps to that: what it
makes of a sum amounts to what the signs amount to one after the other.

## Main definitions

* `Addition`: sums as they are written, with their parentheses.
* `Valuation`: what the expressions in a sum amount to; evaluating them may have effects.

## Main statement

* `Addition.fold_keeps_value`: a sum keeps its value, and its effects, in the model.
-/

namespace Polyscript.Model

/-- What an expression amounts to: a text, or something else. -/
inductive Amount (Other : Type) where
  | text (s : String)
  | other (v : Other)

/-- What is left open of the meaning of sums. -/
structure Valuation (m : Type → Type) (Other : Type) where
  /-- The textual form of something that is no text. -/
  form : Other → String
  /-- The sum of two things neither of which is a text. -/
  plus : Other → Other → Other
  /-- What an expression amounts to that is neither a text nor a sum of any kind. -/
  value : Expr → m (Amount Other)

namespace Valuation

variable {m : Type → Type} {Other : Type} (env : Valuation m Other)

/-- The textual form of an amount. -/
def textOf : Amount Other → String
  | .text s => s
  | .other v => env.form v

/-- The sum of two amounts: with a text it is a text. -/
def add : Amount Other → Amount Other → Amount Other
  | .other v, .other w => .other (env.plus v w)
  | v, w => .text (env.textOf v ++ env.textOf w)

theorem add_text (s : String) :
    env.add (.text s) = fun w => .text (s ++ env.textOf w) := by
  funext w
  cases w <;> rfl

theorem add_text_right (v : Amount Other) (s : String) :
    env.add v (.text s) = .text (env.textOf v ++ s) := by
  cases v <;> rfl

@[simp] theorem textOf_text (s : String) : env.textOf (.text s) = s := rfl

variable [Monad m]

mutual

/-- What an expression amounts to. The parts of a concatenation are evaluated one after the
other, and it is the text of all of them. -/
def eval : Expr → m (Amount Other)
  | .literal (.string s) => pure (.text s)
  | .concat parts => do
    let values ← evalAll parts
    return .text (String.join (values.map env.textOf))
  | .parenthesized inner => eval inner
  | .binary .add lhs rhs => do
    let v ← eval lhs
    let w ← eval rhs
    return env.add v w
  | e => env.value e

/-- What expressions amount to, one after the other. -/
def evalAll : List Expr → m (List (Amount Other))
  | [] => pure []
  | e :: rest => do
    let v ← eval e
    let values ← evalAll rest
    return v :: values

end

theorem eval_of_text? {e : Expr} {s : String} (isText : e.text? = some s) :
    env.eval e = pure (.text s) := by
  unfold Expr.text? at isText
  split at isText
  · cases isText
    rfl
  · cases isText

variable [LawfulMonad m]

theorem evalAll_append_singleton (parts : List Expr) (e : Expr) :
    env.evalAll (parts ++ [e]) = do
      let values ← env.evalAll parts
      let v ← env.eval e
      return values ++ [v] := by
  induction parts with
  | nil => simp [evalAll]
  | cons part rest ih => simp [evalAll, ih]

/-- What the model makes of a sum of two expressions amounts to the sum of the two. -/
theorem eval_sum (lhs rhs : Expr) :
    env.eval (lhs.sum rhs) = do
      let v ← env.eval lhs
      let w ← env.eval rhs
      return env.add v w := by
  unfold Expr.sum
  split
  next parts =>
    -- what is continued is a text, and stays the beginning of it
    simp [eval, evalAll_append_singleton, add_text]
  next =>
    split
    next hasText =>
      rcases Bool.or_eq_true_iff.1 hasText with isText | isText
      · obtain ⟨s, isText⟩ := Option.isSome_iff_exists.1 isText
        simp [eval, evalAll, env.eval_of_text? isText, add_text]
      · obtain ⟨s, isText⟩ := Option.isSome_iff_exists.1 isText
        simp [eval, evalAll, env.eval_of_text? isText, add_text_right]
    next => rw [eval]

end Valuation

/-- A sum as it is written. -/
inductive Addition where
  | operand (e : Expr)
  | group (inner : Addition)
  | plus (lhs rhs : Addition)

namespace Addition

/-- The operands of a sum. -/
def operands : Addition → List Expr
  | .operand e => [e]
  | .group inner => inner.operands
  | .plus lhs rhs => lhs.operands ++ rhs.operands

/-- The expression that the model makes of a sum. -/
def fold : Addition → Except Unsupported Expr
  | .operand e => .ok e
  | .group inner => do return .parenthesized (← inner.fold)
  | .plus lhs rhs => do (← lhs.fold).applyBinary .add (← rhs.fold)

/-- What a sum amounts to as it is written: the operands from left to right, and their sums. -/
def value {m : Type → Type} {Other : Type} [Monad m] (env : Valuation m Other) :
    Addition → m (Amount Other)
  | .operand e => env.eval e
  | .group inner => inner.value env
  | .plus lhs rhs => do
    let v ← lhs.value env
    let w ← rhs.value env
    return env.add v w

end Addition

theorem Expr.isClass_sum (lhs rhs : Expr) : (lhs.sum rhs).isClass = false := by
  unfold Expr.sum
  split
  next => rfl
  next => split <;> rfl

/-- A sum of values is built, and whatever its operands amount to and whatever evaluating them
does, evaluating what is built gives the value of the sum as it is written and does the same. -/
theorem Addition.fold_keeps_value (a : Addition) (values : ∀ e ∈ a.operands, e.isClass = false) :
    ∃ e, a.fold = .ok e ∧
      ∀ {m : Type → Type} {Other : Type} [Monad m] [LawfulMonad m] (env : Valuation m Other),
        env.eval e = a.value env := by
  suffices built : ∃ e, a.fold = .ok e ∧ e.isClass = false ∧
      ∀ {m : Type → Type} {Other : Type} [Monad m] [LawfulMonad m] (env : Valuation m Other),
        env.eval e = a.value env by
    obtain ⟨e, folds, _, same⟩ := built
    exact ⟨e, folds, same⟩
  induction a with
  | operand e => exact ⟨e, rfl, values e (List.mem_singleton_self e), fun env => rfl⟩
  | group inner ih =>
    obtain ⟨e, folds, _, same⟩ := ih values
    refine ⟨.parenthesized e, by rw [fold, folds]; rfl, rfl, fun env => ?_⟩
    rw [Valuation.eval, same, value]
  | plus lhs rhs ihl ihr =>
    obtain ⟨left, foldsLeft, valueLeft, sameLeft⟩ :=
      ihl fun e mem => values e (List.mem_append_left _ mem)
    obtain ⟨right, foldsRight, valueRight, sameRight⟩ :=
      ihr fun e mem => values e (List.mem_append_right _ mem)
    refine ⟨left.sum right, ?_, Expr.isClass_sum left right, fun env => ?_⟩
    · rw [fold, foldsLeft, foldsRight]
      simp [bind, Except.bind, Expr.applyBinary, valueLeft, valueRight]
    · rw [env.eval_sum, sameLeft, sameRight, value]

/-- `1 + 2 + "a"`. -/
def Addition.mixed : Addition :=
  .plus (.plus (.operand (.literal (.int "1"))) (.operand (.literal (.int "2"))))
    (.operand (.string "a"))

/-- Numbers that are added as numbers; nothing else has a value. -/
def Valuation.numbers : Valuation Option Nat where
  form := toString
  plus := (· + ·)
  value
    | .literal (.int spelling) => some (.other (Nat.ofDigitChars 10 spelling.toList 0))
    | _ => none

theorem Addition.fold_keeps_value_mixed :
    (∀ e ∈ mixed.operands, e.isClass = false) ∧
      ∃ e, mixed.fold = .ok e ∧ Valuation.numbers.eval e = some (.text "3a") := by
  have values : ∀ e ∈ mixed.operands, e.isClass = false := by decide
  obtain ⟨e, folds, same⟩ := mixed.fold_keeps_value values
  refine ⟨values, e, folds, ?_⟩
  rw [same]
  rfl

end Polyscript.Model
