import Mathlib.Data.List.Forall2
import Polyscript.Proofs.Model.Rejection
import Polyscript.Proofs.Phrase.Formula
import Polyscript.Proofs.Phrase.Writing

/-!
# Checks in expressions

JavaScript has no asynchronous results, and a check of one becomes a comparison of its error with
`null`. The comparison stands where the check stood, in parentheses only if a prefix operator
stands before it. So it stays one wherever the operators around it bind less tightly than a
comparison for equality, and is torn apart elsewhere.

## Main definition

* `Model.Expr.formula?`: expressions of names, texts, checks and operators, as they are written.

## Main statement

* `Model.Expr.checks_read_iff`: when each check of an expression is read as a comparison of its
  own.
-/

namespace Polyscript.Model

mutual

/-- The formula that JavaScript writes for an expression of variables, texts, checks of
asynchronous results and operators. -/
def Expr.formula? : Expr → Option Formula
  | .identifier name scope =>
    (ScriptName.ofWord? (Target.variableName .javascript name scope)).map .name
  | .literal (.string value) => some (.quoted value)
  | .asyncCall name _ .succeeded => (ScriptName.ofWord? (name ++ "_err")).map (.check · true)
  | .asyncCall name _ .failed => (ScriptName.ofWord? (name ++ "_err")).map (.check · false)
  | .parenthesized inner => inner.formula?.map .group
  | .binary op lhs rhs => do return .binary op (← lhs.formula?) (← rhs.formula?)
  | .unary .not operand => operand.formula?.map fun f => .not f.enclosed
  | .concat parts => (Expr.formulas? parts).bind Formula.sum?
  | .typed value _ => value.formula?
  | _ => none

/-- The formulas of several expressions. -/
def Expr.formulas? : List Expr → Option (List Formula)
  | [] => some []
  | e :: rest => do return (← e.formula?) :: (← Expr.formulas? rest)

end

/-- The expressions that are checks are those whose formulas are. -/
theorem Expr.isAsyncCheck_eq {e : Expr} {f : Formula} (isFormula : e.formula? = some f) :
    Target.isAsyncCheck e = f.isCheck := by
  -- both look through the kinds of values
  induction e using Expr.untyped.induct with
  | case1 value kind ih => exact ih isFormula
  | case2 e notTyped =>
    cases e with
    | typed value kind => exact absurd rfl (notTyped value kind)
    | identifier | parenthesized =>
      rw [Expr.formula?] at isFormula
      obtain ⟨_, _, rfl⟩ := Option.map_eq_some_iff.1 isFormula
      rfl
    | literal value =>
      cases value with
      | string value =>
        cases isFormula
        rfl
      | _ => cases isFormula
    | asyncCall name type op =>
      cases op with
      | succeeded | failed =>
        obtain ⟨_, _, rfl⟩ := Option.map_eq_some_iff.1 isFormula
        rfl
      | _ => cases isFormula
    | binary op lhs rhs =>
      rw [Expr.formula?] at isFormula
      obtain ⟨_, _, isFormula⟩ := Option.bind_eq_some_iff.1 isFormula
      obtain ⟨_, _, isFormula⟩ := Option.bind_eq_some_iff.1 isFormula
      cases isFormula
      rfl
    | unary op operand =>
      cases op with
      | not =>
        rw [Expr.formula?] at isFormula
        obtain ⟨_, _, rfl⟩ := Option.map_eq_some_iff.1 isFormula
        rfl
      | _ => cases isFormula
    | concat parts =>
      rw [Expr.formula?] at isFormula
      obtain ⟨fs, _, isSum⟩ := Option.bind_eq_some_iff.1 isFormula
      rw [Formula.isCheck_of_sum? isSum]
      rfl
    | _ => cases isFormula

/-- Drafts that are written as formulas are written as their sum with a sign between them. -/
theorem alike_joined {first : Draft} {f : Formula} {ds : List Draft} {fs : List Formula}
    (alike : first.Alike (.text f.text))
    (all : List.Forall₂ (fun d f => d.Alike (.text (Formula.text f))) ds fs) :
    (Draft.joined " + " (first :: ds)).Alike (.text (fs.foldl (.binary .add) f).text) := by
  induction all generalizing first f with
  | nil => exact alike
  | @cons d g ds fs next _ ih =>
    have others := ih next
    have begins : (Formula.binary .add f g).text = (f.text ++ " + ") ++ g.text := by
      simp only [Formula.text, String.append_assoc]
      rfl
    rw [List.foldl_cons, Formula.text_foldl begins]
    exact (alike.text_append (.refl (.text " + "))).text_append others

theorem alike_sum {ds : List Draft} {fs : List Formula} {f : Formula}
    (isSum : Formula.sum? fs = some f)
    (all : List.Forall₂ (fun d f => d.Alike (.text (Formula.text f))) ds fs) :
    (Draft.joined " + " ds).Alike (.text f.text) := by
  cases all with
  | nil => cases isSum
  | cons first rest =>
    cases rest with
    | nil => cases isSum
    | cons second rest =>
      obtain rfl := Option.some.inj isSum
      exact alike_joined first (.cons second rest)

/-- A check stands in parentheses behind a prefix operator. -/
theorem alike_negation {operand : Draft} {f : Formula} (alike : operand.Alike (.text f.text))
    (isStatement : Bool) :
    (Target.unary .javascript isStatement f.isCheck .not operand).Alike
      (.text (Formula.not f.enclosed).text) := by
  have before {d : Draft} {s : String} (alike : d.Alike (.text s)) :=
    (Draft.Alike.refl (.text "!")).text_append alike
  cases f with
  | check error succeeded => exact before (Target.alike_parenthesized alike)
  | _ => exact before alike

mutual

/-- An expression is written as the text of its formula. -/
theorem Expr.alike_text {e : Expr} {f : Formula} (isFormula : e.formula? = some f)
    (insideJson isStatement : Bool) :
    (e.draft .javascript insideJson isStatement).Alike (.text f.text) := by
  cases e with
  | identifier name scope =>
    rw [Expr.formula?] at isFormula
    obtain ⟨word, isWord, rfl⟩ := Option.map_eq_some_iff.1 isFormula
    rw [Expr.draft, Formula.text, ScriptName.eq_of_ofWord? isWord]
    exact .refl _
  | literal value =>
    cases value with
    | string value =>
      obtain rfl := Option.some.inj isFormula
      exact .refl _
    | _ => cases isFormula
  | asyncCall name type op =>
    cases op with
    | succeeded | failed =>
      obtain ⟨error, isError, rfl⟩ := Option.map_eq_some_iff.1 isFormula
      rw [Expr.draft, Formula.text, ScriptName.eq_of_ofWord? isError, String.append_assoc]
      exact .refl _
    | _ => cases isFormula
  | parenthesized inner =>
    rw [Expr.formula?] at isFormula
    obtain ⟨g, isInner, rfl⟩ := Option.map_eq_some_iff.1 isFormula
    rw [Expr.draft]
    exact Target.alike_parenthesized (inner.alike_text isInner insideJson false)
  | binary op lhs rhs =>
    rw [Expr.formula?] at isFormula
    obtain ⟨left, isLeft, isFormula⟩ := Option.bind_eq_some_iff.1 isFormula
    obtain ⟨right, isRight, isFormula⟩ := Option.bind_eq_some_iff.1 isFormula
    obtain rfl := Option.some.inj isFormula
    rw [Expr.draft]
    exact Target.alike_binary op (lhs.alike_text isLeft insideJson false)
      (rhs.alike_text isRight insideJson false)
  | unary op operand =>
    cases op with
    | not =>
      rw [Expr.formula?] at isFormula
      obtain ⟨g, isOperand, rfl⟩ := Option.map_eq_some_iff.1 isFormula
      rw [Expr.draft, Expr.isAsyncCheck_eq isOperand]
      exact alike_negation (operand.alike_text isOperand insideJson false) isStatement
    | _ => cases isFormula
  | concat parts =>
    rw [Expr.formula?] at isFormula
    obtain ⟨fs, areParts, isSum⟩ := Option.bind_eq_some_iff.1 isFormula
    have parted : ((parts.map Expr.text?).zip (Expr.drafts .javascript insideJson parts)).map
        Prod.snd = Expr.drafts .javascript insideJson parts := by
      rw [Expr.drafts_eq, List.zip_map', List.map_map]
      rfl
    rw [Expr.draft, Target.concatenation, parted]
    exact alike_sum isSum (Expr.alike_texts areParts insideJson)
  | typed value kind =>
    rw [Expr.formula?] at isFormula
    rw [Expr.draft]
    exact value.alike_text isFormula insideJson false
  | _ => cases isFormula

/-- Expressions are written as the texts of their formulas. -/
theorem Expr.alike_texts {es : List Expr} {fs : List Formula}
    (areFormulas : Expr.formulas? es = some fs) (insideJson : Bool) :
    List.Forall₂ (fun d f => d.Alike (.text (Formula.text f)))
      (Expr.drafts .javascript insideJson es) fs := by
  cases es with
  | nil =>
    rw [Expr.formulas?] at areFormulas
    obtain rfl := Option.some.inj areFormulas
    rw [Expr.drafts]
    exact .nil
  | cons e es =>
    rw [Expr.formulas?] at areFormulas
    obtain ⟨f, isFormula, areFormulas⟩ := Option.bind_eq_some_iff.1 areFormulas
    obtain ⟨others, areOthers, isCons⟩ := Option.bind_eq_some_iff.1 areFormulas
    obtain rfl := Option.some.inj isCons
    rw [Expr.drafts]
    exact .cons (e.alike_text isFormula insideJson false) (Expr.alike_texts areOthers insideJson)

end

/-- An expression of variables, texts, checks and operators that is grouped as Java groups it is
written as a text that JavaScript reads, and each check is read as a comparison of its own exactly
if no operator beside it is as tight as a comparison for equality on its left, or tighter. -/
theorem Expr.checks_read_iff {e : Expr} {f : Formula} (isFormula : e.formula? = some f)
    (grouped : f.IsGrouped) :
    ∃ text q, (∀ insideJson isStatement,
        (e.draft .javascript insideJson isStatement).Alike (.text text)) ∧
      Target.readScript text = some q ∧
      (q.comparisons = f.checks ↔ f.Sheltered (commonLevel .equal)) := by
  obtain ⟨q, reads⟩ := Formula.exists_readScript_text grouped
  exact ⟨f.text, q, e.alike_text isFormula, reads, Formula.readScript_checks_iff grouped reads⟩

/-- The error of a result `r`. -/
def errorName : ScriptName := ⟨"r_err", by decide⟩

/-- A check of the result `r`. -/
def resultCheck (op : AsyncOp) : Expr := .asyncCall "r" .string op

/-- `r.succeeded() == !r.failed() & "ok: " + (r.succeeded()) == "ok: true"`. -/
def shelteredChecks : Expr :=
  .binary .bitAnd
    (.binary .equal (resultCheck .succeeded) (.unary .not (resultCheck .failed)))
    (.binary .equal (.concat [.string "ok: ", .parenthesized (resultCheck .succeeded)])
      (.string "ok: true"))

def shelteredFormula : Formula :=
  .binary .bitAnd
    (.binary .equal (.check errorName true) (.not (.group (.check errorName false))))
    (.binary .equal (.binary .add (.quoted "ok: ") (.group (.check errorName true)))
      (.quoted "ok: true"))

theorem Expr.checks_read_iff_sheltered :
    shelteredChecks.formula? = some shelteredFormula ∧ shelteredFormula.IsGrouped ∧
      ∃ text q, (∀ insideJson isStatement,
          (shelteredChecks.draft .javascript insideJson isStatement).Alike (.text text)) ∧
        Target.readScript text = some q ∧
        q.comparisons = [("r_err", true), ("r_err", false), ("r_err", true)] := by
  have isFormula : shelteredChecks.formula? = some shelteredFormula := rfl
  have grouped : shelteredFormula.IsGrouped := by decide
  obtain ⟨text, q, alike, reads, same⟩ := Expr.checks_read_iff isFormula grouped
  have sheltered : shelteredFormula.Sheltered (commonLevel .equal) := by
    simp [shelteredFormula, Formula.Sheltered, Formula.isCheck, commonLevel]
  exact ⟨isFormula, grouped, text, q, alike, reads, same.2 sheltered⟩

/-- Whether an expression that is grouped as Java groups it is written as a text that JavaScript
reads as a phrase with other comparisons. -/
def Expr.TornAs (e : Expr) (text : String) (q : Phrase) : Prop :=
  ∃ f, e.formula? = some f ∧ f.IsGrouped ∧
    (∀ insideJson isStatement, (e.draft .javascript insideJson isStatement).Alike (.text text)) ∧
    Target.readScript text = some q ∧ q.comparisons ≠ f.checks

/-- In `"ok: " + r.succeeded()` and in `ready == r.succeeded()` the error is taken for an operand
of what stands before it. -/
theorem checks_torn :
    (Expr.concat [.string "ok: ", resultCheck .succeeded]).TornAs "\"ok: \" + r_err == null"
      (.binary .equal (.binary .add (.name "_") (.name "r_err")) (.name "null")) ∧
    (Expr.binary .equal (.identifier "ready" .variable) (resultCheck .succeeded)).TornAs
      "ready === r_err == null"
      (.binary .equal (.binary .equal (.name "ready") (.name "r_err")) (.name "null")) := by
  constructor
  · let f : Formula := .binary .add (.quoted "ok: ") (.check errorName true)
    have isText : f.text = "\"ok: \" + r_err == null" := by decide +kernel
    exact ⟨f, rfl, by decide, isText ▸ Expr.alike_text rfl, by decide +kernel, by decide⟩
  · let f : Formula := .binary .equal (.name ⟨"ready", by decide⟩) (.check errorName true)
    have isText : f.text = "ready === r_err == null" := by decide +kernel
    exact ⟨f, rfl, by decide, isText ▸ Expr.alike_text rfl, by decide +kernel, by decide⟩

end Polyscript.Model
