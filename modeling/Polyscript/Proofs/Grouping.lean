import Polyscript.Proofs.Phrase.Writing

/-!
# Grouping

The target languages write operands as they stand, with the parentheses of the source and no
others. In JavaScript and Groovy operators bind as they do in Java, so an expression is read
there as the expression that it is. In Kotlin and Ruby the operations on bits bind more
tightly than comparisons, and some of them bind as tightly as others that they contain; an
expression keeps its grouping there exactly if nowhere without parentheses such an operator
meets one that the language binds differently.

## Main results

* `Source.Expr.lower_reads_back`: in JavaScript and Groovy, every expression is read back.
* `Source.Expr.lower_reads_back_iff`: in Kotlin and Ruby, exactly those are read back in which
  no operation on bits is split.
* `Source.Expr.mixedBits_regrouped`: an expression that both of them regroup.
-/

namespace Polyscript

open Lowering Step
open Model (BinaryOp)

/-- Read a text of a target language as a phrase. -/
def Target.read (t : Target) (text : String) : Option Phrase := t.grammar.read (lex text)

/-- The text of a phrase that fits the source language is read as the phrase exactly if it
fits the target language too. -/
theorem Target.read_text_iff (t : Target) {p : Phrase} (fits : p.Fits .java) :
    t.read (p.text t.token) = some p ↔ p.Fits t.grammar := by
  rw [Target.read, Phrase.lex_text t.isToken_token fits, Grammar.read_eq_some_iff]
  exact and_iff_left rfl

/-- What fits the source language fits JavaScript and Groovy. -/
theorem Target.fits_common {t : Target} (common : t = .javascript ∨ t = .groovy) {p : Phrase}
    (fits : p.Fits .java) : p.Fits t.grammar := by
  have level : t.grammar.level = Grammar.java.level := by rcases common with rfl | rfl <;> rfl
  exact (p.fits_congr level rfl).2 fits

/-! ## Operations on bits -/

namespace Model.BinaryOp

/-- Whether an operator is an operation on bits. -/
def isBitwise (op : BinaryOp) : Bool := op ∈ [.bitAnd, .bitOr, .bitXor]

/-- Whether an operator compares its operands. -/
def isComparison (op : BinaryOp) : Bool :=
  op ∈ [.equal, .notEqual, .less, .lessEqual, .greater, .greaterEqual]

end Model.BinaryOp

/-- Whether a language takes the last operand of an operation on bits apart if that operand
is itself an operation without parentheses: a comparison in any case, every operation on bits
in Kotlin, and in Ruby an exclusive disjunction in a disjunction. -/
def Target.splitsLast (t : Target) (op inner : BinaryOp) : Bool :=
  op.isBitwise && (inner.isComparison ||
    if t = .kotlin then inner.isBitwise else op = .bitOr && inner = .bitXor)

namespace Phrase

/-- The operator between the two parts of a phrase. -/
def operator? : Phrase → Option BinaryOp
  | .binary op _ _ => some op
  | _ => none

/-- Whether no operation on bits in a phrase is taken apart by a language. -/
def Unsplit (t : Target) : Phrase → Prop
  | .binary op lhs rhs =>
    (∀ inner ∈ lhs.operator?, ¬(op.isBitwise && inner.isComparison)) ∧
      (∀ inner ∈ rhs.operator?, ¬t.splitsLast op inner) ∧ Unsplit t lhs ∧ Unsplit t rhs
  | .group inner => Unsplit t inner
  | _ => True

instance decidableUnsplit (t : Target) : (p : Phrase) → Decidable (p.Unsplit t)
  | .binary _ lhs rhs =>
    have := decidableUnsplit t lhs
    have := decidableUnsplit t rhs
    inferInstanceAs (Decidable (_ ∧ _ ∧ _ ∧ _))
  | .group inner => decidableUnsplit t inner
  | .name _ | .number _ | .not _ | .step .. | .conditional .. => isTrue trivial

variable {t : Target}

/-- On the left a language binds too loosely what is compared in an operation on bits. -/
theorem level_le_iff (bits : t = .kotlin ∨ t = .ruby) {op inner : BinaryOp}
    (fits : commonLevel op ≤ commonLevel inner) :
    t.level op ≤ t.level inner ↔ ¬(op.isBitwise && inner.isComparison) := by
  rcases bits with rfl | rfl <;> revert fits <;> cases op <;> cases inner <;> decide

/-- On the right it binds too loosely what it splits. -/
theorem level_lt_iff (bits : t = .kotlin ∨ t = .ruby) {op inner : BinaryOp}
    (fits : commonLevel op < commonLevel inner) :
    t.level op < t.level inner ↔ ¬t.splitsLast op inner := by
  rcases bits with rfl | rfl <;> revert fits <;> cases op <;> cases inner <;> decide

/-- A phrase of binary operators and parentheses that fits the source language fits Kotlin or
Ruby exactly if none of its operations on bits is taken apart. -/
theorem fits_iff_unsplit (bits : t = .kotlin ∨ t = .ruby) {p : Phrase} (plain : p.IsPlain)
    (fits : p.Fits .java) : p.Fits t.grammar ↔ p.Unsplit t := by
  induction p with
  | name word => exact ⟨fun _ => trivial, fun _ => fits⟩
  | number | not | step | conditional => exact plain.elim
  | group inner ih => exact ih plain fits
  | binary op lhs rhs ihl ihr =>
    obtain ⟨plainLeft, plainRight⟩ := plain
    obtain ⟨least, tighter, fitsLeft, fitsRight⟩ := fits
    have left : t.grammar.level op ≤ lhs.rank t.grammar ↔
        ∀ inner ∈ lhs.operator?, ¬(op.isBitwise && inner.isComparison) := by
      cases lhs with
      | binary inner _ _ =>
        change t.level op ≤ t.level inner ↔ _
        simpa [operator?] using level_le_iff bits least
      | conditional => exact plainLeft.elim
      | _ => exact ⟨fun _ => by simp [operator?], fun _ => Nat.le_of_lt (t.grammar.level_lt op)⟩
    have right : t.grammar.level op < rhs.rank t.grammar ↔
        ∀ inner ∈ rhs.operator?, ¬t.splitsLast op inner := by
      cases rhs with
      | binary inner _ _ =>
        change t.level op < t.level inner ↔ _
        simpa [operator?] using level_lt_iff bits tighter
      | conditional => exact plainRight.elim
      | _ => exact ⟨fun _ => by simp [operator?], fun _ => t.grammar.level_lt op⟩
    rw [Fits, Unsplit, left, right, ihl plainLeft fitsLeft, ihr plainRight fitsRight]

end Phrase

/-! ## Source expressions -/

namespace Source.Expr

variable {t : Target} {r : Resolver} {ctx : Context} {s : Progress} {e : Source.Expr} {p : Phrase}

/-- In JavaScript and Groovy an expression of variables, numbers and operators that is
grouped as Java groups it is lowered, and its text is read as the expression again,
parentheses included. -/
theorem lower_reads_back (common : t = .javascript ∨ t = .groovy)
    (isPhrase : e.phrase? (word? t r ctx s.scopes) = some p) (fits : p.Fits .java) :
    ∃ model s' text, e.lower r ctx s = (.ok model, s') ∧
      (∀ insideJson isStatement,
        (model.draft t insideJson isStatement).Alike (.text text)) ∧
      t.read text = some p := by
  obtain ⟨model, s', lowers, _, _, alike⟩ := writesAs_of_phrase? isPhrase (.inr common)
  exact ⟨model, s', _, lowers, alike, (t.read_text_iff fits).2 (t.fits_common common fits)⟩

/-- A program with three variables, the last of which is a field. -/
def counted : Program where
  unit := { name := "Counted", fields := [⟨"limit", 3, .primitive .int, none⟩] }
  symbols := .ofList [
    (1, { name := "n", kind := .parameter, ty := .primitive .int }),
    (2, { name := "i", kind := .localVariable, ty := .primitive .int }),
    (3, { name := "limit", kind := .field, ty := .primitive .int })]

/-- `!(n - i-- > 0) ? n : limit * 2`. -/
def remaining : Expr :=
  .conditional
    (.unary .logicalComplement (.parens (.binary .greaterThan
      (.binary .minus (.ident "n" 1) (.unary .postfixDecrement (.ident "i" 2))) (.int 0))))
    (.ident "n" 1) (.binary .multiply (.ident "limit" 3) (.int 2))

/-- The phrase that `remaining` is. -/
def remainingPhrase : Phrase :=
  .conditional
    (.not (.group (.binary .greater (.binary .subtract (.name "n") (.step .decrement "i"))
      (.number "0"))))
    (.name "n") (.binary .multiply (.name "limit") (.number "2"))

theorem lower_reads_back_remaining :
    remaining.phrase? (word? .javascript (counted.resolver {}) ({} : Config).context
        counted.start.scopes) = some remainingPhrase ∧
      remainingPhrase.Fits .java ∧
      ∃ model s' text, remaining.lower (counted.resolver {}) ({} : Config).context counted.start =
          (.ok model, s') ∧
        (∀ insideJson isStatement,
          (model.draft .javascript insideJson isStatement).Alike (.text text)) ∧
        Target.read .javascript text = some remainingPhrase := by
  have isPhrase : remaining.phrase? (word? .javascript (counted.resolver {})
      ({} : Config).context counted.start.scopes) = some remainingPhrase := by
    decide +kernel
  have fits : remainingPhrase.Fits .java := by decide +kernel
  exact ⟨isPhrase, fits, lower_reads_back (.inl rfl) isPhrase fits⟩

/-- In Kotlin and Ruby an expression of variables and binary operators that is grouped as
Java groups it is lowered, and its text is read as the expression again exactly if no
operation on bits in it is taken apart. -/
theorem lower_reads_back_iff (bits : t = .kotlin ∨ t = .ruby)
    (isPhrase : e.phrase? (word? t r ctx s.scopes) = some p) (plain : p.IsPlain)
    (fits : p.Fits .java) :
    ∃ model s' text, e.lower r ctx s = (.ok model, s') ∧
      (∀ insideJson isStatement,
        (model.draft t insideJson isStatement).Alike (.text text)) ∧
      (t.read text = some p ↔ p.Unsplit t) := by
  obtain ⟨model, s', lowers, _, _, alike⟩ := writesAs_of_phrase? isPhrase (.inl plain)
  exact ⟨model, s', _, lowers, alike,
    (t.read_text_iff fits).trans (Phrase.fits_iff_unsplit bits plain fits)⟩

/-- `(n | i) ^ limit`, whose operations on bits are kept apart by parentheses. -/
def groupedBits : Expr :=
  .binary .xor (.parens (.binary .or (.ident "n" 1) (.ident "i" 2))) (.ident "limit" 3)

theorem lower_reads_back_iff_groupedBits :
    ∃ p model s' text,
      groupedBits.phrase? (word? .ruby (counted.resolver {}) ({} : Config).context
        counted.start.scopes) = some p ∧
      p.IsPlain ∧ p.Fits .java ∧
      groupedBits.lower (counted.resolver {}) ({} : Config).context counted.start =
        (.ok model, s') ∧
      (∀ insideJson isStatement,
        (model.draft .ruby insideJson isStatement).Alike (.text text)) ∧
      Target.read .ruby text = some p := by
  let p : Phrase := .binary .bitXor (.group (.binary .bitOr (.name "n") (.name "i")))
    (.name "@limit")
  have isPhrase : groupedBits.phrase? (word? .ruby (counted.resolver {}) ({} : Config).context
      counted.start.scopes) = some p := by
    decide +kernel
  have plain : p.IsPlain := ⟨⟨trivial, trivial⟩, trivial⟩
  have fits : p.Fits .java := by decide +kernel
  obtain ⟨model, s', text, lowers, alike, reads⟩ :=
    lower_reads_back_iff (.inr rfl) isPhrase plain fits
  have unsplit : p.Unsplit .ruby := by decide +kernel
  exact ⟨p, model, s', text, isPhrase, plain, fits, lowers, alike, reads.2 unsplit⟩

/-- Whether a language reads an expression of `counted` that is grouped as Java groups it as
another one. -/
def Regrouped (t : Target) (e : Expr) : Prop :=
  ∃ p q model s' text,
    e.phrase? (word? t (counted.resolver {}) ({} : Config).context counted.start.scopes) =
      some p ∧
    p.IsPlain ∧ p.Fits .java ∧
    e.lower (counted.resolver {}) ({} : Config).context counted.start = (.ok model, s') ∧
    (∀ insideJson isStatement, (model.draft t insideJson isStatement).Alike (.text text)) ∧
    t.read text = some q ∧ q ≠ p

/-- `n | i ^ limit`. -/
def mixedBits : Expr :=
  .binary .or (.ident "n" 1) (.binary .xor (.ident "i" 2) (.ident "limit" 3))

/-- Kotlin and Ruby read it as `(n | i) ^ limit`. -/
theorem mixedBits_regrouped : Regrouped .kotlin mixedBits ∧ Regrouped .ruby mixedBits := by
  have regrouped (t : Target) (limit : String) :
      let p : Phrase := .binary .bitOr (.name "n") (.binary .bitXor (.name "i") (.name limit))
      mixedBits.phrase? (word? t (counted.resolver {}) ({} : Config).context
        counted.start.scopes) = some p → p.Fits .java →
      t.read (p.text t.token) =
        some (.binary .bitXor (.binary .bitOr (.name "n") (.name "i")) (.name limit)) →
      Regrouped t mixedBits := by
    intro p isPhrase fits reads
    have plain : p.IsPlain := ⟨trivial, trivial, trivial⟩
    obtain ⟨model, s', lowers, _, _, alike⟩ := writesAs_of_phrase? isPhrase (.inl plain)
    exact ⟨p, _, model, s', _, isPhrase, plain, fits, lowers, alike, reads, by simp [p]⟩
  exact ⟨regrouped .kotlin "limit" (by decide +kernel) (by decide +kernel) (by decide +kernel),
    regrouped .ruby "@limit" (by decide +kernel) (by decide +kernel) (by decide +kernel)⟩

end Source.Expr

end Polyscript
