import Polyscript.Proofs.Phrase.Reading

/-!
# Comparisons with nothing

A comparison of a name with `null` can be taken for a single word of a phrase: a step of the
name stands for it. In a phrase that has no steps of its own nothing is lost by this, and not in
its tokens either, as long as every `null` belongs to such a comparison. So phrases in which
every `null` does are the same if their tokens are, although a comparison binds less tightly than
the word that stands for it.

## Main definitions

* `Phrase.comparisons`: the comparisons with `null` in a phrase.
* `Phrase.folded`: a phrase with a step for each of them.

## Main statement

* `Phrase.eq_of_tokens_eq`: a phrase is known by its tokens if its comparisons are kept together.
-/

namespace Polyscript

open Model (BinaryOp)

namespace Phrase

/-- The comparison of a name with `null`. -/
def comparison (word : String) (isEqual : Bool) : Phrase :=
  .binary (if isEqual then .equal else .notEqual) (.name word) (.name "null")

/-- The name that a phrase compares with `null`, and how, if that is what it is. -/
def comparison? : Phrase → Option (String × Bool)
  | .binary .equal (.name word) (.name "null") => some (word, true)
  | .binary .notEqual (.name word) (.name "null") => some (word, false)
  | _ => none

/-- The comparisons with `null` in a phrase, from left to right. -/
def comparisons : Phrase → List (String × Bool)
  | .binary op lhs rhs =>
    match (binary op lhs rhs).comparison? with
    | some found => [found]
    | none => lhs.comparisons ++ rhs.comparisons
  | .group inner => inner.comparisons
  | .not operand => operand.comparisons
  | .conditional cond yes no => cond.comparisons ++ (yes.comparisons ++ no.comparisons)
  | .name _ | .number _ | .step .. => []

/-- The step that stands for a comparison. -/
def fold : String × Bool → Phrase
  | (word, isEqual) => .step (if isEqual then .increment else .decrement) word

/-- A phrase with a step for every comparison with `null`. -/
def folded : Phrase → Phrase
  | .binary op lhs rhs =>
    match (binary op lhs rhs).comparison? with
    | some found => fold found
    | none => .binary op lhs.folded rhs.folded
  | .group inner => .group inner.folded
  | .not operand => .not operand.folded
  | .conditional cond yes no => .conditional cond.folded yes.folded no.folded
  | .name word => .name word
  | .number digits => .number digits
  | .step stepping word => .step stepping word

/-- A phrase with a comparison for every step. -/
def unfolded : Phrase → Phrase
  | .step stepping word => comparison word (stepping = .increment)
  | .binary op lhs rhs => .binary op lhs.unfolded rhs.unfolded
  | .group inner => .group inner.unfolded
  | .not operand => .not operand.unfolded
  | .conditional cond yes no => .conditional cond.unfolded yes.unfolded no.unfolded
  | .name word => .name word
  | .number digits => .number digits

/-- The tokens that a token of a folded phrase stands for. -/
def unfoldedToken (token : String) : List String :=
  if token = "++" then ["===", "null"]
  else if token = "--" then ["!==", "null"]
  else [token]

theorem eq_comparison_of_comparison? {p : Phrase} {found : String × Bool}
    (isComparison : p.comparison? = some found) : p = comparison found.1 found.2 := by
  unfold comparison? at isComparison
  split at isComparison
  · cases isComparison
    rfl
  · cases isComparison
    rfl
  · cases isComparison

/-- Whether a phrase has no steps, as far as its tokens tell. -/
def Stepless (p : Phrase) : Prop :=
  "++" ∉ p.tokens (Target.token .javascript) ∧ "--" ∉ p.tokens (Target.token .javascript)

variable {p q : Phrase} {op : BinaryOp}

theorem stepless_group : (group p).Stepless ↔ p.Stepless := by
  simp [Stepless, tokens]

theorem stepless_not : (not p).Stepless ↔ p.Stepless := by
  simp [Stepless, tokens]

theorem stepless_binary : (binary op p q).Stepless ↔ p.Stepless ∧ q.Stepless := by
  have noStep : "++" ≠ Target.token .javascript op ∧ "--" ≠ Target.token .javascript op := by
    cases op <;> decide
  grind [Stepless, tokens]

theorem stepless_conditional {cond yes no : Phrase} :
    (conditional cond yes no).Stepless ↔ cond.Stepless ∧ yes.Stepless ∧ no.Stepless := by
  grind [Stepless, tokens]

theorem not_stepless_step (stepping : Stepping) (word : String) :
    ¬(step stepping word).Stepless := by
  cases stepping <;> simp [Stepless, tokens, Stepping.sign]

/-- An operation is folded as a whole if it is a comparison with `null`, and in both its parts
otherwise. -/
theorem folded_binary (op : BinaryOp) (lhs rhs : Phrase) :
    (∃ word isEqual, binary op lhs rhs = comparison word isEqual ∧
      (binary op lhs rhs).folded = fold (word, isEqual) ∧
      (binary op lhs rhs).comparisons = [(word, isEqual)]) ∨
    (binary op lhs rhs).folded = .binary op lhs.folded rhs.folded ∧
      (binary op lhs rhs).comparisons = lhs.comparisons ++ rhs.comparisons := by
  rw [folded, comparisons]
  cases found : (binary op lhs rhs).comparison? with
  | some found' => exact .inl ⟨_, _, eq_comparison_of_comparison? found, rfl, rfl⟩
  | none => exact .inr ⟨rfl, rfl⟩

theorem unfolded_fold (word : String) (isEqual : Bool) :
    (fold (word, isEqual)).unfolded = comparison word isEqual := by
  cases isEqual <;> rfl

theorem unfolded_folded (stepless : p.Stepless) : p.folded.unfolded = p := by
  induction p with
  | name | number => rfl
  | step stepping word => exact absurd stepless (not_stepless_step stepping word)
  | group inner ih => rw [folded, unfolded, ih (stepless_group.1 stepless)]
  | not operand ih => rw [folded, unfolded, ih (stepless_not.1 stepless)]
  | binary op lhs rhs ihl ihr =>
    obtain ⟨left, right⟩ := stepless_binary.1 stepless
    rcases folded_binary op lhs rhs with ⟨word, isEqual, same, isFold, _⟩ | ⟨apart, _⟩
    · rw [isFold, unfolded_fold, same]
    · rw [apart, unfolded, ihl left, ihr right]
  | conditional cond yes no ihc ihy ihn =>
    obtain ⟨first, second, third⟩ := stepless_conditional.1 stepless
    rw [folded, unfolded, ihc first, ihy second, ihn third]

/-! ### Tokens -/

theorem unfoldedToken_of_ne {token : String} (noStep : "++" ≠ token ∧ "--" ≠ token) :
    unfoldedToken token = [token] := by
  simp [unfoldedToken, noStep.1.symm, noStep.2.symm]

theorem unfoldedToken_increment : unfoldedToken Stepping.increment.sign = ["===", "null"] := rfl

theorem unfoldedToken_decrement : unfoldedToken Stepping.decrement.sign = ["!==", "null"] := rfl

theorem unfoldedToken_token (op : BinaryOp) :
    unfoldedToken (Target.token .javascript op) = [Target.token .javascript op] := by
  cases op <;> rfl

/-- The tokens of a folded phrase stand for the tokens of the phrase. -/
theorem tokens_folded (stepless : p.Stepless) :
    (p.folded.tokens (Target.token .javascript)).flatMap unfoldedToken =
      p.tokens (Target.token .javascript) := by
  induction p with
  | name word | number word =>
    have noStep : "++" ≠ word ∧ "--" ≠ word := by simpa [Stepless, tokens] using stepless
    simp [folded, tokens, unfoldedToken_of_ne noStep]
  | step stepping word => exact absurd stepless (not_stepless_step stepping word)
  | group inner ih => simp [folded, tokens, ih (stepless_group.1 stepless), unfoldedToken]
  | not operand ih => simp [folded, tokens, ih (stepless_not.1 stepless), unfoldedToken]
  | binary op lhs rhs ihl ihr =>
    obtain ⟨left, right⟩ := stepless_binary.1 stepless
    rcases folded_binary op lhs rhs with ⟨word, isEqual, same, isFold, _⟩ | ⟨apart, _⟩
    · obtain rfl : lhs = .name word := (Phrase.binary.inj same).2.1
      have noStep : "++" ≠ word ∧ "--" ≠ word := by simpa [Stepless, tokens] using left
      rw [isFold, same]
      cases isEqual
      · simp [fold, comparison, tokens, unfoldedToken_of_ne noStep, unfoldedToken_decrement,
          Target.token]
      · simp [fold, comparison, tokens, unfoldedToken_of_ne noStep, unfoldedToken_increment,
          Target.token]
    · simp [apart, tokens, ihl left, ihr right, unfoldedToken_token]
  | conditional cond yes no ihc ihy ihn =>
    obtain ⟨first, second, third⟩ := stepless_conditional.1 stepless
    simp [folded, tokens, ihc first, ihy second, ihn third, unfoldedToken]

/-- Of every `null` in a phrase, the ones that are not folded are left. -/
theorem count_null_folded (p : Phrase) :
    (p.folded.tokens (Target.token .javascript)).count "null" + p.comparisons.length =
      (p.tokens (Target.token .javascript)).count "null" := by
  induction p with
  | name | number | step => rfl
  | group inner ih => simpa [folded, comparisons, tokens] using ih
  | not operand ih => simpa [folded, comparisons, tokens] using ih
  | binary op lhs rhs ihl ihr =>
    have noNull : Target.token .javascript op ≠ "null" := by cases op <;> decide
    rcases folded_binary op lhs rhs with ⟨word, isEqual, same, isFold, isFound⟩ | ⟨apart, found⟩
    · rw [isFold, isFound, same]
      cases isEqual <;>
        simp [fold, comparison, tokens, Stepping.sign, List.count_cons, Target.token,
          Nat.add_comm]
    · rw [apart, found]
      simp [tokens, noNull]
      omega
  | conditional cond yes no ihc ihy ihn =>
    simp [folded, comparisons, tokens]
    omega

/-- A token stands for itself, unless it is the sign of a step. -/
theorem reverse_unfoldedToken (token : String) :
    token = "++" ∧ (unfoldedToken token).reverse = ["null", "==="] ∨
    token = "--" ∧ (unfoldedToken token).reverse = ["null", "!=="] ∨
    (unfoldedToken token).reverse = [token] := by
  unfold unfoldedToken
  split
  next isUp => exact .inl ⟨isUp, rfl⟩
  next =>
    split
    next isDown => exact .inr (.inl ⟨isDown, rfl⟩)
    next => exact .inr (.inr rfl)

/-- Read from the right, a `null` tells that it and the token before it belong together. -/
theorem eq_of_reverse_unfoldedTokens {ts us : List String} (noNull : "null" ∉ ts)
    (noNull' : "null" ∉ us) (same : (ts.flatMap fun t => (unfoldedToken t).reverse) =
      us.flatMap fun t => (unfoldedToken t).reverse) : ts = us := by
  induction ts generalizing us with
  | nil =>
    cases us with
    | nil => rfl
    | cons u us =>
      rcases reverse_unfoldedToken u with ⟨_, code⟩ | ⟨_, code⟩ | code <;> simp [code] at same
  | cons t ts ih =>
    cases us with
    | nil =>
      rcases reverse_unfoldedToken t with ⟨_, code⟩ | ⟨_, code⟩ | code <;> simp [code] at same
    | cons u us =>
      rw [List.mem_cons, not_or] at noNull noNull'
      have others := @ih us noNull.2 noNull'.2
      -- the codes of two signs begin alike only where the signs are the same, and a token that
      -- stands for itself is no `null`
      rcases reverse_unfoldedToken t with ⟨isUp, code⟩ | ⟨isDown, code⟩ | code <;>
        rcases reverse_unfoldedToken u with ⟨isUp', code'⟩ | ⟨isDown', code'⟩ | code' <;>
        simp_all

/-- Tokens without a `null` among them are known by the tokens that they stand for. -/
theorem eq_of_unfoldedTokens {ts us : List String} (noNull : "null" ∉ ts) (noNull' : "null" ∉ us)
    (same : ts.flatMap unfoldedToken = us.flatMap unfoldedToken) : ts = us := by
  have reversed := congrArg List.reverse same
  rw [List.reverse_flatMap, List.reverse_flatMap] at reversed
  exact List.reverse_inj.1
    (eq_of_reverse_unfoldedTokens (by simpa) (by simpa) reversed)

/-! ### What fits -/

variable {g : Grammar}

theorem rank_folded (p : Phrase) : p.folded.rank g = p.rank g ∨ p.folded.rank g = g.unary := by
  cases p with
  | binary op lhs rhs =>
    rcases folded_binary op lhs rhs with ⟨word, isEqual, _, isFold, _⟩ | ⟨apart, _⟩
    · rw [isFold]
      exact .inr rfl
    · rw [apart]
      exact .inl rfl
  | _ => exact .inl rfl

/-- A word can stand wherever a comparison can. -/
theorem fits_folded (fits : p.Fits g) : p.folded.Fits g := by
  have lower (op : BinaryOp) := g.level_lt op
  induction p with
  | name | number | step => exact fits
  | group inner ih => exact ih fits
  | not operand ih =>
    obtain ⟨isUnary, fits⟩ := fits
    exact ⟨by have := operand.rank_folded (g := g); omega, ih fits⟩
  | binary op lhs rhs ihl ihr =>
    obtain ⟨least, tighter, fitsLeft, fitsRight⟩ := fits
    rcases folded_binary op lhs rhs with ⟨word, isEqual, same, isFold, _⟩ | ⟨apart, _⟩
    · -- the word that is compared is that of the step
      obtain rfl : lhs = .name word := (Phrase.binary.inj same).2.1
      rw [isFold]
      exact fitsLeft
    · rw [apart]
      have left := lhs.rank_folded (g := g)
      have right := rhs.rank_folded (g := g)
      have := lower op
      exact ⟨by omega, by omega, ihl fitsLeft, ihr fitsRight⟩
  | conditional cond yes no ihc ihy ihn =>
    obtain ⟨tight, fitsCond, fitsYes, fitsNo⟩ := fits
    have first := cond.rank_folded (g := g)
    have := lower .add
    exact ⟨by omega, ihc fitsCond, ihy fitsYes, ihn fitsNo⟩

/-- A phrase is known by its tokens if its comparisons with `null` are kept together: another
phrase with these tokens has as many only if it is the same. -/
theorem eq_of_tokens_eq (fits : p.folded.Fits (Target.grammar .javascript)) (stepless : p.Stepless)
    (noNull : "null" ∉ p.folded.tokens (Target.token .javascript))
    (fits' : q.Fits (Target.grammar .javascript))
    (same : q.tokens (Target.token .javascript) = p.tokens (Target.token .javascript))
    (asMany : q.comparisons.length = p.comparisons.length) : q = p := by
  have stepless' : q.Stepless := by rwa [Stepless, same]
  -- with as many comparisons and the same tokens, no `null` is left over in `q` either
  have noNull' : "null" ∉ q.folded.tokens (Target.token .javascript) := by
    have counted := p.count_null_folded
    have counted' := q.count_null_folded
    rw [← List.count_eq_zero] at noNull ⊢
    rw [same] at counted'
    omega
  have sameFolded : q.folded.tokens (Target.token .javascript) =
      p.folded.tokens (Target.token .javascript) := by
    refine eq_of_unfoldedTokens noNull' noNull ?_
    rw [tokens_folded stepless', tokens_folded stepless, same]
  -- what fits is all that its tokens can mean
  have readsFolded : (Target.grammar .javascript).read
      (p.folded.tokens (Target.token .javascript)) = some q.folded :=
    Grammar.read_eq_some_iff.2 ⟨fits_folded fits', sameFolded⟩
  have isFolded : q.folded = p.folded :=
    Option.some.inj (readsFolded.symm.trans (read_tokens fits))
  rw [← unfolded_folded stepless', isFolded, unfolded_folded stepless]

end Phrase

end Polyscript
