import Mathlib.Data.List.Basic
import Mathlib.Data.List.TakeWhile
import Polyscript.Json.Decode
import Polyscript.Json.Reader

/-!
# Natural numbers as JSON

A natural number is written as its digits, without needless zeros. The digits are a number of
JSON, and the number below any larger bound is read from them.
-/

namespace Polyscript.Json

theorem toList_toString (n : Nat) : (toString n).toList = Nat.toDigits 10 n := by
  rw [Nat.toString_eq_ofList_toDigits, String.toList_ofList]

theorem isDigit_of_mem_toDigits {n : Nat} {c : Char} (mem : c ∈ Nat.toDigits 10 n) :
    c.isDigit = true :=
  Nat.isDigit_of_mem_toDigits (by decide) (by decide) mem

/-- Only the number zero begins with the digit zero. -/
theorem head?_toDigits (n : Nat) (zero : (Nat.toDigits 10 n).head? = some '0') : n = 0 := by
  induction n using Nat.strongRecOn with
  | ind n ih =>
    rw [Nat.toDigits_eq_if (by decide)] at zero
    split at zero
    next small =>
      have all : ∀ n < 10, [n.digitChar].head? = some '0' → n = 0 := by decide
      exact all n small zero
    next large =>
      rw [List.head?_append_of_ne_nil _ Nat.toDigits_ne_nil] at zero
      have tenth : n / 10 = 0 := ih (n / 10) (by omega) zero
      omega

/-- The digits of a number have no needless zeros. -/
theorem noZeros_toDigits (n : Nat) :
    Nat.toDigits 10 n = ['0'] ∨ (Nat.toDigits 10 n).head? ≠ some '0' := by
  by_cases zero : n = 0
  · exact .inl (by rw [zero]; rfl)
  · exact .inr fun head => zero (head?_toDigits n head)

theorem digits?_toString (bound n : Nat) (below : n < bound) :
    digits? bound (toString n).toList = some n := by
  have nonempty : Nat.toDigits 10 n ≠ [] := Nat.toDigits_ne_nil
  have all : (Nat.toDigits 10 n).all Char.isDigit = true :=
    List.all_eq_true.2 fun c => isDigit_of_mem_toDigits
  have noZeros : (Nat.toDigits 10 n).length = 1 ∨ (Nat.toDigits 10 n).head? ≠ some '0' :=
    (noZeros_toDigits n).imp_left fun zero => by rw [zero]; rfl
  have value : (Nat.toDigits 10 n).foldl (fun n c => n * 10 + (c.toNat - '0'.toNat)) 0 = n := by
    have same : Nat.ofDigitChars 10 (Nat.toDigits 10 n) 0 = n := Nat.ofDigitChars_ten_toDigits
    rw [Nat.ofDigitChars_eq_foldl] at same
    simpa only [Nat.mul_comm] using same
  rw [toList_toString, digits?, value]
  simp [nonempty, all, noZeros, below]

theorem isNumber_toString (n : Nat) : isNumber (toString n).toList = true := by
  rw [toList_toString]
  have noZeros := noZeros_toDigits n
  have nonempty : Nat.toDigits 10 n ≠ [] := Nat.toDigits_ne_nil
  have all : ∀ c ∈ Nat.toDigits 10 n, c.isDigit = true := fun c => isDigit_of_mem_toDigits
  generalize Nat.toDigits 10 n = digits at noZeros nonempty all
  cases digits with
  | nil => exact absurd rfl nonempty
  | cons d rest =>
    have noSign : d ≠ '-' := by
      rintro rfl
      exact absurd (all '-' List.mem_cons_self) (by decide)
    have whole : (d :: rest).takeWhile Char.isDigit = d :: rest :=
      List.takeWhile_eq_self_iff.2 all
    have tail : (d :: rest).dropWhile Char.isDigit = [] := List.dropWhile_eq_nil_iff.2 all
    unfold isNumber
    split
    next cs sign => exact absurd (List.cons.inj sign).1 noSign
    next =>
      simp only [whole, tail]
      simpa [isNumberTail] using noZeros

/-- The digits of a number need no escapes. -/
theorem escaped_toString (n : Nat) : (Written.ofText (toString n)).escaped = false := by
  refine List.any_eq_false.2 fun c mem => ?_
  rw [toList_toString] at mem
  have digit : c.isDigit = true := isDigit_of_mem_toDigits mem
  have lower : 48 ≤ c.toNat := (Char.isDigit_iff_toNat.1 digit).1
  have quote : c ≠ '"' := by
    rintro rfl
    cases digit
  have backslash : c ≠ '\\' := by
    rintro rfl
    cases digit
  have notLow : ¬ c.toNat < 0x20 := by omega
  simp [Written.mustEscape, quote, backslash, notLow]

/-- The digits of a number are a word that stands for it. -/
theorem ofWord?_toString (n : Nat) : ofWord? (toString n).toList = some (natural n) := by
  have other {word : List Char} (c : Char) (mem : c ∈ word) (noDigit : c.isDigit = false) :
      (toString n).toList ≠ word := by
    rintro rfl
    rw [toList_toString] at mem
    rw [isDigit_of_mem_toDigits mem] at noDigit
    cases noDigit
  rw [ofWord?, if_neg (other 'n' (by simp) rfl), if_neg (other 't' (by simp) rfl),
    if_neg (other 'f' (by simp) rfl), if_pos (isNumber_toString n), String.ofList_toList]
  rfl

end Polyscript.Json
