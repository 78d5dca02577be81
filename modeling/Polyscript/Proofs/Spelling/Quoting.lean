import Polyscript.Json.Lexer
import Polyscript.Spelling.Text

/-!
# Texts between quotes, read back

Between quotes a backslash begins an escape: one character stands for a quote, a backslash, a
control character or the sign that begins an expression, and `u` with four digits is a UTF-16
unit. Every other character stands for itself.

What a language writes for a text is read back as the text, and it stays between its quotes: no
line ends in it, and what would end the text or begin an expression stands behind a backslash
that no other backslash escapes.

## Main definitions

* `Target.pieces?`, `Target.unquoted?`: what a language reads between quotes.
* `Target.IsSealed`: texts that stay between their quotes.

## Main statement

* `Target.escape_reads_back`: escaped texts are read back, and stay between their quotes even one
  behind the other.
-/

namespace Polyscript.Target

open Json (Piece)
open Json.Lexer (hexDigit?)

/-- The sign that begins an expression between quotes. -/
def expressionSign? : Target → Option Char
  | .javascript => none
  | .groovy | .kotlin => some '$'
  | .ruby => some '#'

/-- The character that one behind a backslash stands for. -/
def escaped? (t : Target) (c : Char) : Option Char :=
  match c with
  | '"' => some '"'
  | '\\' => some '\\'
  | 'n' => some '\n'
  | 'r' => some '\r'
  | 't' => some '\t'
  | 'b' => some '\x08'
  | 'f' => some '\x0c'
  | c => if t.expressionSign? = some c then some c else none

/-- The UTF-16 unit that four digits stand for. -/
def unit? (a b c d : Char) : Option Nat := do
  let high := (← hexDigit? a) * 0x10 + (← hexDigit? b)
  return (high * 0x10 + (← hexDigit? c)) * 0x10 + (← hexDigit? d)

/-- What a language reads between quotes, one piece after the other. -/
def pieces? (t : Target) : List Char → Option (List Piece)
  | [] => some []
  | '\\' :: 'u' :: a :: b :: c :: d :: rest => do
    let code ← unit? a b c d
    (pieces? t rest).map (.unit code :: ·)
  | '\\' :: c :: rest => do
    let c ← t.escaped? c
    (pieces? t rest).map (.char c :: ·)
  | ['\\'] => none
  | c :: rest => (pieces? t rest).map (.char c :: ·)

/-- The text that a language reads between quotes. The units of a surrogate pair are one
character. -/
def unquoted? (t : Target) (text : String) : Option String :=
  ((t.pieces? text.toList).bind Piece.join).map String.ofList

/-- Whether the character behind one between quotes is escaped, given whether that one is. No line
ends between quotes, and what ends the text or begins an expression is escaped there. -/
def nextEscaped? (t : Target) (isEscaped : Bool) (c : Char) : Option Bool :=
  if c = '\n' ∨ c = '\r' then none
  else if isEscaped then some false
  else if c = '\\' then some true
  else if c = '"' ∨ t.expressionSign? = some c then none
  else some false

/-- Whether a text stays between its quotes: it has no end of a line, no quote and no beginning of
an expression that is not escaped, and no backslash at its end that escapes what follows. -/
def IsSealed (t : Target) (text : List Char) : Prop :=
  text.foldlM t.nextEscaped? false = some false

instance (t : Target) (text : List Char) : Decidable (t.IsSealed text) :=
  inferInstanceAs (Decidable (_ = _))

variable {t : Target} {c : Char}

/-! ### Escapes -/

theorem hexDigit?_hexDigit_of_lt {value : Nat} (isDigit : value < 0x10) :
    hexDigit? (hexDigit value) = some value := by
  have all : ∀ value < 0x10, hexDigit? (hexDigit value) = some value := by decide
  exact all value isDigit

/-- Whether characters between quotes stand for a character, whatever follows them. -/
def StandsFor (t : Target) (chars : List Char) (c : Char) : Prop :=
  ∃ pieces : List Piece,
    (∀ rest, t.pieces? (chars ++ rest) = (t.pieces? rest).map (pieces ++ ·)) ∧
    ∀ rest, Piece.join (pieces ++ rest) = (Piece.join rest).map (c :: ·)

/-- A character that begins no escape stands for itself. -/
theorem standsFor_self (t : Target) (noBackslash : c ≠ '\\') : t.StandsFor [c] c := by
  refine ⟨[.char c], fun rest => ?_, fun rest => rfl⟩
  rw [List.singleton_append, pieces?.eq_def]
  split <;> simp_all

/-- A character with a letter of its own is read from the letter behind a backslash. -/
theorem standsFor_letter {letter : Char} (noUnit : letter ≠ 'u')
    (named : t.escaped? letter = some c) : t.StandsFor ['\\', letter] c := by
  refine ⟨[.char c], fun rest => ?_, fun rest => rfl⟩
  rw [List.cons_append, List.singleton_append, pieces?.eq_def]
  split
  case h_5 notEscape _ same =>
    obtain ⟨rfl, rfl⟩ := List.cons.inj same
    exact absurd rfl (notEscape _ _ rfl)
  all_goals simp_all

theorem pieces?_unitEscape (t : Target) {code : Nat} (small : code < 0x10000) (rest : List Char) :
    t.pieces? (unitEscape code ++ rest) = (t.pieces? rest).map (.unit code :: ·) := by
  have digit (value : Nat) := hexDigit?_hexDigit_of_lt (Nat.mod_lt value (show 0 < 0x10 by decide))
  have worth : ((code / 0x1000 % 0x10 * 0x10 + code / 0x100 % 0x10) * 0x10 + code / 0x10 % 0x10) *
      0x10 + code % 0x10 = code := by
    omega
  change t.pieces? ('\\' :: 'u' :: _ :: _ :: _ :: _ :: rest) = _
  rw [pieces?, unit?, digit, digit, digit, digit]
  simp only [Option.bind_eq_bind, Option.bind_some, Option.pure_def, worth]

/-- A unit that is no half of a surrogate pair is a character. -/
theorem join_single {code : Nat} (outside : code < 0xD800 ∨ 0xDFFF < code) (rest : List Piece) :
    Piece.join (.unit code :: rest) = (Piece.join rest).map (Char.ofNat code :: ·) := by
  rw [Json.Piece.join.eq_def]
  exact if_pos (by simpa only [Bool.or_eq_true, decide_eq_true_eq] using outside)

/-- The two halves of a surrogate pair are one character. -/
theorem join_pair {high low : Nat} (isHigh : 0xD800 ≤ high ∧ high ≤ 0xDBFF)
    (isLow : 0xDC00 ≤ low ∧ low ≤ 0xDFFF) (rest : List Piece) :
    Piece.join (.unit high :: .unit low :: rest) = (Piece.join rest).map
      (Char.ofNat (0x10000 + (high - 0xD800) * 0x400 + (low - 0xDC00)) :: ·) := by
  have inside : ¬(decide (high < 0xD800) || decide (0xDFFF < high)) = true := by
    simp only [Bool.or_eq_true, decide_eq_true_eq]
    omega
  have isPair : (decide (0xDC00 ≤ low) && decide (low ≤ 0xDFFF)) = true := by
    simpa only [Bool.and_eq_true, decide_eq_true_eq] using isLow
  rw [Json.Piece.join.eq_def]
  exact ((if_neg inside).trans (if_neg (Nat.not_lt.2 isHigh.2))).trans (if_pos isPair)

/-- A character is read from the units of its UTF-16 form. -/
theorem join_utf16Units (c : Char) (rest : List Piece) :
    Piece.join ((utf16Units c).map .unit ++ rest) = (Piece.join rest).map (c :: ·) := by
  -- a character is no half of a surrogate pair, and no more than the pairs can tell apart
  have valid : c.toNat < 0xD800 ∨ 0xDFFF < c.toNat ∧ c.toNat < 0x110000 := c.valid
  unfold utf16Units
  split
  next small =>
    rw [List.map_singleton, List.singleton_append, join_single (valid.imp_right And.left),
      Char.ofNat_toNat]
  next large =>
    have worth : 0x10000 + (0xD800 + (c.toNat - 0x10000) / 0x400 - 0xD800) * 0x400 +
        (0xDC00 + (c.toNat - 0x10000) % 0x400 - 0xDC00) = c.toNat := by
      omega
    rw [List.map_cons, List.map_singleton, List.cons_append, List.singleton_append,
      join_pair (by omega) (by omega), worth, Char.ofNat_toNat]

theorem standsFor_units (t : Target) (c : Char) :
    t.StandsFor ((utf16Units c).flatMap unitEscape) c := by
  refine ⟨(utf16Units c).map .unit, fun rest => ?_, join_utf16Units c⟩
  have small : ∀ code ∈ utf16Units c, code < 0x10000 := by
    have valid : c.toNat < 0xD800 ∨ 0xDFFF < c.toNat ∧ c.toNat < 0x110000 := c.valid
    unfold utf16Units
    split
    · simpa
    · simp only [List.mem_cons, List.not_mem_nil, or_false, forall_eq_or_imp, forall_eq]
      omega
  generalize utf16Units c = codes at small
  induction codes with
  | nil => simp
  | cons code codes ih =>
    obtain ⟨first, others⟩ := List.forall_mem_cons.1 small
    rw [List.flatMap_cons, List.append_assoc, pieces?_unitEscape t first, ih others]
    simp [Function.comp_def]

/-- The escapes that the languages share. -/
theorem standsFor_commonEscape (t : Target) (c : Char) : t.StandsFor (commonEscape c) c := by
  unfold commonEscape
  split
  -- of all characters seven have a letter of their own; the last case is any other character
  case h_8 noBackslash _ _ _ _ _ =>
    split
    next control =>
      have isUnit : unitEscape c.toNat = (utf16Units c).flatMap unitEscape := by
        have small : c.toNat < 0x10000 := by omega
        simp [utf16Units, small]
      rw [isUnit]
      exact t.standsFor_units c
    next => exact t.standsFor_self noBackslash
  all_goals exact standsFor_letter (by decide) rfl

/-- What is written for a character stands for it. -/
theorem standsFor_escapeChar (t : Target) (c : Char) : t.StandsFor (t.escapeChar c) c := by
  unfold escapeChar
  split
  case h_1 | h_2 | h_3 => exact standsFor_letter (by decide) rfl
  case h_4 => exact standsFor_units .kotlin '\x0c'
  case h_5 =>
    split
    · exact standsFor_units .kotlin c
    · exact standsFor_commonEscape .kotlin c
  case h_6 => exact t.standsFor_commonEscape c

/-! ### What stays between quotes -/

theorem isSealed_nil (t : Target) : t.IsSealed [] := rfl

theorem IsSealed.append {text rest : List Char} (first : t.IsSealed text)
    (second : t.IsSealed rest) : t.IsSealed (text ++ rest) := by
  rw [IsSealed, List.foldlM_append, first]
  exact second

theorem isSealed_flatMap {α : Type} {f : α → List Char} {items : List α}
    (all : ∀ item ∈ items, t.IsSealed (f item)) : t.IsSealed (items.flatMap f) := by
  induction items with
  | nil => exact t.isSealed_nil
  | cons item rest ih =>
    obtain ⟨first, others⟩ := List.forall_mem_cons.1 all
    exact first.append (ih others)

theorem isSealed_letter (t : Target) {letter : Char} (noEnd : letter ≠ '\n' ∧ letter ≠ '\r') :
    t.IsSealed ['\\', letter] := by
  simp [IsSealed, nextEscaped?, noEnd.1, noEnd.2]

theorem isSealed_digit (t : Target) (value : Nat) : t.IsSealed [hexDigit (value % 0x10)] := by
  have all : ∀ value < 0x10, t.IsSealed [hexDigit value] := by cases t <;> decide
  exact all _ (Nat.mod_lt value (by decide))

theorem isSealed_unitEscape (t : Target) (code : Nat) : t.IsSealed (unitEscape code) :=
  ((((t.isSealed_letter (by decide)).append (t.isSealed_digit _)).append
    (t.isSealed_digit _)).append (t.isSealed_digit _)).append (t.isSealed_digit _)

/-- The escapes that the languages share leave no character but the one that begins an
expression. -/
theorem isSealed_commonEscape (noSign : t.expressionSign? ≠ some c) :
    t.IsSealed (commonEscape c) := by
  unfold commonEscape
  split
  case h_8 noQuote noBackslash noNewline noReturn _ _ _ =>
    split
    · exact t.isSealed_unitEscape _
    · have noEnd : ¬(c = '\n' ∨ c = '\r') := not_or.2 ⟨noNewline, noReturn⟩
      have noStart : ¬(c = '"' ∨ t.expressionSign? = some c) := not_or.2 ⟨noQuote, noSign⟩
      have noEscape : c ≠ '\\' := noBackslash
      simp [IsSealed, nextEscaped?, noEnd, noStart, noEscape]
  all_goals exact t.isSealed_letter (by decide)

/-- What is written for a character stays between quotes. -/
theorem isSealed_escapeChar (t : Target) (c : Char) : t.IsSealed (t.escapeChar c) := by
  unfold escapeChar
  split
  case h_1 | h_2 | h_3 => exact isSealed_letter _ (by decide)
  case h_4 => exact isSealed_unitEscape _ _
  case h_5 noSign _ =>
    split
    · exact isSealed_flatMap fun code _ => isSealed_unitEscape _ code
    · exact isSealed_commonEscape (by simpa [expressionSign?] using Ne.symm noSign)
  case h_6 notKotlin groovy _ ruby _ =>
    refine isSealed_commonEscape fun isSign => ?_
    cases t with
    | javascript => cases isSign
    | groovy => exact groovy rfl (Option.some.inj isSign).symm
    | ruby => exact ruby rfl (Option.some.inj isSign).symm
    | kotlin => exact notKotlin rfl

/-! ### Texts -/

theorem toList_escape (t : Target) (s : String) :
    (t.escape s).toList = s.toList.flatMap t.escapeChar :=
  String.toList_ofList

theorem unquoted?_escape (t : Target) (s : String) : t.unquoted? (t.escape s) = some s := by
  have read (chars : List Char) :
      (t.pieces? (chars.flatMap t.escapeChar)).bind Piece.join = some chars := by
    induction chars with
    | nil => rfl
    | cons c rest ih =>
      obtain ⟨pieces, read, joined⟩ := t.standsFor_escapeChar c
      obtain ⟨others, ofRest, ih⟩ := Option.bind_eq_some_iff.1 ih
      rw [List.flatMap_cons, read, ofRest, Option.map_some, Option.bind_some, joined, ih]
      rfl
  rw [unquoted?, toList_escape, read, Option.map_some, String.ofList_toList]

theorem isSealed_escape (t : Target) (s : String) : t.IsSealed (t.escape s).toList := by
  rw [toList_escape]
  exact isSealed_flatMap fun c _ => t.isSealed_escapeChar c

/-- A text is read back from what is written for it between quotes, and whatever is written for two
texts one behind the other stays between the quotes. -/
theorem escape_reads_back (t : Target) :
    (∀ s, t.unquoted? (t.escape s) = some s) ∧
      ∀ first second, t.IsSealed (t.escape first ++ t.escape second).toList := by
  refine ⟨t.unquoted?_escape, fun first second => ?_⟩
  rw [String.toList_append]
  exact (t.isSealed_escape first).append (t.isSealed_escape second)

example : Target.kotlin.escape "\\$😀" = "\\\\\\$\\uD83D\\uDE00" := by decide +kernel
example : ¬Target.groovy.IsSealed "\\\\$".toList := by decide

end Polyscript.Target
