import Mathlib.Data.List.Basic
import Polyscript.Json.Lexer
import Polyscript.Json.Printer
import Polyscript.Proofs.Json.Number

/-!
# The tokens of a printed value

What the printer writes is read as the tokens of the value: strings come back with their
escapes undone, and a word ends where a blank, a comma or the text itself ends.
-/

namespace Polyscript.Json

/-- The tokens of characters, from a state of the lexer to the end of the text. -/
def Lexer.lex? (lexer : Lexer) : List Char → Option (List Token)
  | [] => lexer.finish
  | c :: rest => do
    let (next, tokens) ← lexer.step c
    (next.lex? rest).map (tokens ++ ·)

namespace Lexer

/-- Whether a character belongs to words: it is no blank, quote or punctuation. -/
def InWord (c : Char) : Prop := isBlank c = false ∧ c ≠ '"' ∧ (punctuation? c).isNone

instance : DecidablePred InWord := fun c =>
  inferInstanceAs (Decidable (isBlank c = false ∧ c ≠ '"' ∧ (punctuation? c).isNone))

/-- Whether a word in front of characters ends there. -/
def EndsWord (rest : List Char) : Prop := ∀ c ∈ rest.head?, ¬ InWord c

theorem endsWord_nil : EndsWord [] := by
  simp [EndsWord]

theorem endsWord_cons {c : Char} (outside : ¬ InWord c) (rest : List Char) :
    EndsWord (c :: rest) := by
  simp [EndsWord, outside]

theorem start_of_inWord {c : Char} (inWord : InWord c) : start c = (.word [c], []) := by
  obtain ⟨noBlank, noQuote, noPunctuation⟩ := inWord
  simp [start, noBlank, noQuote, Option.isNone_iff_eq_none.1 noPunctuation]

theorem start_of_not_inWord {c : Char} (outside : ¬ InWord c) (read : List Char) :
    (start c).1 ≠ .word read := by
  unfold start
  split
  next => simp
  next noBlank =>
    split
    next => simp
    next noQuote =>
      split
      next => simp
      next noPunctuation =>
        exact absurd ⟨by simpa using noBlank, noQuote, by simp [noPunctuation]⟩ outside

variable {lexer : Lexer} {c : Char}

/-! ### Single steps -/

section Step

variable {read : List Piece}

theorem step_gap (c : Char) : gap.step c = some (start c) := rfl

theorem step_word (inWord : InWord c) (read : List Char) :
    (word read).step c = some (.word (c :: read), []) := by
  have begun := start_of_inWord inWord
  rw [step, begun]

theorem step_quote (read : List Piece) (escaped : Bool) :
    (string read escaped).step '"' =
      some (.gap, [.string ⟨(Piece.join read.reverse).map String.ofList, escaped⟩]) :=
  rfl

theorem step_backslash (read : List Piece) (escaped : Bool) :
    (string read escaped).step '\\' = some (.escape read, []) :=
  rfl

/-- A character that need not be escaped is kept. -/
theorem step_string {escaped : Bool} (noQuote : c ≠ '"') (noBackslash : c ≠ '\\')
    (noControl : ¬ c.toNat < 0x20) :
    (string read escaped).step c = some (.string (.char c :: read) escaped, []) :=
  (if_neg noQuote).trans ((if_neg noBackslash).trans (if_neg noControl))

theorem step_escape_u (read : List Piece) : (escape read).step 'u' = some (.unit read 0 0, []) :=
  rfl

theorem step_escape {letter : Char} (noUnit : letter ≠ 'u') (named : escaped? letter = some c) :
    (escape read).step letter = some (.string (.char c :: read) true, []) := by
  refine (if_neg noUnit).trans ?_
  rw [named]
  rfl

theorem step_unit {digits code value : Nat} (more : digits ≠ 3)
    (digit : hexDigit? c = some value) :
    (unit read digits code).step c = some (.unit read (digits + 1) (code * 16 + value), []) := by
  simp [step, digit, more]

theorem step_unit_last {code value : Nat} (digit : hexDigit? c = some value) :
    (unit read 3 code).step c = some (.string (.unit (code * 16 + value) :: read) true, []) := by
  simp [step, digit]

end Step

/-- A character that completes no token changes the state. -/
theorem lex_of_step (next : Lexer) (silent : lexer.step c = some (next, []))
    (rest : List Char) :
    lexer.lex? (c :: rest) = next.lex? rest := by
  rw [lex?, silent]
  exact Option.map_id'

/-! ### Blanks, punctuation and words -/

theorem lex_blank (blank : isBlank c) (rest : List Char) :
    Lexer.gap.lex? (c :: rest) = Lexer.gap.lex? rest :=
  lex_of_step .gap (by rw [step_gap, start, if_pos blank]) rest

theorem lex_punctuation {token : Token} (alone : start c = (.gap, [token])) (rest : List Char) :
    Lexer.gap.lex? (c :: rest) = (Lexer.gap.lex? rest).map (token :: ·) := by
  rw [lex?, step_gap, alone]
  rfl

/-- The characters of a word are gathered. -/
theorem lex_inWord {chars : List Char} (inWord : ∀ c ∈ chars, InWord c) (read rest : List Char) :
    (Lexer.word read).lex? (chars ++ rest) = (Lexer.word (chars.reverse ++ read)).lex? rest := by
  induction chars generalizing read with
  | nil => rfl
  | cons c chars ih =>
    obtain ⟨here, further⟩ := List.forall_mem_cons.1 inWord
    rw [List.cons_append, lex_of_step _ (step_word here read), ih further, List.reverse_cons,
      List.append_assoc]
    rfl

/-- A word that ends is given out. -/
theorem lex_endsWord {rest : List Char} (ends : EndsWord rest) (read : List Char) :
    (Lexer.word read).lex? rest = (Lexer.gap.lex? rest).map (.word read.reverse :: ·) := by
  cases rest with
  | nil => rfl
  | cons c rest =>
    have noWord := start_of_not_inWord (ends c rfl)
    -- what starts with the next character starts there in either state; only the word that is
    -- given out before it differs
    rw [lex?, lex?, step, step]
    cases begun : start c with
    | mk next tokens =>
      rw [begun] at noWord
      cases next with
      | word read => exact absurd rfl (noWord read)
      | gap | string | escape | unit =>
        simp only [Option.bind_eq_bind, Option.bind_some, Option.map_map]
        rfl

theorem lex_word {chars : List Char} (nonempty : chars ≠ []) (inWord : ∀ c ∈ chars, InWord c)
    {rest : List Char} (ends : EndsWord rest) :
    Lexer.gap.lex? (chars ++ rest) = (Lexer.gap.lex? rest).map (.word chars :: ·) := by
  cases chars with
  | nil => exact absurd rfl nonempty
  | cons c chars =>
    obtain ⟨here, further⟩ := List.forall_mem_cons.1 inWord
    have begun : gap.step c = some (.word [c], []) := by rw [step_gap, start_of_inWord here]
    rw [List.cons_append, lex_of_step _ begun, lex_inWord further, lex_endsWord ends]
    simp

/-! ### Strings -/

theorem hexDigit?_hexDigit {value : Nat} (isDigit : value < 16) :
    hexDigit? (hexDigit value) = some value := by
  have all : ∀ value < 16, hexDigit? (hexDigit value) = some value := by decide
  exact all value isDigit

/-- A character that is written with four digits is read from them. -/
theorem join_unit (c : Char) (control : c.toNat < 0x20) (rest : List Piece) :
    Piece.join (.unit c.toNat :: rest) = (Piece.join rest).map (c :: ·) := by
  have small : c.toNat < 0xD800 := by omega
  rw [Piece.join.eq_def]
  simp [small, Char.ofNat_toNat]

theorem lex_letter {letter : Char} (noUnit : letter ≠ 'u') (named : escaped? letter = some c)
    (read : List Piece) (escaped : Bool) (rest : List Char) :
    (Lexer.string read escaped).lex? ('\\' :: letter :: rest) =
      (Lexer.string (.char c :: read) true).lex? rest := by
  rw [lex_of_step _ (step_backslash read escaped), lex_of_step _ (step_escape noUnit named)]

theorem lex_digits (control : c.toNat < 0x20) (read : List Piece) (escaped : Bool)
    (rest : List Char) :
    (Lexer.string read escaped).lex?
        ('\\' :: 'u' :: '0' :: '0' :: hexDigit (c.toNat / 16) :: hexDigit (c.toNat % 16) :: rest) =
      (Lexer.string (.unit c.toNat :: read) true).lex? rest := by
  have zero : hexDigit? '0' = some 0 := by decide
  have high : hexDigit? (hexDigit (c.toNat / 16)) = some (c.toNat / 16) :=
    hexDigit?_hexDigit (by omega)
  have low : hexDigit? (hexDigit (c.toNat % 16)) = some (c.toNat % 16) :=
    hexDigit?_hexDigit (by omega)
  have worth : c.toNat / 16 * 16 + c.toNat % 16 = c.toNat := by omega
  rw [lex_of_step _ (step_backslash read escaped), lex_of_step _ (step_escape_u read),
    lex_of_step _ (step_unit (by decide) zero), lex_of_step _ (step_unit (by decide) zero),
    lex_of_step _ (step_unit (by decide) high), lex_of_step _ (step_unit_last low)]
  simp only [Nat.zero_mul, Nat.zero_add, worth]

/-- Each character of a string is read from what it is written as. -/
theorem lex_escapeChar (c : Char) : ∃ piece : Piece,
    (∀ rest, Piece.join (piece :: rest) = (Piece.join rest).map (c :: ·)) ∧
    ∀ read escaped rest, (Lexer.string read escaped).lex? (escapeChar c ++ rest) =
      (Lexer.string (piece :: read) (escaped || Written.mustEscape c)).lex? rest := by
  have letter {c letter : Char} (noUnit : letter ≠ 'u') (named : escaped? letter = some c)
      (must : Written.mustEscape c = true) : ∃ piece : Piece,
      (∀ rest, Piece.join (piece :: rest) = (Piece.join rest).map (c :: ·)) ∧
      ∀ read escaped rest, (Lexer.string read escaped).lex? (['\\', letter] ++ rest) =
        (Lexer.string (piece :: read) (escaped || Written.mustEscape c)).lex? rest :=
    ⟨.char c, fun _ => rfl, fun read escaped rest => by
      rw [must, Bool.or_true]
      exact lex_letter noUnit named read escaped rest⟩
  unfold escapeChar
  split
  -- of all characters seven have a letter of their own; the last case is any other character
  case h_8 noQuote noSlash _ _ _ _ _ =>
    split
    next control =>
      have must : Written.mustEscape c = true := by simp [Written.mustEscape, control]
      refine ⟨.unit c.toNat, join_unit c control, fun read escaped rest => ?_⟩
      rw [must, Bool.or_true]
      exact lex_digits control read escaped rest
    next plain =>
      have must : Written.mustEscape c = false := by
        simp only [Written.mustEscape, Bool.or_eq_false_iff, beq_eq_false_iff_ne,
          decide_eq_false_iff_not]
        exact ⟨⟨noQuote, noSlash⟩, plain⟩
      refine ⟨.char c, fun _ => rfl, fun read escaped rest => ?_⟩
      rw [must, Bool.or_false]
      exact lex_of_step _ (step_string noQuote noSlash plain) rest
  all_goals exact letter (by decide) rfl (by decide)

/-- The characters of a text are read from what they are written as. -/
theorem lex_escaped (chars : List Char) : ∃ pieces : List Piece,
    Piece.join pieces = some chars ∧
    ∀ read escaped rest, (Lexer.string read escaped).lex? (chars.flatMap escapeChar ++ rest) =
      (Lexer.string (pieces.reverse ++ read)
        (escaped || chars.any Written.mustEscape)).lex? rest := by
  induction chars with
  | nil => exact ⟨[], rfl, by simp⟩
  | cons c chars ih =>
    obtain ⟨piece, joinPiece, lexPiece⟩ := lex_escapeChar c
    obtain ⟨pieces, joined, lexed⟩ := ih
    refine ⟨piece :: pieces, by rw [joinPiece, joined]; rfl, fun read escaped rest => ?_⟩
    rw [List.flatMap_cons, List.append_assoc, lexPiece, lexed]
    simp [Bool.or_assoc]

/-- A text between quotes is read as a string. -/
theorem lex_quote (text : String) (rest : List Char) :
    Lexer.gap.lex? ((quote text).toList ++ rest) =
      (Lexer.gap.lex? rest).map (.string (.ofText text) :: ·) := by
  obtain ⟨pieces, joined, lexed⟩ := lex_escaped text.toList
  have opened : (quote text).toList ++ rest =
      '"' :: (text.toList.flatMap escapeChar ++ '"' :: rest) := by
    simp [quote, String.toList_append]
  rw [opened, lex_of_step (.string [] false) rfl, lexed]
  simp [lex?, step_quote, joined, Written.ofText]

end Lexer

/-! ### Canonical values -/

/-- Values that are put together from natural numbers, texts, truth values and `null`. -/
inductive Canonical : Json → Prop where
  | null : Canonical .null
  | bool (value : Bool) : Canonical (.bool value)
  | natural (value : Nat) : Canonical (natural value)
  | text (value : String) : Canonical (text value)
  | array (items : List Json) (all : ∀ item ∈ items, Canonical item) : Canonical (.array items)
  | record (members : List (String × Json)) (all : ∀ m ∈ members, Canonical m.2) :
    Canonical (record members)

mutual

/-- The tokens of a value. -/
def tokens : Json → List Token
  | .null => [.word ['n', 'u', 'l', 'l']]
  | .bool true => [.word ['t', 'r', 'u', 'e']]
  | .bool false => [.word ['f', 'a', 'l', 's', 'e']]
  | .number spelling => [.word spelling.toList]
  | .string value => [.string value]
  | .array [] => [.openArray, .closeArray]
  | .array (item :: items) =>
    .openArray :: (item.tokens ++ (itemTokens items ++ [.closeArray]))
  | .object [] => [.openObject, .closeObject]
  | .object (member :: members) =>
    .openObject :: (memberToken member ++ (memberTokens members ++ [.closeObject]))

/-- The tokens of further items. -/
def itemTokens : List Json → List Token
  | [] => []
  | item :: items => .comma :: (item.tokens ++ itemTokens items)

/-- The tokens of one member. -/
def memberToken : Written × Json → List Token
  | (key, value) => .string key :: .colon :: value.tokens

/-- The tokens of further members. -/
def memberTokens : List (Written × Json) → List Token
  | [] => []
  | member :: members => .comma :: (memberToken member ++ memberTokens members)

end

/-! ### Printed values -/

theorem toList_newLine (depth : Nat) :
    (newLine depth).toList = '\n' :: List.replicate (2 * depth) ' ' := by
  simp [newLine, String.toList_append]

/-- Whether the lexer gives certain tokens for characters, when what follows them ends a
word. -/
def Lexes (chars : List Char) (tokens : List Token) : Prop :=
  ∀ rest, Lexer.EndsWord rest →
    Lexer.gap.lex? (chars ++ rest) = (Lexer.gap.lex? rest).map (tokens ++ ·)

namespace Lexes

open Lexer

variable {chars chars' : List Char} {ts ts' : List Token}

theorem nil : Lexes [] [] := fun _ _ => Option.map_id'.symm

theorem append (first : Lexes chars ts) (second : Lexes chars' ts')
    (ends : ∀ rest, EndsWord rest → EndsWord (chars' ++ rest)) :
    Lexes (chars ++ chars') (ts ++ ts') := by
  intro rest restEnds
  rw [List.append_assoc, first _ (ends rest restEnds), second rest restEnds, Option.map_map]
  simp only [Function.comp_def, List.append_assoc]

theorem punctuation {c : Char} {token : Token} (alone : start c = (.gap, [token]))
    (further : Lexes chars ts) : Lexes (c :: chars) (token :: ts) := by
  intro rest ends
  rw [List.cons_append, lex_punctuation alone, further rest ends, Option.map_map]
  rfl

theorem blank {c : Char} (isBlank : isBlank c) (further : Lexes chars ts) :
    Lexes (c :: chars) ts := by
  intro rest ends
  rw [List.cons_append, lex_blank isBlank, further rest ends]

theorem quote (text : String) (further : Lexes chars ts) :
    Lexes ((Json.quote text).toList ++ chars) (.string (.ofText text) :: ts) := by
  intro rest ends
  rw [List.append_assoc, lex_quote, further rest ends, Option.map_map]
  rfl

theorem word {chars : List Char} (nonempty : chars ≠ []) (inWord : ∀ c ∈ chars, InWord c) :
    Lexes chars [.word chars] :=
  fun _ ends => lex_word nonempty inWord ends

theorem newLine (depth : Nat) (further : Lexes chars ts) :
    Lexes ((Json.newLine depth).toList ++ chars) ts := by
  have blanks (count : Nat) : Lexes (List.replicate count ' ' ++ chars) ts := by
    induction count with
    | zero => exact further
    | succ count ih => exact ih.blank rfl
  rw [toList_newLine]
  exact (blanks _).blank rfl

end Lexes

theorem endsWord_newLine (depth : Nat) (chars rest : List Char) :
    Lexer.EndsWord ((newLine depth).toList ++ chars ++ rest) := by
  rw [toList_newLine]
  exact Lexer.endsWord_cons (by decide) _

theorem inWord_of_isAlphanum {c : Char} (alphanum : c.isAlphanum = true) : Lexer.InWord c := by
  have other (k : Char) (neither : k.isAlphanum = false) : c ≠ k := by
    rintro rfl
    rw [alphanum] at neither
    cases neither
  refine ⟨?_, other '"' rfl, ?_⟩
  · simp [Lexer.isBlank, other ' ' rfl, other '\n' rfl, other '\t' rfl, other '\r' rfl]
  · unfold Lexer.punctuation?
    split
    case h_7 => rfl
    all_goals cases alphanum

/-- Letters and digits are a word. -/
theorem Lexes.alphanum {chars : List Char} (nonempty : chars ≠ [])
    (all : chars.all Char.isAlphanum = true) : Lexes chars [.word chars] :=
  .word nonempty fun c mem => inWord_of_isAlphanum (List.all_eq_true.1 all c mem)

/-- What is printed after an item, or after a member, ends a word. -/
theorem endsWord_comma (chars rest : List Char) : Lexer.EndsWord (',' :: chars ++ rest) :=
  Lexer.endsWord_cons (by decide) _

/-- The end of an array or object stands on a line of its own. -/
theorem lexes_close {c : Char} {token : Token} (depth : Nat)
    (alone : Lexer.start c = (.gap, [token])) : Lexes ((newLine depth).toList ++ [c]) [token] :=
  (Lexes.nil.punctuation alone).newLine depth

section Containers

variable {chars : List Char} {ts : List Token}

/-- Further items are printed as their tokens if each item is. -/
theorem lexes_items {items : List Json} (depth : Nat)
    (all : ∀ item ∈ items, Lexes (print depth item).toList item.tokens)
    (further : Lexes chars ts) (ends : ∀ rest, Lexer.EndsWord (chars ++ rest)) :
    Lexes ((printItems depth items).toList ++ chars) (itemTokens items ++ ts) ∧
      ∀ rest, Lexer.EndsWord ((printItems depth items).toList ++ chars ++ rest) := by
  induction items with
  | nil => exact ⟨further, ends⟩
  | cons item items ih =>
    obtain ⟨here, others⟩ := List.forall_mem_cons.1 all
    obtain ⟨lexes, ends⟩ := ih others
    have printed : (printItems depth (item :: items)).toList ++ chars =
        ',' :: ((newLine depth).toList ++
          ((print depth item).toList ++ ((printItems depth items).toList ++ chars))) := by
      simp [printItems, String.toList_append]
    rw [printed, itemTokens, List.cons_append, List.append_assoc]
    exact ⟨((here.append lexes fun rest _ => ends rest).newLine depth).punctuation
      rfl, fun rest => endsWord_comma _ rest⟩

theorem lexes_member {depth : Nat} {m : String × Json}
    (lexes : Lexes (print depth m.2).toList m.2.tokens) :
    Lexes (printMember depth (member m)).toList (memberToken (member m)) := by
  have printed : (printMember depth (member m)).toList =
      (quote m.1).toList ++ ':' :: ' ' :: (print depth m.2).toList := by
    simp [printMember, member, Written.ofText, String.toList_append]
  rw [printed]
  exact ((lexes.blank rfl).punctuation rfl).quote m.1

/-- Further members are printed as their tokens if each member is. -/
theorem lexes_members {members : List (Written × Json)} (depth : Nat)
    (all : ∀ m ∈ members, Lexes (printMember depth m).toList (memberToken m))
    (further : Lexes chars ts) (ends : ∀ rest, Lexer.EndsWord (chars ++ rest)) :
    Lexes ((printMembers depth members).toList ++ chars) (memberTokens members ++ ts) ∧
      ∀ rest, Lexer.EndsWord ((printMembers depth members).toList ++ chars ++ rest) := by
  induction members with
  | nil => exact ⟨further, ends⟩
  | cons m members ih =>
    obtain ⟨here, others⟩ := List.forall_mem_cons.1 all
    obtain ⟨lexes, ends⟩ := ih others
    have printed : (printMembers depth (m :: members)).toList ++ chars =
        ',' :: ((newLine depth).toList ++ ((printMember depth m).toList ++
          ((printMembers depth members).toList ++ chars))) := by
      simp [printMembers, String.toList_append]
    rw [printed, memberTokens, List.cons_append, List.append_assoc]
    exact ⟨((here.append lexes fun rest _ => ends rest).newLine depth).punctuation
      rfl, fun rest => endsWord_comma _ rest⟩

end Containers

/-- The lexer gives the tokens of a printed value. -/
theorem Canonical.lexes_print {j : Json} (canonical : Canonical j) :
    ∀ depth, Lexes (print depth j).toList j.tokens := by
  induction canonical with
  | null =>
    have word : Lexes ['n', 'u', 'l', 'l'] [.word ['n', 'u', 'l', 'l']] :=
      .alphanum (by simp) rfl
    intro _
    simpa [print, tokens] using word
  | bool value =>
    have yes : Lexes ['t', 'r', 'u', 'e'] [.word ['t', 'r', 'u', 'e']] :=
      .alphanum (by simp) rfl
    have no : Lexes ['f', 'a', 'l', 's', 'e'] [.word ['f', 'a', 'l', 's', 'e']] :=
      .alphanum (by simp) rfl
    intro _
    cases value with
    | true => simpa [print, tokens] using yes
    | false => simpa [print, tokens] using no
  | natural value =>
    have word : Lexes (toString value).toList [.word (toString value).toList] := by
      rw [toList_toString]
      refine .alphanum Nat.toDigits_ne_nil (List.all_eq_true.2 fun c mem => ?_)
      rw [Char.isAlphanum, isDigit_of_mem_toDigits mem, Bool.or_true]
    exact fun _ => word
  | text value =>
    intro _
    have quoted := Lexes.nil.quote value
    rwa [List.append_nil] at quoted
  | array items all ih =>
    intro depth
    cases items with
    | nil =>
      have brackets : Lexes ['[', ']'] [.openArray, .closeArray] :=
        (Lexes.nil.punctuation rfl).punctuation rfl
      simpa [print, tokens] using brackets
    | cons item items =>
      obtain ⟨here, others⟩ := List.forall_mem_cons.1 ih
      have close : Lexes ((newLine depth).toList ++ [']']) [.closeArray] := lexes_close depth rfl
      obtain ⟨lexes, ends⟩ := lexes_items (depth + 1)
        (fun item mem => others item mem (depth + 1)) close (endsWord_newLine depth _)
      have printed : (print depth (.array (item :: items))).toList =
          '[' :: ((newLine (depth + 1)).toList ++ ((print (depth + 1) item).toList ++
            ((printItems (depth + 1) items).toList ++ ((newLine depth).toList ++ [']'])))) := by
        simp [print, String.toList_append]
      rw [printed]
      exact (((here _).append lexes fun rest _ => ends rest).newLine _).punctuation rfl
  | record members all ih =>
    intro depth
    have written : ∀ m ∈ members.map member,
        Lexes (printMember (depth + 1) m).toList (memberToken m) :=
      List.forall_mem_map.2 fun m mem => lexes_member (ih m mem (depth + 1))
    rw [Json.record]
    generalize members.map member = members at written ⊢
    cases members with
    | nil =>
      have braces : Lexes ['\x7b', '\x7d'] [.openObject, .closeObject] :=
        (Lexes.nil.punctuation rfl).punctuation rfl
      simpa [print, tokens] using braces
    | cons m members =>
      obtain ⟨here, others⟩ := List.forall_mem_cons.1 written
      have close : Lexes ((newLine depth).toList ++ ['\x7d']) [.closeObject] :=
        lexes_close depth rfl
      obtain ⟨lexes, ends⟩ := lexes_members (depth + 1) others close (endsWord_newLine depth _)
      have printed : (print depth (.object (m :: members))).toList =
          '\x7b' :: ((newLine (depth + 1)).toList ++ ((printMember (depth + 1) m).toList ++
            ((printMembers (depth + 1) members).toList ++
              ((newLine depth).toList ++ ['\x7d'])))) := by
        simp [print, String.toList_append]
      rw [printed]
      exact ((here.append lexes fun rest _ => ends rest).newLine _).punctuation rfl

end Polyscript.Json
