import Polyscript.Proofs.Phrase.Grammar

/-!
# The tokens of a text

A text is cut into tokens by longest match: a run of word characters is taken as far as it
goes, and so is a sign, and a blank ends either. The text of a phrase that fits is cut into
the tokens of the phrase; no sign grows together with the one that follows it.
-/

namespace Polyscript

open Model (BinaryOp)

/-- The signs of the target languages, and whatever begins one of them. -/
def signs : List String :=
  ["(", ")", "?", ":", "!", "!=", "!==", "=", "==", "===", "<", "<=", ">", ">=", "&", "&&", "|",
    "||", "^", "+", "++", "-", "--", "*", "/", "%"]

/-- Whether characters make up a sign. -/
def isSign (chars : List Char) : Bool := signs.any (·.toList = chars)

/-- Whether a character goes on with a token. -/
def goesOn (token : List Char) (c : Char) : Bool :=
  (token ++ [c]).all isWordChar || isSign (token ++ [c])

/-- The token that has been begun, if there is one. -/
def begun (token : List Char) : List String :=
  if token.isEmpty then [] else [String.ofList token]

@[simp] theorem begun_nil : begun [] = [] := rfl

/-- The tokens of a text whose first token has been begun. -/
def lexFrom (token : List Char) : List Char → List String
  | [] => begun token
  | c :: rest =>
    if c = ' ' then begun token ++ lexFrom [] rest
    else if goesOn token c then lexFrom (token ++ [c]) rest
    else begun token ++ lexFrom [c] rest

/-- The tokens of a text. -/
def lex (text : String) : List String := lexFrom [] text.toList

/-! ## One token -/

/-- Whether characters are a token: a run of word characters or a sign. -/
def IsToken (chars : List Char) : Prop :=
  chars ≠ [] ∧ ' ' ∉ chars ∧ (chars.all isWordChar = true ∨ isSign chars = true)

instance (chars : List Char) : Decidable (IsToken chars) :=
  inferInstanceAs (Decidable (_ ∧ _ ∧ (_ ∨ _)))

/-- Whether a token ends where a text goes on. -/
def EndsBefore (token : List Char) : List Char → Prop
  | [] => True
  | c :: _ => c = ' ' ∨ goesOn token c = false

/-- What begins a sign is a sign. -/
theorem isSign_of_append {front back : List Char} (sign : isSign (front ++ back) = true)
    (notNil : front ≠ []) : isSign front = true := by
  have begins : ∀ s ∈ signs, ∀ n < s.toList.length, isSign (s.toList.take (n + 1)) = true := by
    decide
  obtain ⟨s, mem, isText⟩ := List.any_eq_true.1 sign
  have isText : s.toList = front ++ back := of_decide_eq_true isText
  have isPos := List.length_pos_iff.2 notNil
  have front_eq := begins s mem (front.length - 1) (by rw [isText, List.length_append]; omega)
  rwa [isText, Nat.sub_add_cancel isPos, List.take_left] at front_eq

theorem goesOn_of_isToken {front back : List Char} {c : Char}
    (token : IsToken (front ++ c :: back)) : goesOn front c = true := by
  have split : front ++ c :: back = (front ++ [c]) ++ back := by simp
  obtain ⟨_, _, word | sign⟩ := token
  · rw [split, List.all_append, Bool.and_eq_true] at word
    simp only [goesOn, word.1, Bool.true_or]
  · rw [split] at sign
    simp only [goesOn, isSign_of_append sign (by simp), Bool.or_true]

/-- A token that has been begun is taken to its end. -/
theorem lexFrom_isToken {front back : List Char} (token : IsToken (front ++ back))
    (rest : List Char) : lexFrom front (back ++ rest) = lexFrom (front ++ back) rest := by
  induction back generalizing front with
  | nil => rw [List.nil_append, List.append_nil]
  | cons c back ih =>
    -- the character goes on with the front, since all of a token does
    have split : front ++ c :: back = (front ++ [c]) ++ back := by simp
    have notBlank : c ≠ ' ' := by
      rintro rfl
      exact token.2.1 (by simp)
    have further := ih (split ▸ token)
    rw [← split] at further
    simp only [List.cons_append, lexFrom, notBlank, if_false, goesOn_of_isToken token, if_true,
      further]

/-- A token is cut off where it ends. -/
theorem lexFrom_append {token : List Char} (isToken : IsToken token) {rest : List Char}
    (ends : EndsBefore token rest) :
    lexFrom [] (token ++ rest) = String.ofList token :: lexFrom [] rest := by
  have whole := @lexFrom_isToken [] token isToken rest
  rw [List.nil_append] at whole
  have isBegun : begun token = [String.ofList token] := by simp [begun, isToken.1]
  rw [whole]
  cases rest with
  | nil => simp [lexFrom, isBegun]
  | cons c rest =>
    rcases ends with rfl | stops
    · simp [lexFrom, isBegun]
    · by_cases blank : c = ' '
      · simp [lexFrom, isBegun, blank]
      · simp [lexFrom, isBegun, blank, stops]

theorem lexFrom_blank (rest : List Char) : lexFrom [] (' ' :: rest) = lexFrom [] rest := by
  simp [lexFrom]

/-! ## Where tokens end -/

theorem notWord_of_mem_signs : ∀ s ∈ signs, ∀ c ∈ s.toList, isWordChar c = false := by
  have noWords : (signs.all fun s => s.toList.all (!isWordChar ·)) = true := by decide
  intro s mem c inSign
  simpa using List.all_eq_true.1 (List.all_eq_true.1 noWords s mem) c inSign

/-- Whether characters are a run of word characters, as those of names and numbers are. -/
def IsRun (chars : List Char) : Prop := chars ≠ [] ∧ chars.all isWordChar = true

theorem IsRun.isToken {run : List Char} (isRun : IsRun run) : IsToken run := by
  refine ⟨isRun.1, fun blank => ?_, .inl isRun.2⟩
  have isWord := List.all_eq_true.1 isRun.2 ' ' blank
  revert isWord
  decide

/-- A run ends before a character that is not one of a word. -/
theorem IsRun.endsBefore {run : List Char} (isRun : IsRun run) {c : Char}
    (other : isWordChar c = false) (rest : List Char) : EndsBefore run (c :: rest) := by
  right
  obtain ⟨notNil, words⟩ := isRun
  obtain ⟨first, others, rfl⟩ := List.exists_cons_of_ne_nil notNil
  rw [List.all_cons, Bool.and_eq_true] at words
  have noSign : isSign (first :: others ++ [c]) = false := by
    rw [isSign, List.any_eq_false]
    intro s mem isText
    have notFirst := notWord_of_mem_signs s mem first (by simp [of_decide_eq_true isText])
    exact absurd words.1 (by simp [notFirst])
  rw [goesOn, noSign]
  simp [other]

theorem isRun_of_isWord {word : String} (isName : isWord word = true) : IsRun word.toList := by
  rw [isWord] at isName
  cases chars : word.toList with
  | nil =>
    rw [chars] at isName
    cases isName
  | cons c rest =>
    rw [chars] at isName
    simp only [Bool.and_eq_true] at isName
    have words : (c :: rest).all isWordChar = true := by
      simp only [List.all_cons, isName.1.1, isName.2, Bool.and_self]
    exact ⟨List.cons_ne_nil c rest, words⟩

theorem isRun_of_isNumber {digits : String} (number : isNumber digits = true) :
    IsRun digits.toList := by
  rw [isNumber, Bool.and_eq_true] at number
  refine ⟨by simpa using number.1, List.all_eq_true.2 fun c mem => ?_⟩
  have isDigit := List.all_eq_true.1 number.2 c mem
  simp [isWordChar, Char.isAlphanum, isDigit]

/-! ## Phrases -/

namespace Phrase

/-- The text of a phrase. -/
def text (spelling : BinaryOp → String) : Phrase → String
  | .name word => word
  | .number digits => digits
  | .group inner => "(" ++ inner.text spelling ++ ")"
  | .binary op lhs rhs => lhs.text spelling ++ " " ++ spelling op ++ " " ++ rhs.text spelling
  | .not operand => "!" ++ operand.text spelling
  | .step stepping word => word ++ stepping.sign
  | .conditional cond yes no =>
    cond.text spelling ++ " ? " ++ yes.text spelling ++ " : " ++ no.text spelling

variable {g : Grammar} {spelling : BinaryOp → String}

/-- The text of what can follow a prefix operator begins a word, a group or another prefix
operator. -/
theorem head_text (spelling : BinaryOp → String) {p : Phrase} (fits : p.Fits g)
    (isUnary : p.rank g = g.unary) :
    ∃ c rest, (p.text spelling).toList = c :: rest ∧ (isWordChar c = true ∨ c = '(' ∨ c = '!') := by
  have run (word : String) (isRun : IsRun word.toList) (rest : List Char) :
      ∃ c others, word.toList ++ rest = c :: others ∧
        (isWordChar c = true ∨ c = '(' ∨ c = '!') := by
    obtain ⟨notNil, words⟩ := isRun
    obtain ⟨c, others, isText⟩ := List.exists_cons_of_ne_nil notNil
    rw [isText, List.all_cons, Bool.and_eq_true] at words
    exact ⟨c, others ++ rest, by rw [isText, List.cons_append], .inl words.1⟩
  cases p with
  | name word => simpa [text] using run word (isRun_of_isWord fits) []
  | number digits => simpa [text] using run digits (isRun_of_isNumber fits) []
  | step stepping word => simpa [text] using run word (isRun_of_isWord fits) stepping.sign.toList
  | group inner =>
    exact ⟨'(', (inner.text spelling).toList ++ [')'], by simp [text], .inr (.inl rfl)⟩
  | not operand => exact ⟨'!', (operand.text spelling).toList, by simp [text], .inr (.inr rfl)⟩
  | binary op lhs rhs => exact absurd isUnary (Nat.ne_of_lt (g.level_lt op))
  | conditional cond yes no =>
    exact absurd isUnary (Nat.ne_of_lt (Nat.lt_trans (g.level_pos .add) (g.level_lt .add)))

end Phrase

/-- Whether a text goes on in a way that ends any phrase. -/
def EndsPhrase : List Char → Prop
  | [] => True
  | c :: _ => c = ' ' ∨ c = ')'

theorem EndsPhrase.of_run {rest run : List Char} (ends : EndsPhrase rest) (isRun : IsRun run) :
    EndsBefore run rest := by
  cases rest with
  | nil => trivial
  | cons c rest =>
    have other : isWordChar c = false := by
      rcases ends with rfl | rfl <;> decide
    exact isRun.endsBefore other rest

theorem EndsPhrase.of_sign {rest : List Char} (ends : EndsPhrase rest) {sign : List Char}
    (mem : sign ∈ [[')'], ['+', '+'], ['-', '-']]) : EndsBefore sign rest := by
  cases rest with
  | nil => trivial
  | cons c rest =>
    have stops : ∀ sign ∈ [[')'], ['+', '+'], ['-', '-']], goesOn sign ')' = false := by decide
    rcases ends with rfl | rfl
    · exact .inl rfl
    · exact .inr (stops sign mem)

theorem goesOn_opening (c : Char) : goesOn ['('] c = false := by
  have notWord : isWordChar '(' = false := by decide
  simp [goesOn, isSign, signs, notWord]

theorem goesOn_negation {c : Char} (begins : isWordChar c = true ∨ c = '(' ∨ c = '!') :
    goesOn ['!'] c = false := by
  have notWord : isWordChar '!' = false := by decide
  have notEqual : '=' ≠ c := by
    rintro rfl
    revert begins
    decide
  simp [goesOn, isSign, signs, notWord, notEqual]

namespace Phrase

variable {g : Grammar} {spelling : BinaryOp → String}

/-- The text of a phrase that fits is cut into the tokens of the phrase, whatever ends it. -/
theorem lexFrom_text (spelled : ∀ op, IsToken (spelling op).toList) {p : Phrase}
    (fits : p.Fits g) {rest : List Char} (ends : EndsPhrase rest) :
    lexFrom [] ((p.text spelling).toList ++ rest) = p.tokens spelling ++ lexFrom [] rest := by
  have blank (rest : List Char) : EndsPhrase (' ' :: rest) := .inl rfl
  -- a sign between two blanks is a token of its own
  have between {sign : List Char} (isToken : IsToken sign) (rest : List Char) :
      lexFrom [] (' ' :: (sign ++ ' ' :: rest)) = String.ofList sign :: lexFrom [] rest := by
    have stops : EndsBefore sign (' ' :: rest) := .inl rfl
    rw [lexFrom_blank, lexFrom_append isToken stops, lexFrom_blank]
  induction p generalizing rest with
  | name word =>
    have isRun := isRun_of_isWord fits
    have cut := lexFrom_append isRun.isToken (ends.of_run isRun)
    simpa [text, tokens] using cut
  | number digits =>
    have isRun := isRun_of_isNumber fits
    have cut := lexFrom_append isRun.isToken (ends.of_run isRun)
    simpa [text, tokens] using cut
  | step stepping word =>
    have isRun := isRun_of_isWord fits
    have isSign : IsToken stepping.sign.toList := by cases stepping <;> decide
    have last := lexFrom_append isSign (ends.of_sign (by cases stepping <;> decide))
    have before : EndsBefore word.toList (stepping.sign.toList ++ rest) := by
      cases stepping <;> exact isRun.endsBefore (by decide) _
    have first := lexFrom_append isRun.isToken before
    simp [text, tokens, first, last]
  | group inner ih =>
    have closes : EndsPhrase (')' :: rest) := .inr rfl
    have inside := ih fits closes
    have isOpening : IsToken ['('] := by decide
    have isClosing : IsToken [')'] := by decide
    have stops : EndsBefore ['('] ((inner.text spelling).toList ++ ')' :: rest) := by
      cases (inner.text spelling).toList <;> exact .inr (goesOn_opening _)
    have first := lexFrom_append isOpening stops
    have last := lexFrom_append isClosing (ends.of_sign (by decide))
    simp only [List.singleton_append] at first last
    simp [text, tokens, first, inside, last]
  | not operand ih =>
    obtain ⟨isUnary, fitsOperand⟩ := fits
    have inside := ih fitsOperand ends
    have isNegation : IsToken ['!'] := by decide
    obtain ⟨c, others, isText, begins⟩ := head_text spelling fitsOperand isUnary
    have stops : EndsBefore ['!'] ((operand.text spelling).toList ++ rest) := by
      rw [isText]
      exact .inr (goesOn_negation begins)
    have first := lexFrom_append isNegation stops
    rw [List.singleton_append] at first
    simp [text, tokens, first, inside]
  | binary op lhs rhs ihl ihr =>
    obtain ⟨_, _, fitsLeft, fitsRight⟩ := fits
    have left := ihl fitsLeft
      (blank ((spelling op).toList ++ ' ' :: ((rhs.text spelling).toList ++ rest)))
    simp [text, tokens, left, between (spelled op), ihr fitsRight ends]
  | conditional cond yes no ihc ihy ihn =>
    obtain ⟨_, fitsCond, fitsYes, fitsNo⟩ := fits
    have asking : IsToken ['?'] := by decide
    have answering : IsToken [':'] := by decide
    have first := ihc fitsCond (blank (['?'] ++ ' ' :: ((yes.text spelling).toList ++
      ' ' :: ([':'] ++ ' ' :: ((no.text spelling).toList ++ rest)))))
    have second := ihy fitsYes (blank ([':'] ++ ' ' :: ((no.text spelling).toList ++ rest)))
    rw [between asking, second, between answering, ihn fitsNo ends] at first
    simpa [text, tokens] using first

/-- The tokens of the text of a phrase that fits are the tokens of the phrase. -/
theorem lex_text (spelled : ∀ op, IsToken (spelling op).toList) {p : Phrase}
    (fits : p.Fits g) : lex (p.text spelling) = p.tokens spelling := by
  have ends : EndsPhrase [] := trivial
  have cut := lexFrom_text spelled fits ends
  simpa [lex, lexFrom] using cut

end Phrase

/-- The tokens of operators are tokens of a text. -/
theorem Target.isToken_token (t : Target) (op : BinaryOp) : IsToken (t.token op).toList := by
  cases t <;> cases op <;> decide

end Polyscript
