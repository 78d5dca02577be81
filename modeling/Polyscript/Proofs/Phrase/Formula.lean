import Polyscript.Proofs.Phrase.Comparison
import Polyscript.Proofs.Phrase.Lexing
import Polyscript.Proofs.Spelling.Quoting

/-!
# Formulas of JavaScript

JavaScript has no asynchronous results, and a check of one is written as a comparison of its
error with `null`. A formula is an expression of names, texts, checks and operators as it is
written, and it is read with the operators as tight as they are. Every check is read as a
comparison of its own exactly if no operator beside it is as tight as a comparison for equality
on its left, or tighter.

## Main definitions

* `Target.readScript`: how a text is read in JavaScript.
* `Formula`: expressions as JavaScript writes them.
* `Formula.Sheltered`: formulas in which no check stands beside an operator that is too tight.

## Main statement

* `Formula.readScript_checks_iff`: when the comparisons that are read are those of the checks.
-/

namespace Polyscript

open Model (BinaryOp)

/-! ## Reading JavaScript -/

namespace Target

/-- A text with a word in the place of every text between quotes. Given is whether a text between
quotes has been begun, and whether its next character is escaped. -/
def withoutQuoted (t : Target) : Option Bool → List Char → List Char
  | _, [] => []
  | none, c :: rest =>
    if c = '"' then '_' :: t.withoutQuoted (some false) rest else c :: t.withoutQuoted none rest
  | some isEscaped, c :: rest => t.withoutQuoted (t.nextEscaped? isEscaped c) rest

/-- The strict one of the comparisons that bind alike. -/
def strictly (token : String) : String :=
  if token = "==" then "===" else if token = "!=" then "!==" else token

/-- The tokens of a text in JavaScript, all comparisons taken for strict ones. -/
def scriptTokens (text : List Char) : List String :=
  (lexFrom [] (withoutQuoted .javascript none text)).map strictly

/-- Read a text of JavaScript as a phrase, a text between quotes being a word of it. -/
def readScript (text : String) : Option Phrase :=
  (grammar .javascript).read (scriptTokens text.toList)

variable {t : Target} {text rest : List Char}

theorem withoutQuoted_append (noQuote : '"' ∉ text) (rest : List Char) :
    t.withoutQuoted none (text ++ rest) = text ++ t.withoutQuoted none rest := by
  induction text with
  | nil => rfl
  | cons c text ih =>
    rw [List.mem_cons, not_or] at noQuote
    simp [withoutQuoted, Ne.symm noQuote.1, ih noQuote.2]

/-- What stays between quotes is passed over. -/
theorem withoutQuoted_of_sealed {isEscaped : Bool}
    (isSealed : text.foldlM t.nextEscaped? isEscaped = some false) (rest : List Char) :
    t.withoutQuoted (some isEscaped) (text ++ '"' :: rest) = t.withoutQuoted none rest := by
  induction text generalizing isEscaped with
  | nil =>
    obtain rfl : isEscaped = false := Option.some.inj isSealed
    simp [withoutQuoted, nextEscaped?]
  | cons c text ih =>
    rw [List.foldlM_cons] at isSealed
    obtain ⟨next, isNext, isSealed⟩ := Option.bind_eq_some_iff.1 isSealed
    rw [List.cons_append, withoutQuoted, isNext, ih isSealed]

theorem withoutQuoted_quote (t : Target) (value : String) (rest : List Char) :
    t.withoutQuoted none ((t.quote value).toList ++ rest) = '_' :: t.withoutQuoted none rest := by
  have passed := withoutQuoted_of_sealed (t.isSealed_escape value) rest
  simp [quote, withoutQuoted, passed]

theorem endsPhrase_withoutQuoted (ends : EndsPhrase rest) :
    EndsPhrase (t.withoutQuoted none rest) := by
  cases rest with
  | nil => trivial
  | cons c rest => rcases ends with rfl | rfl <;> simp [withoutQuoted, EndsPhrase]

theorem scriptTokens_append {token : List Char} (isToken : IsToken token) (noQuote : '"' ∉ token)
    (ends : EndsBefore token (withoutQuoted .javascript none rest)) :
    scriptTokens (token ++ rest) = strictly (String.ofList token) :: scriptTokens rest := by
  rw [scriptTokens, withoutQuoted_append noQuote, lexFrom_append isToken ends, List.map_cons,
    scriptTokens]

theorem scriptTokens_blank (rest : List Char) :
    scriptTokens (' ' :: rest) = scriptTokens rest := by
  simp [scriptTokens, withoutQuoted, lexFrom_blank]

/-- A token between two blanks is one of its own. -/
theorem scriptTokens_between {token : List Char} (isToken : IsToken token) (noQuote : '"' ∉ token)
    (rest : List Char) :
    scriptTokens (' ' :: (token ++ ' ' :: rest)) =
      strictly (String.ofList token) :: scriptTokens rest := by
  have stops : EndsBefore token (withoutQuoted .javascript none (' ' :: rest)) := .inl rfl
  rw [scriptTokens_blank, scriptTokens_append isToken noQuote stops, scriptTokens_blank]

theorem quote_notMem {word : String} (isName : isWord word) : '"' ∉ word.toList := fun quote => by
  have isWordChar := List.all_eq_true.1 (isRun_of_isWord isName).2 '"' quote
  revert isWordChar
  decide

theorem scriptTokens_word {word : String} (isName : isWord word) (ends : EndsPhrase rest) :
    scriptTokens (word.toList ++ rest) = word :: scriptTokens rest := by
  have isRun := isRun_of_isWord isName
  have isStrict : strictly word = word := by
    have notLoose : word ≠ "==" ∧ word ≠ "!=" := by
      constructor <;> rintro rfl <;> revert isName <;> decide
    simp [strictly, notLoose]
  have stops : EndsBefore word.toList (withoutQuoted .javascript none rest) :=
    (endsPhrase_withoutQuoted ends).of_run isRun
  rw [scriptTokens_append isRun.isToken (quote_notMem isName) stops, String.ofList_toList, isStrict]

theorem scriptTokens_comparison {word : String} {sign : List Char} (isName : isWord word)
    (isToken : IsToken sign) (noQuote : '"' ∉ sign) (ends : EndsPhrase rest) :
    scriptTokens (word.toList ++ ' ' :: (sign ++ ' ' :: ("null".toList ++ rest))) =
      word :: strictly (String.ofList sign) :: "null" :: scriptTokens rest := by
  have blank : EndsPhrase (' ' :: (sign ++ ' ' :: ("null".toList ++ rest))) := .inl rfl
  have isNull : isWord "null" := by decide
  rw [scriptTokens_word isName blank, scriptTokens_between isToken noQuote,
    scriptTokens_word isNull ends]

theorem scriptTokens_quote (value : String) (ends : EndsPhrase rest) :
    scriptTokens ((quote .javascript value).toList ++ rest) = "_" :: scriptTokens rest := by
  have asWord : scriptTokens ((quote .javascript value).toList ++ rest) =
      scriptTokens ("_".toList ++ rest) := by
    rw [scriptTokens, scriptTokens, withoutQuoted_quote]
    rfl
  rw [asWord, scriptTokens_word (by decide) ends]

end Target

/-! ## Formulas -/

/-- A word that is a name in JavaScript. -/
def ScriptName : Type := {word : String // isWord word ∧ word ≠ "null"}

/-- The name that a word is, if it is one. -/
def ScriptName.ofWord? (word : String) : Option ScriptName :=
  if isName : isWord word ∧ word ≠ "null" then some ⟨word, isName⟩ else none

theorem ScriptName.eq_of_ofWord? {word : String} {name : ScriptName}
    (isName : ofWord? word = some name) : name.1 = word := by
  unfold ofWord? at isName
  split at isName
  · rw [← Option.some.inj isName]
  · cases isName

/-- An expression of names, texts, checks and operators as JavaScript writes it. -/
inductive Formula where
  | name (word : ScriptName)
  | quoted (value : String)
  /-- A check by the error of a result: it is a success if there is none. -/
  | check (error : ScriptName) (succeeded : Bool)
  | group (inner : Formula)
  | not (operand : Formula)
  | binary (op : BinaryOp) (lhs rhs : Formula)

namespace Formula

/-- Whether a formula is a check. -/
def isCheck : Formula → Bool
  | .check .. => true
  | _ => false

/-- A formula as the operand of a prefix operator: a check stands in parentheses there. -/
def enclosed : Formula → Formula
  | .check error succeeded => .group (.check error succeeded)
  | f => f

/-- Several formulas with a sign between them. -/
def sum? : List Formula → Option Formula
  | first :: second :: rest => some ((second :: rest).foldl (.binary .add) first)
  | _ => none

/-- The text of a formula. -/
def text : Formula → String
  | .name word => word.1
  | .quoted value => Target.quote .javascript value
  | .check error succeeded => error.1 ++ (if succeeded then " == null" else " != null")
  | .group inner => "(" ++ inner.text ++ ")"
  | .not operand => "!" ++ operand.text
  | .binary op lhs rhs => lhs.text ++ " " ++ Target.token .javascript op ++ " " ++ rhs.text

/-- The phrase of a formula, given what a check is. -/
def phrase (check : String → Bool → Phrase) : Formula → Phrase
  | .name word => .name word.1
  | .quoted _ => .name "_"
  | .check error succeeded => check error.1 succeeded
  | .group inner => .group (inner.phrase check)
  | .not operand => .not (operand.phrase check)
  | .binary op lhs rhs => .binary op (lhs.phrase check) (rhs.phrase check)

/-- Whether parentheses stand wherever Java needs them, where a check is a call. -/
def IsGrouped (f : Formula) : Prop := (f.phrase fun error _ => .name error).Fits .java

instance (f : Formula) : Decidable f.IsGrouped := inferInstanceAs (Decidable (Phrase.Fits _ _))

/-- The comparisons with `null` that the checks of a formula are, from left to right. -/
def checks : Formula → List (String × Bool)
  | .name _ | .quoted _ => []
  | .check error succeeded => [(error.1, succeeded)]
  | .group inner => inner.checks
  | .not operand => operand.checks
  | .binary _ lhs rhs => lhs.checks ++ rhs.checks

/-- Whether nothing beside a check binds more tightly than a level, or as tightly on its left. -/
def Sheltered (level : Nat) : Formula → Prop
  | .name _ | .quoted _ | .check .. => True
  | .group inner => inner.Sheltered level
  | .not operand =>
    (operand.isCheck → Grammar.java.unary ≤ level) ∧ operand.Sheltered level
  | .binary op lhs rhs =>
    (lhs.isCheck → commonLevel op ≤ level) ∧ (rhs.isCheck → commonLevel op < level) ∧
      lhs.Sheltered level ∧ rhs.Sheltered level

/-! ### Sums -/

theorem isCheck_foldl {f : Formula} (noCheck : f.isCheck = false) (fs : List Formula) :
    (fs.foldl (.binary .add) f).isCheck = false := by
  induction fs generalizing f with
  | nil => exact noCheck
  | cons g fs ih => exact ih rfl

theorem isCheck_of_sum? {fs : List Formula} {f : Formula} (isSum : sum? fs = some f) :
    f.isCheck = false := by
  unfold sum? at isSum
  split at isSum
  · obtain rfl := Option.some.inj isSum
    rw [List.foldl_cons]
    exact isCheck_foldl rfl _
  · cases isSum

/-- What stands before a sum stands before its first part. -/
theorem text_foldl {f g : Formula} {front : String} (begins : f.text = front ++ g.text)
    (fs : List Formula) : (fs.foldl (.binary .add) f).text =
      front ++ (fs.foldl (.binary .add) g).text := by
  induction fs generalizing f g with
  | nil => exact begins
  | cons h fs ih =>
    refine ih ?_
    simp only [text, begins, String.append_assoc]

/-! ### How a formula is read -/

variable {f : Formula} {rest : List Char}

/-- What the text of an operand of a prefix operator begins with. -/
theorem head_withoutQuoted_text (isUnary : (f.phrase fun error _ => .name error).rank .java =
    Grammar.java.unary) (rest : List Char) :
    ∃ c others, Target.withoutQuoted .javascript none (f.text.toList ++ rest) = c :: others ∧
      (isWordChar c = true ∨ c = '(' ∨ c = '!') := by
  have run (word : ScriptName) (rest : List Char) : ∃ c others,
      Target.withoutQuoted .javascript none (word.1.toList ++ rest) = c :: others ∧
        (isWordChar c = true ∨ c = '(' ∨ c = '!') := by
    obtain ⟨notNil, words⟩ := isRun_of_isWord word.2.1
    obtain ⟨c, others, isText⟩ := List.exists_cons_of_ne_nil notNil
    rw [isText, List.all_cons, Bool.and_eq_true] at words
    rw [Target.withoutQuoted_append (Target.quote_notMem word.2.1), isText]
    exact ⟨c, _, rfl, .inl words.1⟩
  cases f with
  | name word => exact run word rest
  | quoted value => exact ⟨'_', _, Target.withoutQuoted_quote .javascript value rest, .inl rfl⟩
  | check error succeeded =>
    rw [text, String.toList_append, List.append_assoc]
    exact run error _
  | group inner => exact ⟨'(', _, by simp [text, Target.withoutQuoted]; rfl, .inr (.inl rfl)⟩
  | not operand => exact ⟨'!', _, by simp [text, Target.withoutQuoted]; rfl, .inr (.inr rfl)⟩
  | binary op lhs rhs => exact absurd isUnary (Nat.ne_of_lt (Grammar.java.level_lt op))

/-- The text of a formula has the tokens of the phrase in which every check is a comparison. -/
theorem scriptTokens_text (grouped : f.IsGrouped) (ends : EndsPhrase rest) :
    Target.scriptTokens (f.text.toList ++ rest) =
      (f.phrase .comparison).tokens (Target.token .javascript) ++ Target.scriptTokens rest := by
  have blank (rest : List Char) : EndsPhrase (' ' :: rest) := .inl rfl
  induction f generalizing rest with
  | name word => exact Target.scriptTokens_word word.2.1 ends
  | quoted value => exact Target.scriptTokens_quote value ends
  | check error succeeded =>
    cases succeeded with
    | true =>
      have isSign : IsToken ['=', '='] := by decide
      simpa [text, phrase, Phrase.comparison, Phrase.tokens, Target.strictly, Target.token]
        using Target.scriptTokens_comparison error.2.1 isSign (by decide) ends
    | false =>
      have isSign : IsToken ['!', '='] := by decide
      simpa [text, phrase, Phrase.comparison, Phrase.tokens, Target.strictly, Target.token]
        using Target.scriptTokens_comparison error.2.1 isSign (by decide) ends
  | group inner ih =>
    have closes : EndsPhrase (')' :: rest) := .inr rfl
    have inside := ih grouped closes
    have stops : EndsBefore ['('] (Target.withoutQuoted .javascript none
        (inner.text.toList ++ ')' :: rest)) := by
      cases Target.withoutQuoted .javascript none (inner.text.toList ++ ')' :: rest) with
      | nil => trivial
      | cons c others => exact .inr (goesOn_opening c)
    have first := Target.scriptTokens_append (by decide) (by decide) stops
    have isClosing : IsToken [')'] := by decide
    have last := Target.scriptTokens_append isClosing (by decide)
      ((Target.endsPhrase_withoutQuoted ends).of_sign (by decide))
    rw [inside, List.singleton_append] at first
    rw [List.singleton_append] at last
    rw [last] at first
    simpa [text, phrase, Phrase.tokens, Target.strictly] using first
  | not operand ih =>
    obtain ⟨isUnary, groupedOperand⟩ := grouped
    obtain ⟨c, others, isText, begins⟩ := head_withoutQuoted_text isUnary rest
    have stops : EndsBefore ['!'] (Target.withoutQuoted .javascript none
        (operand.text.toList ++ rest)) := by
      rw [isText]
      exact .inr (goesOn_negation begins)
    have first := Target.scriptTokens_append (by decide) (by decide) stops
    rw [ih groupedOperand ends, List.singleton_append] at first
    simpa [text, phrase, Phrase.tokens, Target.strictly] using first
  | binary op lhs rhs ihl ihr =>
    obtain ⟨_, _, groupedLeft, groupedRight⟩ := grouped
    have isToken := Target.isToken_token .javascript op
    have noQuote : '"' ∉ (Target.token .javascript op).toList := by cases op <;> decide
    have left := ihl groupedLeft (blank ((Target.token .javascript op).toList ++
      ' ' :: (rhs.text.toList ++ rest)))
    rw [Target.scriptTokens_between isToken noQuote, ihr groupedRight ends] at left
    have isStrict : Target.strictly (Target.token .javascript op) =
        Target.token .javascript op := by
      cases op <;> rfl
    simpa [text, phrase, Phrase.tokens, isStrict] using left

/-- A formula is read as the phrase in which its checks are comparisons, if that phrase fits, and
otherwise as another one with its tokens. -/
theorem readScript_text (grouped : f.IsGrouped) {q : Phrase} :
    Target.readScript f.text = some q ↔ q.Fits (Target.grammar .javascript) ∧
      q.tokens (Target.token .javascript) =
        (f.phrase .comparison).tokens (Target.token .javascript) := by
  have ends : EndsPhrase [] := trivial
  have isTokens := scriptTokens_text grouped ends
  have noTokens : Target.scriptTokens [] = [] := rfl
  rw [List.append_nil, noTokens, List.append_nil] at isTokens
  rw [Target.readScript, isTokens]
  exact Grammar.read_eq_some_iff

/-- A text of a formula is read, however its operators are grouped. -/
theorem exists_readScript_text (grouped : f.IsGrouped) :
    ∃ q, Target.readScript f.text = some q := by
  have readable : Readable (Target.grammar .javascript)
      ((f.phrase .comparison).tokens (Target.token .javascript)) := by
    clear grouped
    induction f with
    | name word => exact readable_word word.2.1
    | quoted value => exact readable_word (by decide)
    | check error succeeded =>
      exact (readable_word error.2.1).operator _ (readable_word (by decide))
    | group inner ih => exact ih.group
    | not operand ih => exact ih.not
    | binary op lhs rhs ihl ihr => exact ihl.operator op ihr
  obtain ⟨q, reads⟩ := readable.exists_read
  exact ⟨q, (readScript_text grouped).2 (Grammar.read_eq_some_iff.1 reads)⟩

/-! ### What fits -/

theorem rank_phrase {check : String → Bool → Phrase} {level : Nat}
    (ranked : ∀ error succeeded, (check error succeeded).rank (Target.grammar .javascript) = level)
    (f : Formula) : (f.phrase check).rank (Target.grammar .javascript) =
      if f.isCheck then level else (f.phrase fun error _ => .name error).rank .java := by
  cases f with
  | check error succeeded => exact ranked error.1 succeeded
  | _ => rfl

/-- Whether the phrase of a grouped formula fits JavaScript is decided by how tightly that binds
which checks are. -/
theorem fits_phrase_iff {check : String → Bool → Phrase} {level : Nat}
    (ranked : ∀ error succeeded, (check error succeeded).rank (Target.grammar .javascript) = level)
    (fits : ∀ error succeeded, isWord error →
      (check error succeeded).Fits (Target.grammar .javascript))
    (atMost : level ≤ Grammar.java.unary) (grouped : f.IsGrouped) :
    (f.phrase check).Fits (Target.grammar .javascript) ↔ f.Sheltered level := by
  induction f with
  | name word => exact ⟨fun _ => trivial, fun _ => word.2.1⟩
  | quoted value => exact ⟨fun _ => trivial, fun _ => (by decide : isWord "_")⟩
  | check error succeeded => exact ⟨fun _ => trivial, fun _ => fits error.1 succeeded error.2.1⟩
  | group inner ih => exact ih grouped
  | not operand ih =>
    obtain ⟨isUnary, groupedOperand⟩ := grouped
    refine and_congr ?_ (ih groupedOperand)
    rw [rank_phrase ranked, isUnary]
    cases operand.isCheck with
    | false => exact iff_of_true rfl fun isTrue => by cases isTrue
    | true =>
      exact ⟨fun same _ => Nat.le_of_eq same.symm, fun le => Nat.le_antisymm atMost (le rfl)⟩
  | binary op lhs rhs ihl ihr =>
    obtain ⟨least, tighter, groupedLeft, groupedRight⟩ := grouped
    refine and_congr ?_ (and_congr ?_ (and_congr (ihl groupedLeft) (ihr groupedRight)))
    · rw [rank_phrase ranked]
      cases lhs.isCheck with
      | false => exact iff_of_true least fun isTrue => by cases isTrue
      | true => exact ⟨fun le _ => le, fun le => le rfl⟩
    · rw [rank_phrase ranked]
      cases rhs.isCheck with
      | false => exact iff_of_true tighter fun isTrue => by cases isTrue
      | true => exact ⟨fun lt _ => lt, fun lt => lt rfl⟩

/-- A check that is a word is sheltered everywhere. -/
theorem sheltered_unary (f : Formula) : f.Sheltered Grammar.java.unary := by
  induction f with
  | name | quoted | check => trivial
  | group inner ih => exact ih
  | not operand ih => exact ⟨fun _ => Nat.le_refl _, ih⟩
  | binary op lhs rhs ihl ihr =>
    have lower : commonLevel op < Grammar.java.unary := Grammar.java.level_lt op
    exact ⟨fun _ => Nat.le_of_lt lower, fun _ => lower, ihl, ihr⟩

theorem comparison_fits_iff (grouped : f.IsGrouped) :
    (f.phrase .comparison).Fits (Target.grammar .javascript) ↔
      f.Sheltered (commonLevel .equal) := by
  refine fits_phrase_iff (fun error succeeded => ?_) (fun error succeeded isName => ?_)
    (by decide) grouped
  · cases succeeded <;> rfl
  · have isNull : isWord "null" := by decide
    cases succeeded <;>
      exact ⟨Nat.le_of_lt (Grammar.level_lt _ _), Grammar.level_lt _ _, isName, isNull⟩

/-- With a step for every check a grouped formula fits. -/
theorem fold_fits (grouped : f.IsGrouped) :
    (f.phrase fun error succeeded => .fold (error, succeeded)).Fits
      (Target.grammar .javascript) := by
  refine (fits_phrase_iff (fun error succeeded => ?_) (fun error succeeded isName => ?_)
    (Nat.le_refl _) grouped).2 f.sheltered_unary
  · rfl
  · exact isName

/-! ### What is compared with `null` -/

theorem phrase_comparison_ne_null (f : Formula) : f.phrase .comparison ≠ .name "null" := by
  cases f with
  | name word => exact fun isNull => word.2.2 (Phrase.name.inj isNull)
  | quoted value => simp [phrase]
  | _ => intro isNull; cases isNull

/-- The comparisons with `null` are the checks. -/
theorem folded_phrase (f : Formula) :
    (f.phrase .comparison).folded = f.phrase (fun error succeeded => .fold (error, succeeded)) ∧
      (f.phrase .comparison).comparisons = f.checks := by
  induction f with
  | name | quoted => exact ⟨rfl, rfl⟩
  | check error succeeded => cases succeeded <;> exact ⟨rfl, rfl⟩
  | group inner ih => exact ⟨congrArg Phrase.group ih.1, ih.2⟩
  | not operand ih => exact ⟨congrArg Phrase.not ih.1, ih.2⟩
  | binary op lhs rhs ihl ihr =>
    rcases Phrase.folded_binary op (lhs.phrase .comparison) (rhs.phrase .comparison) with
      ⟨word, isEqual, same, _⟩ | ⟨folded, found⟩
    · exact absurd (Phrase.binary.inj same).2.2 rhs.phrase_comparison_ne_null
    · constructor
      · rw [phrase, folded, ihl.1, ihr.1, phrase]
      · rw [phrase, found, ihl.2, ihr.2, checks]

theorem stepless_phrase (f : Formula) : (f.phrase .comparison).Stepless := by
  have noStep {word : String} (isName : isWord word) : (Phrase.name word).Stepless := by
    have noSign : "++" ≠ word ∧ "--" ≠ word := by
      constructor <;> rintro rfl <;> revert isName <;> decide
    simpa [Phrase.Stepless, Phrase.tokens] using noSign
  induction f with
  | name word => exact noStep word.2.1
  | quoted value => exact noStep (by decide)
  | check error succeeded =>
    exact Phrase.stepless_binary.2 ⟨noStep error.2.1, noStep (by decide)⟩
  | group inner ih => exact Phrase.stepless_group.2 ih
  | not operand ih => exact Phrase.stepless_not.2 ih
  | binary op lhs rhs ihl ihr => exact Phrase.stepless_binary.2 ⟨ihl, ihr⟩

/-- No `null` is left where there is a step for every check. -/
theorem null_notMem_fold (f : Formula) : "null" ∉
    (f.phrase fun error succeeded => .fold (error, succeeded)).tokens
      (Target.token .javascript) := by
  induction f with
  | name word => exact fun isNull => word.2.2 (List.mem_singleton.1 isNull).symm
  | quoted value => simp [phrase, Phrase.tokens]
  | check error succeeded =>
    have noSign (stepping : Stepping) : "null" ≠ stepping.sign := by cases stepping <;> decide
    simp [phrase, Phrase.fold, Phrase.tokens, error.2.2.symm, noSign]
  | group inner ih => simpa [phrase, Phrase.tokens] using ih
  | not operand ih => simpa [phrase, Phrase.tokens] using ih
  | binary op lhs rhs ihl ihr =>
    have noNull : "null" ≠ Target.token .javascript op := by cases op <;> decide
    simp [phrase, Phrase.tokens, ihl, ihr, noNull]

/-- The comparisons that are read in a text are those of the checks exactly if all checks are
sheltered. -/
theorem readScript_checks_iff (grouped : f.IsGrouped) {q : Phrase}
    (reads : Target.readScript f.text = some q) :
    q.comparisons = f.checks ↔ f.Sheltered (commonLevel .equal) := by
  obtain ⟨folded, found⟩ := f.folded_phrase
  constructor
  · intro same
    obtain ⟨fits, isTokens⟩ := (readScript_text grouped).1 reads
    -- the checks being words, the formula fits: so there is no other phrase with its tokens and
    -- as many comparisons
    have isPhrase : q = f.phrase .comparison := by
      refine Phrase.eq_of_tokens_eq ?_ f.stepless_phrase ?_ fits isTokens (by rw [same, found])
      · rw [folded]
        exact fold_fits grouped
      · rw [folded]
        exact f.null_notMem_fold
    exact (comparison_fits_iff grouped).1 (isPhrase ▸ fits)
  · intro sheltered
    have fits := (comparison_fits_iff grouped).2 sheltered
    have isPhrase := (readScript_text grouped).2 ⟨fits, rfl⟩
    rw [Option.some.inj (reads.symm.trans isPhrase), found]

end Formula

end Polyscript
