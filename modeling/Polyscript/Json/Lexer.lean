import Polyscript.Json.Value

/-!
# JSON tokens

The lexer is a machine that reads one character at a time: it keeps what it has
read of an unfinished word or string, and gives out a token as soon as the token
is complete. Numbers and the three names are words, told apart later.
-/

namespace Polyscript.Json

/-- The tokens of JSON. A word is a run of characters that are no blanks, quotes or
punctuation. -/
inductive Token where
  | openObject
  | closeObject
  | openArray
  | closeArray
  | colon
  | comma
  | string (value : Written)
  | word (spelling : List Char)

/-- One piece of a string: a character, or the UTF-16 unit of a four-digit escape. -/
inductive Piece where
  | char (c : Char)
  | unit (code : Nat)

/-- The characters that pieces stand for. The units of a surrogate pair stand for
one character; half of a pair stands for none. -/
def Piece.join : List Piece → Option (List Char)
  | [] => some []
  | .char c :: rest => (join rest).map (c :: ·)
  | .unit high :: rest =>
    if high < 0xD800 || 0xDFFF < high then (join rest).map (Char.ofNat high :: ·)
    else if 0xDBFF < high then none
    else match rest with
      | .unit low :: rest =>
        if 0xDC00 ≤ low && low ≤ 0xDFFF then
          (join rest).map (Char.ofNat (0x10000 + (high - 0xD800) * 0x400 + (low - 0xDC00)) :: ·)
        else none
      | _ => none

/-- What the lexer has read of an unfinished token; lists are in reverse. -/
inductive Lexer where
  /-- Between tokens. -/
  | gap
  /-- Inside a word. -/
  | word (read : List Char)
  /-- Inside a string. -/
  | string (read : List Piece) (escaped : Bool)
  /-- After a backslash. -/
  | escape (read : List Piece)
  /-- After a backslash, `u` and the given number of digits, worth `code`. -/
  | unit (read : List Piece) (digits code : Nat)

namespace Lexer

/-- The four blanks of JSON. -/
def isBlank (c : Char) : Bool := c == ' ' || c == '\n' || c == '\t' || c == '\r'

/-- A character that is a token by itself. -/
def punctuation? : Char → Option Token
  | '\x7b' => some .openObject
  | '\x7d' => some .closeObject
  | '[' => some .openArray
  | ']' => some .closeArray
  | ':' => some .colon
  | ',' => some .comma
  | _ => none

/-- The character named by an escape of one letter. -/
def escaped? : Char → Option Char
  | '"' => some '"'
  | '\\' => some '\\'
  | '/' => some '/'
  | 'b' => some '\x08'
  | 'f' => some '\x0c'
  | 'n' => some '\n'
  | 'r' => some '\r'
  | 't' => some '\t'
  | _ => none

/-- The worth of a hexadecimal digit. -/
def hexDigit? (c : Char) : Option Nat :=
  if '0' ≤ c && c ≤ '9' then some (c.toNat - '0'.toNat)
  else if 'a' ≤ c && c ≤ 'f' then some (c.toNat - 'a'.toNat + 10)
  else if 'A' ≤ c && c ≤ 'F' then some (c.toNat - 'A'.toNat + 10)
  else none

/-- Read a character between tokens. -/
def start (c : Char) : Lexer × List Token :=
  if isBlank c then (.gap, [])
  else if c = '"' then (.string [] false, [])
  else match punctuation? c with
    | some token => (.gap, [token])
    | none => (.word [c], [])

/-- Read one character; the tokens that it completes are given out. -/
def step : Lexer → Char → Option (Lexer × List Token)
  | .gap, c => some (start c)
  | .word read, c =>
    match start c with
    | (.word _, _) => some (.word (c :: read), [])
    | (next, tokens) => some (next, .word read.reverse :: tokens)
  | .string read escaped, c =>
    if c = '"' then
      some (.gap, [.string ⟨(Piece.join read.reverse).map String.ofList, escaped⟩])
    else if c = '\\' then some (.escape read, [])
    else if c.toNat < 0x20 then none
    else some (.string (.char c :: read) escaped, [])
  | .escape read, c =>
    if c = 'u' then some (.unit read 0 0, [])
    else (escaped? c).map fun c => (.string (.char c :: read) true, [])
  | .unit read digits code, c => do
    let code := code * 16 + (← hexDigit? c)
    if digits = 3 then some (.string (.unit code :: read) true, [])
    else some (.unit read (digits + 1) code, [])

/-- The tokens completed by the end of the text. -/
def finish : Lexer → Option (List Token)
  | .gap => some []
  | .word read => some [.word read.reverse]
  | _ => none

end Lexer

end Polyscript.Json
