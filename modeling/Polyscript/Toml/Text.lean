/-!
# Strings of TOML

The four kinds of strings: basic and literal, on one line or on several. Basic
strings know escapes; in those of several lines a backslash at the end of a line
joins it to the next text. Line ends inside a string are read as newlines.

Every reader takes the characters after the opening quotes and gives the string's
characters and the characters after it.
-/

namespace Polyscript.Toml

/-- The two blanks within a line. -/
def isBlank (c : Char) : Bool := c == ' ' || c == '\t'

/-- A character that may stand in a comment: no control character but the tab. -/
def isPlain (c : Char) : Bool := c == '\t' || (0x20 ≤ c.toNat && c.toNat != 0x7F)

/-- What follows the end of a line at the front of a text. -/
def afterNewline? : List Char → Option (List Char)
  | '\n' :: rest => some rest
  | '\r' :: '\n' :: rest => some rest
  | _ => none

/-- The worth of a hexadecimal digit. -/
def hexDigit? (c : Char) : Option Nat :=
  if '0' ≤ c && c ≤ '9' then some (c.toNat - '0'.toNat)
  else if 'a' ≤ c && c ≤ 'f' then some (c.toNat - 'a'.toNat + 10)
  else if 'A' ≤ c && c ≤ 'F' then some (c.toNat - 'A'.toNat + 10)
  else none

/-- The character whose code the digits denote, if it is one. -/
def hexChar? (digits : List Char) : Option Char := do
  let code := (← digits.mapM hexDigit?).foldl (fun n d => n * 16 + d) 0
  if code < 0xD800 || (0xE000 ≤ code && code < 0x110000) then some (Char.ofNat code) else none

/-- The character of an escape at the front of a text, after its backslash. -/
def escape? : List Char → Option (Char × List Char)
  | 'b' :: rest => some ('\x08', rest)
  | 't' :: rest => some ('\t', rest)
  | 'n' :: rest => some ('\n', rest)
  | 'f' :: rest => some ('\x0c', rest)
  | 'r' :: rest => some ('\r', rest)
  | '"' :: rest => some ('"', rest)
  | '\\' :: rest => some ('\\', rest)
  | 'u' :: a :: b :: c :: d :: rest => do return (← hexChar? [a, b, c, d], rest)
  | 'U' :: a :: b :: c :: d :: e :: f :: g :: h :: rest => do
    return (← hexChar? [a, b, c, d, e, f, g, h], rest)
  | _ => none

theorem length_of_escape? {text : List Char} {c : Char} {rest : List Char}
    (read : escape? text = some (c, rest)) : rest.length < text.length := by
  unfold escape? at read
  split at read <;> simp_all [Option.bind_eq_some_iff] <;> grind

/-- The rest of a basic string on one line. -/
def basicString? (text : List Char) : Option (List Char × List Char) :=
  match text with
  | [] => none
  | '"' :: rest => some ([], rest)
  | '\\' :: rest =>
    match _read : escape? rest with
    | none => none
    | some (c, rest) => (basicString? rest).map fun (cs, rest) => (c :: cs, rest)
  | c :: rest =>
    if isPlain c then (basicString? rest).map fun (cs, rest) => (c :: cs, rest) else none
termination_by text.length
decreasing_by
  · have := length_of_escape? _read
    simp only [List.length_cons]
    omega
  · simp

/-- The rest of a literal string on one line. -/
def literalString? : List Char → Option (List Char × List Char)
  | [] => none
  | '\'' :: rest => some ([], rest)
  | c :: rest =>
    if isPlain c then (literalString? rest).map fun (cs, rest) => (c :: cs, rest) else none

/-- Whether a backslash at the front of this text joins two lines: only blanks stand
before the end of the line. -/
def joinsLines (text : List Char) : Bool := (afterNewline? (text.dropWhile isBlank)).isSome

/-- A text without the blanks and ends of lines at its front. -/
def skipLines : List Char → List Char
  | '\n' :: rest => skipLines rest
  | '\r' :: '\n' :: rest => skipLines rest
  | c :: rest => if isBlank c then skipLines rest else c :: rest
  | [] => []

theorem length_skipLines_le (text : List Char) : (skipLines text).length ≤ text.length := by
  fun_induction skipLines text <;> grind

/-- The rest of a basic string of several lines. The quotes at its end may be preceded
by one or two quotes of the string. -/
def basicLines? (text : List Char) : Option (List Char × List Char) :=
  match text with
  | [] => none
  | '"' :: '"' :: '"' :: '"' :: '"' :: rest => some (['"', '"'], rest)
  | '"' :: '"' :: '"' :: '"' :: rest => some (['"'], rest)
  | '"' :: '"' :: '"' :: rest => some ([], rest)
  | '\\' :: rest =>
    if joinsLines rest then basicLines? (skipLines rest)
    else match _read : escape? rest with
      | none => none
      | some (c, rest) => (basicLines? rest).map fun (cs, rest) => (c :: cs, rest)
  | '\r' :: '\n' :: rest => (basicLines? rest).map fun (cs, rest) => ('\n' :: cs, rest)
  | c :: rest =>
    if isPlain c || c == '\n' then (basicLines? rest).map fun (cs, rest) => (c :: cs, rest)
    else none
termination_by text.length
decreasing_by
  · have := length_skipLines_le rest
    simp only [List.length_cons]
    omega
  · have := length_of_escape? _read
    simp only [List.length_cons]
    omega
  · simp only [List.length_cons]
    omega
  · simp

/-- The rest of a literal string of several lines. -/
def literalLines? : List Char → Option (List Char × List Char)
  | [] => none
  | '\'' :: '\'' :: '\'' :: '\'' :: '\'' :: rest => some (['\'', '\''], rest)
  | '\'' :: '\'' :: '\'' :: '\'' :: rest => some (['\''], rest)
  | '\'' :: '\'' :: '\'' :: rest => some ([], rest)
  | '\r' :: '\n' :: rest => (literalLines? rest).map fun (cs, rest) => ('\n' :: cs, rest)
  | c :: rest =>
    if isPlain c || c == '\n' then (literalLines? rest).map fun (cs, rest) => (c :: cs, rest)
    else none

/-- A text without an end of line at its very front. -/
def dropNewline (text : List Char) : List Char := (afterNewline? text).getD text

/-- A string of any kind at the front of a text. -/
def string? (text : List Char) : Option (String × List Char) :=
  let read := match text with
    | '"' :: '"' :: '"' :: rest => basicLines? (dropNewline rest)
    | '"' :: rest => basicString? rest
    | '\'' :: '\'' :: '\'' :: rest => literalLines? (dropNewline rest)
    | '\'' :: rest => literalString? rest
    | _ => none
  read.map fun (cs, rest) => (String.ofList cs, rest)

end Polyscript.Toml
