import Polyscript.Toml.Table
import Polyscript.Toml.Text

/-!
# Reading TOML

A reader takes the characters of a text from some place on and gives what it has
read with the characters after it. Readers that repeat take fuel, of which there is
more than there are characters; arrays and inline tables nest to a limited depth.
-/

namespace Polyscript.Toml

/-- The number of arrays and inline tables inside each other at which reading fails. -/
def depthLimit : Nat := 80

/-- Whether a text begins with given characters; the rest of it. -/
def after? (expected : List Char) (text : List Char) : Option (List Char) :=
  if expected.isPrefixOf text then some (text.drop expected.length) else none

/-- A text without the blanks at its front. -/
def skipBlanks (text : List Char) : List Char := text.dropWhile isBlank

/-- A text without the comment at its front, if one begins there. -/
def skipComment : List Char → List Char
  | '#' :: rest => rest.dropWhile isPlain
  | text => text

/-- What follows a line of which only blanks and a comment are left. -/
def afterLine? (text : List Char) : Option (List Char) :=
  match skipComment (skipBlanks text) with
  | [] => some []
  | rest => afterNewline? rest

/-- A text without the blanks, comments and ends of lines at its front. A comment must
end with its line. -/
def skipGap (fuel : Nat) (text : List Char) : Option (List Char) :=
  match fuel with
  | 0 => none
  | fuel + 1 =>
    match skipBlanks text with
    | '#' :: rest => do skipGap fuel (← afterNewline? (rest.dropWhile isPlain))
    | '\n' :: rest => skipGap fuel rest
    | '\r' :: rest => do skipGap fuel (← afterNewline? ('\r' :: rest))
    | rest => some rest

/-- A character of a key without quotes. -/
def isKeyChar (c : Char) : Bool := c.isAlphanum || c == '-' || c == '_'

/-- One part of a key. -/
def keyPart? (text : List Char) : Option (String × List Char) :=
  match text with
  | '"' :: rest => (basicString? rest).map fun (cs, rest) => (String.ofList cs, rest)
  | '\'' :: rest => (literalString? rest).map fun (cs, rest) => (String.ofList cs, rest)
  | text =>
    match text.takeWhile isKeyChar with
    | [] => none
    | cs => some (String.ofList cs, text.dropWhile isKeyChar)

/-- A key: parts with points between them, and blanks around the parts. -/
def keyParts? (fuel : Nat) (text : List Char) : Option (List String × List Char) :=
  match fuel with
  | 0 => none
  | fuel + 1 => do
    let (part, rest) ← keyPart? (skipBlanks text)
    match skipBlanks rest with
    | '.' :: rest =>
      let (parts, rest) ← keyParts? fuel rest
      return (part :: parts, rest)
    | rest => return ([part], rest)

/-- A key, as the parts on the way and the last part. -/
def key? (text : List Char) : Option (List String × String × List Char) := do
  let (parts, rest) ← keyParts? (text.length + 1) text
  if depthLimit ≤ parts.length then none
  else return (parts.dropLast, ← parts.getLast?, rest)

/-- Digits of which single underscores may separate any two. -/
def digitRun (isDigit : Char → Bool) : List Char → List Char × List Char
  | '_' :: c :: rest =>
    if isDigit c then
      let (digits, rest) := digitRun isDigit rest
      (c :: digits, rest)
    else ([], '_' :: c :: rest)
  | c :: rest =>
    if isDigit c then
      let (digits, rest) := digitRun isDigit rest
      (c :: digits, rest)
    else ([], c :: rest)
  | [] => ([], [])

/-- Digits that begin with a digit, with single underscores between them. -/
def digits? (isDigit : Char → Bool) : List Char → Option (List Char × List Char)
  | c :: rest => if isDigit c then some (digitRun isDigit (c :: rest)) else none
  | [] => none

/-- The value of digits in a base. -/
def numeral (base : Nat) (digits : List Char) : Nat :=
  digits.foldl (fun n c => n * base + (hexDigit? c).getD 0) 0

/-- The digits of a decimal integer without needless zeros. -/
def wholeDigits? (text : List Char) : Option (List Char × List Char) :=
  match text with
  | '0' :: rest => some (['0'], rest)
  | text => digits? Char.isDigit text

/-- A sign at the front of a text: whether it is a minus, and the rest. -/
def sign : List Char → Bool × List Char
  | '-' :: rest => (true, rest)
  | '+' :: rest => (false, rest)
  | text => (false, text)

/-- Whether `digits` times a power of ten is too large for a double. -/
def overflows (digits : List Char) (negativeExponent : Bool) (exponent : Nat) : Bool :=
  let mantissa := numeral 10 digits
  let size := (digits.dropWhile (· == '0')).length
  let least := Nat.pow 2 1024 - Nat.pow 2 970
  if mantissa = 0 then false
  else if negativeExponent then
    if size ≤ 308 + exponent then false
    else if 310 + exponent < size then true
    else least * Nat.pow 10 exponent ≤ mantissa
  else
    if size + exponent ≤ 308 then false
    else if 310 < size + exponent then true
    else least ≤ mantissa * Nat.pow 10 exponent

/-- The fraction at the front of a text, possibly none. -/
def fraction? : List Char → Option (List Char × List Char)
  | '.' :: rest => digits? Char.isDigit rest
  | rest => some ([], rest)

/-- The exponent at the front of a text, possibly none: whether it is negative, and
its size. -/
def exponent? : List Char → Option (Bool × Nat × List Char)
  | 'e' :: rest | 'E' :: rest => do
    let (negative, rest) := sign rest
    let (digits, rest) ← digits? Char.isDigit rest
    return (negative, numeral 10 digits, rest)
  | rest => some (false, 0, rest)

/-- Integers are smaller than this bound and no smaller than its negative: they have 64
bits, of which one is the sign. -/
def integerBound : Nat := 9223372036854775808

/-- A decimal number, or one of the names for what is no number. -/
def decimal? (text : List Char) : Option (List Char) := do
  let (negative, unsigned) := sign text
  if let some rest := (after? ['i', 'n', 'f'] unsigned).or (after? ['n', 'a', 'n'] unsigned) then
    return rest
  let (whole, rest) ← wholeDigits? unsigned
  match rest with
  | '.' :: _ | 'e' :: _ | 'E' :: _ =>
    let (places, rest) ← fraction? rest
    let (negativeExponent, exponent, rest) ← exponent? rest
    let shift : Int := (if negativeExponent then -(exponent : Int) else exponent) - places.length
    if !negative && overflows (whole ++ places) (shift < 0) shift.natAbs then none
    else return rest
  | rest =>
    let value := numeral 10 whole
    if value < integerBound || (negative && value = integerBound) then return rest else none

/-- An integer in another base than ten. -/
def based? (base : Nat) (isDigit : Char → Bool) (text : List Char) : Option (List Char) := do
  let (digits, rest) ← digits? isDigit text
  if numeral base digits < integerBound then return rest else none

/-- A number. -/
def number? (text : List Char) : Option (List Char) :=
  match text with
  | '0' :: 'x' :: rest => based? 16 (fun c => (hexDigit? c).isSome) rest
  | '0' :: 'o' :: rest => based? 8 (fun c => '0' ≤ c && c ≤ '7') rest
  | '0' :: 'b' :: rest => based? 2 (fun c => c == '0' || c == '1') rest
  | text => decimal? text

/-- A number of exactly `count` digits. -/
def field? (count : Nat) (text : List Char) : Option (Nat × List Char) :=
  let digits := text.take count
  if digits.length = count && digits.all Char.isDigit then
    some (numeral 10 digits, text.drop count)
  else none

/-- The number of days of a month. -/
def daysOf (year month : Nat) : Nat :=
  if month = 2 then
    if year % 4 = 0 && (year % 100 != 0 || year % 400 = 0) then 29 else 28
  else if month = 4 || month = 6 || month = 9 || month = 11 then 30
  else 31

/-- A date. -/
def date? (text : List Char) : Option (List Char) := do
  let (year, rest) ← field? 4 text
  let (month, rest) ← field? 2 (← after? ['-'] rest)
  let (day, rest) ← field? 2 (← after? ['-'] rest)
  if 1 ≤ month && month ≤ 12 && 1 ≤ day && day ≤ daysOf year month then return rest else none

/-- The hours and minutes of a time. -/
def clock? (text : List Char) : Option (List Char) := do
  let (hour, rest) ← field? 2 text
  let (minute, rest) ← field? 2 (← after? [':'] rest)
  if hour ≤ 23 && minute ≤ 59 then return rest else none

/-- A time of day. -/
def time? (text : List Char) : Option (List Char) := do
  let (second, rest) ← field? 2 (← after? [':'] (← clock? text))
  if 60 < second then none
  else match rest with
    | '.' :: rest =>
      if (rest.takeWhile Char.isDigit).isEmpty then none else return rest.dropWhile Char.isDigit
    | rest => return rest

/-- The distance from universal time, possibly none. -/
def zone? : List Char → Option (List Char)
  | 'Z' :: rest | 'z' :: rest => some rest
  | '+' :: rest | '-' :: rest => clock? rest
  | rest => some rest

/-- Whether a text begins with a number of a number of digits and a given sign. -/
def beginsField (count : Nat) (sign : Char) (text : List Char) : Bool :=
  ((field? count text).bind fun (_, rest) => after? [sign] rest).isSome

/-- A date, a time, or both. A blank between them counts only if a time follows. -/
def moment? (text : List Char) : Option (List Char) :=
  match date? text with
  | none => time? text
  | some (c :: rest) =>
    if c == 'T' || c == 't' || (c == ' ' && beginsField 2 ':' rest) then do zone? (← time? rest)
    else some (c :: rest)
  | some [] => some []

/-- Whether a text begins as a date or time does and a number does not. -/
def looksLikeMoment (text : List Char) : Bool :=
  beginsField 4 '-' text || beginsField 2 ':' text

mutual

/-- A value, with the room for arrays and inline tables inside each other. -/
def value? (fuel room : Nat) (text : List Char) : Option (Value × List Char) :=
  match fuel with
  | 0 => none
  | fuel + 1 =>
    match text with
    | '"' :: _ | '\'' :: _ => (string? text).map fun (s, rest) => (.string s, rest)
    | '[' :: rest =>
      match room with
      | 0 => none
      | room + 1 => (items? fuel room rest).map fun (items, rest) => (.array items, rest)
    | '\x7b' :: rest =>
      match room with
      | 0 => none
      | room + 1 =>
        match skipBlanks rest with
        | '\x7d' :: rest => some (.table .inline [], rest)
        | _ => (pairs? fuel room [] rest).map fun (entries, rest) => (.table .inline entries, rest)
    | 't' :: _ => (after? ['t', 'r', 'u', 'e'] text).map fun rest => (.boolean true, rest)
    | 'f' :: _ => (after? ['f', 'a', 'l', 's', 'e'] text).map fun rest => (.boolean false, rest)
    | text =>
      if looksLikeMoment text then (moment? text).map fun rest => (.moment, rest)
      else (number? text).map fun rest => (.number, rest)

/-- The items of an array up to its closing bracket. -/
def items? (fuel room : Nat) (text : List Char) : Option (List Value × List Char) :=
  match fuel with
  | 0 => none
  | fuel + 1 => do
    match ← skipGap (text.length + 1) text with
    | ']' :: rest => return ([], rest)
    | text =>
      let (item, rest) ← value? fuel room text
      match ← skipGap (rest.length + 1) rest with
      | ']' :: rest => return ([item], rest)
      | ',' :: rest =>
        let (items, rest) ← items? fuel room rest
        return (item :: items, rest)
      | _ => none

/-- The pairs of an inline table up to its closing brace, entered into it in order. -/
def pairs? (fuel room : Nat) (entries : Entries) (text : List Char) :
    Option (Entries × List Char) :=
  match fuel with
  | 0 => none
  | fuel + 1 => do
    let (way, key, rest) ← key? text
    let (value, rest) ← value? fuel room (skipBlanks (← after? ['='] rest))
    let entries ← enterDotted way key value entries
    match skipBlanks rest with
    | '\x7d' :: rest => return (entries, rest)
    | ',' :: rest => pairs? fuel room entries rest
    | _ => none

end

/-- The lines of a document, read into it one by one. -/
def readLines (fuel : Nat) (d : Document) (text : List Char) : Option Document :=
  match fuel with
  | 0 => none
  | fuel + 1 =>
    match skipBlanks text with
    | [] => some d
    | '#' :: rest => do readLines fuel d (← afterLine? ('#' :: rest))
    | '\n' :: rest => readLines fuel d rest
    | '\r' :: rest => do readLines fuel d (← afterNewline? ('\r' :: rest))
    | '[' :: '[' :: rest => do
      let (way, key, rest) ← key? rest
      let rest ← afterLine? (← after? [']', ']'] rest)
      readLines fuel (← d.beginItem (way ++ [key])) rest
    | '[' :: rest => do
      let (way, key, rest) ← key? rest
      let rest ← afterLine? (← after? [']'] rest)
      readLines fuel (← d.beginTable (way ++ [key])) rest
    | text => do
      let (way, key, rest) ← key? text
      let rest := skipBlanks (← after? ['='] rest)
      let (value, rest) ← value? (3 * rest.length + 3) (depthLimit - 1) rest
      readLines fuel (← d.enter way key value) (← afterLine? rest)

/-- The table that a text holds. A byte order mark at its front counts for nothing. -/
def ofText? (text : String) : Option Value := do
  let text := match text.toList with
    | '\ufeff' :: rest => rest
    | text => text
  let d ← readLines (text.length + 1) {} text
  return .table .header (← d.complete)

end Polyscript.Toml
