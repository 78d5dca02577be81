import Polyscript.Target

/-!
# Texts between quotes

How the target languages write a text between double quotes. What would end the
text, begin an interpolation or break the line is written as an escape; Kotlin also
escapes everything beyond printable ASCII, by the units of its UTF-16 form.
-/

namespace Polyscript.Target

/-- An upper-case hexadecimal digit. -/
def hexDigit (value : Nat) : Char :=
  if value < 10 then Char.ofNat ('0'.toNat + value) else Char.ofNat ('A'.toNat + (value - 10))

/-- The escape of a UTF-16 unit. -/
def unitEscape (unit : Nat) : List Char :=
  ['\\', 'u', hexDigit (unit / 0x1000 % 16), hexDigit (unit / 0x100 % 16),
    hexDigit (unit / 0x10 % 16), hexDigit (unit % 16)]

/-- The units of a character's UTF-16 form. -/
def utf16Units (c : Char) : List Nat :=
  if c.toNat < 0x10000 then [c.toNat]
  else [0xD800 + (c.toNat - 0x10000) / 0x400, 0xDC00 + (c.toNat - 0x10000) % 0x400]

/-- The escapes that the languages share. -/
def commonEscape (c : Char) : List Char :=
  match c with
  | '"' => ['\\', '"']
  | '\\' => ['\\', '\\']
  | '\n' => ['\\', 'n']
  | '\r' => ['\\', 'r']
  | '\t' => ['\\', 't']
  | '\x08' => ['\\', 'b']
  | '\x0c' => ['\\', 'f']
  | c => if c.toNat < 0x20 then unitEscape c.toNat else [c]

/-- The characters that stand for one character between quotes. -/
def escapeChar (t : Target) (c : Char) : List Char :=
  match t, c with
  | .groovy, '$' => ['\\', '$']
  | .kotlin, '$' => ['\\', '$']
  | .ruby, '#' => ['\\', '#']
  | .kotlin, '\x0c' => unitEscape 0x0C
  | .kotlin, c => if 126 < c.toNat then (utf16Units c).flatMap unitEscape else commonEscape c
  | _, c => commonEscape c

/-- A text with escapes. -/
def escape (t : Target) (s : String) : String := String.ofList (s.toList.flatMap t.escapeChar)

/-- A text between quotes. -/
def quote (t : Target) (s : String) : String := "\"" ++ t.escape s ++ "\""

end Polyscript.Target
