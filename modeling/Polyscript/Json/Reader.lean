import Polyscript.Json.Lexer

/-!
# Reading JSON

A value is put together from its tokens by a machine with a stack. The stack holds
the arrays and objects that are still open, so a text may nest to any depth; a
limit on nesting is left to the readers of typed data, who apply it only to what
they look at.
-/

namespace Polyscript.Json

/-- Whether characters are a fraction, an exponent or both. -/
def isNumberTail (tail : List Char) : Bool :=
  let exponent (cs : List Char) : Bool := match cs with
    | [] => true
    | c :: cs =>
      let digits := match cs with
        | '+' :: cs => cs
        | '-' :: cs => cs
        | cs => cs
      (c == 'e' || c == 'E') && digits != [] && digits.all Char.isDigit
  match tail with
  | '.' :: cs => cs.takeWhile Char.isDigit != [] && exponent (cs.dropWhile Char.isDigit)
  | cs => exponent cs

/-- Whether characters are a number: an integer without needless zeros, then
possibly a fraction and an exponent. -/
def isNumber (spelling : List Char) : Bool :=
  let cs := match spelling with
    | '-' :: cs => cs
    | cs => cs
  let whole := cs.takeWhile Char.isDigit
  (whole == ['0'] || (whole != [] && whole.head? != some '0')) &&
    isNumberTail (cs.dropWhile Char.isDigit)

/-- The value of a word. -/
def ofWord? (spelling : List Char) : Option Json :=
  if spelling = ['n', 'u', 'l', 'l'] then some .null
  else if spelling = ['t', 'r', 'u', 'e'] then some (.bool true)
  else if spelling = ['f', 'a', 'l', 's', 'e'] then some (.bool false)
  else if isNumber spelling then some (.number (String.ofList spelling))
  else none

/-- An array or object that is still open, with what has been read of it in
reverse. In an object the value of `key` is being read. -/
inductive Frame where
  | array (read : List Json)
  | member (read : List (Written × Json)) (key : Written)

/-- What the reader has and what may come next. -/
inductive Reader where
  /-- A value must come. -/
  | wantValue (outer : List Frame)
  /-- An array has been opened. -/
  | firstItem (outer : List Frame)
  /-- An object has been opened. -/
  | firstKey (outer : List Frame)
  /-- A key must come. -/
  | wantKey (read : List (Written × Json)) (outer : List Frame)
  /-- The colon after a key must come. -/
  | wantColon (read : List (Written × Json)) (key : Written) (outer : List Frame)
  /-- A value has been read. -/
  | complete (value : Json) (outer : List Frame)

namespace Reader

/-- The token with which a value begins. -/
def begin (outer : List Frame) : Token → Option Reader
  | .openArray => some (.firstItem outer)
  | .openObject => some (.firstKey outer)
  | .string value => some (.complete (.string value) outer)
  | .word spelling => (ofWord? spelling).map (.complete · outer)
  | _ => none

/-- Read one token. -/
def accept : Reader → Token → Option Reader
  | .wantValue outer, token => begin outer token
  | .firstItem outer, .closeArray => some (.complete (.array []) outer)
  | .firstItem outer, token => begin (.array [] :: outer) token
  | .firstKey outer, .closeObject => some (.complete (.object []) outer)
  | .firstKey outer, .string key => some (.wantColon [] key outer)
  | .wantKey read outer, .string key => some (.wantColon read key outer)
  | .wantColon read key outer, .colon => some (.wantValue (.member read key :: outer))
  | .complete value (.array read :: outer), .comma => some (.wantValue (.array (value :: read) :: outer))
  | .complete value (.array read :: outer), .closeArray =>
    some (.complete (.array (value :: read).reverse) outer)
  | .complete value (.member read key :: outer), .comma => some (.wantKey ((key, value) :: read) outer)
  | .complete value (.member read key :: outer), .closeObject =>
    some (.complete (.object ((key, value) :: read).reverse) outer)
  | _, _ => none

/-- The value read, if it is complete. -/
def result? : Reader → Option Json
  | .complete value [] => some value
  | _ => none

end Reader

/-- Read one character with both machines. -/
def readChar (state : Lexer × Reader) (c : Char) : Option (Lexer × Reader) := do
  let (lexer, tokens) ← state.1.step c
  return (lexer, ← tokens.foldlM Reader.accept state.2)

/-- The value that a text is, if it is one JSON value between blanks. -/
def ofText? (text : String) : Option Json := do
  let (lexer, reader) ← text.toList.foldlM readChar (.gap, .wantValue [])
  let reader ← (← lexer.finish).foldlM Reader.accept reader
  reader.result?

end Polyscript.Json
