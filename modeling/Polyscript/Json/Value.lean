/-!
# JSON values as they are written

A value keeps what a reader of typed data may have to know about its spelling: a
number keeps its characters, an object keeps its members in order and with
repetitions, and a string keeps whether escapes occur in it.

JSON allows a string to name half of a surrogate pair by an escape. Such a string
is well formed but stands for no text, so `Written.text` is missing for it; a
reader that skips the string need not care.
-/

namespace Polyscript

/-- A string as it stands between its quotes: the text it denotes, missing when an
escape names half of a surrogate pair, and whether escapes are used. -/
structure Written where
  text : Option String
  escaped : Bool
  deriving DecidableEq

/-- A JSON value. -/
inductive Json where
  | null
  | bool (value : Bool)
  | number (spelling : String)
  | string (value : Written)
  | array (items : List Json)
  | object (members : List (Written × Json))

/-- Whether a character cannot stand for itself between quotes. -/
def Written.mustEscape (c : Char) : Bool :=
  c == '"' || c == '\\' || c.toNat < 0x20

/-- The way a text is written: with escapes where they are needed. -/
def Written.ofText (text : String) : Written :=
  ⟨some text, text.toList.any mustEscape⟩

namespace Json

/-- The string value of a text. -/
def text (value : String) : Json := .string (.ofText value)

/-- The number of a natural number. -/
def natural (value : Nat) : Json := .number (toString value)

/-- A member of an object, named by a text. -/
def member (m : String × Json) : Written × Json := (.ofText m.1, m.2)

/-- The object with the given members. -/
def record (members : List (String × Json)) : Json := .object (members.map member)

/-- A value tagged with a name: the object whose only member it is. -/
def tagged (tag : String) (body : Json) : Json := record [(tag, body)]

end Json

end Polyscript
