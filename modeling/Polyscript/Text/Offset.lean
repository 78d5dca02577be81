/-!
# Places in a text

A place in a text is the number of bytes before it in the text's UTF-8 form. A cut
between two places is possible only where both fall between two characters.
-/

namespace Polyscript.Text

/-- The text's first `n` bytes and the rest, if the place `n` falls between two
characters or at an end of the text. -/
def splitAt? : Nat → List Char → Option (List Char × List Char)
  | 0, text => some ([], text)
  | _ + 1, [] => none
  | n + 1, c :: rest =>
    if c.utf8Size ≤ n + 1 then
      (splitAt? (n + 1 - c.utf8Size) rest).map fun (front, back) => (c :: front, back)
    else none

/-- Nothing is lost in a cut. -/
theorem append_of_splitAt? {n : Nat} {text front back : List Char}
    (cut : splitAt? n text = some (front, back)) : front ++ back = text := by
  fun_induction splitAt? n text generalizing front with
  | case1 => simp_all
  | case2 => simp at cut
  | case3 n c rest fits ih =>
    obtain ⟨⟨front', back'⟩, tail, same⟩ := Option.map_eq_some_iff.1 cut
    obtain ⟨rfl, rfl⟩ := Prod.mk.inj same
    simp [ih tail]
  | case4 => simp at cut

/-- The front of a cut has as many bytes as the place says. -/
theorem utf8ByteSize_of_splitAt? {n : Nat} {text front back : List Char}
    (cut : splitAt? n text = some (front, back)) : (String.ofList front).utf8ByteSize = n := by
  fun_induction splitAt? n text generalizing front with
  | case1 => simp_all
  | case2 => simp at cut
  | case3 n c rest fits ih =>
    obtain ⟨⟨front', back'⟩, tail, same⟩ := Option.map_eq_some_iff.1 cut
    obtain ⟨rfl, rfl⟩ := Prod.mk.inj same
    rw [String.ofList_cons, String.utf8ByteSize_append, String.utf8ByteSize_singleton, ih tail]
    omega
  | case4 => simp at cut

/-- The text between two places. -/
def cut? (text : List Char) (start stop : Nat) : Option (List Char) :=
  if start ≤ stop then do
    let (_, back) ← splitAt? start text
    let (middle, _) ← splitAt? (stop - start) back
    return middle
  else none

/-- The bytes of a text. -/
def bytes (text : String) : Array UInt8 := text.toUTF8.data

/-- The byte of a line's end. -/
def newline : UInt8 := 10

/-- The byte of an opening brace. -/
def openBrace : UInt8 := 123

/-- Whether a line starts at a place. -/
def startsLine (text : Array UInt8) (place : Nat) : Bool :=
  place == 0 || text[place - 1]? == some newline

/-- The first place from `place` on at which a line starts, but none after `limit`. -/
def lineFrom (text : Array UInt8) (limit place : Nat) : Nat :=
  if place < limit then
    if startsLine text place then place else lineFrom text limit (place + 1)
  else place
termination_by limit - place

/-- The last place up to `place` at which a line starts, but none before `floor`. -/
def lineUpTo (text : Array UInt8) (floor : Nat) : Nat → Nat
  | 0 => 0
  | place + 1 =>
    if floor < place + 1 && !startsLine text (place + 1) then lineUpTo text floor place
    else place + 1

end Polyscript.Text
