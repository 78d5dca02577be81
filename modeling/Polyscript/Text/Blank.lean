/-!
# Blanks and lines

The characters of the Unicode property `White_Space`, the text between the blanks
at both ends of a line, and the lines of a text.
-/

namespace Polyscript.Text

/-- The characters of the Unicode property `White_Space`. -/
def isBlank (c : Char) : Bool :=
  let code := c.toNat
  (0x09 ≤ code && code ≤ 0x0D) || code == 0x20 || code == 0x85 || code == 0xA0 ||
    code == 0x1680 || (0x2000 ≤ code && code ≤ 0x200A) || code == 0x2028 || code == 0x2029 ||
    code == 0x202F || code == 0x205F || code == 0x3000

/-- A text without the blanks at its two ends. -/
def trim (text : List Char) : List Char :=
  ((text.dropWhile isBlank).reverse.dropWhile isBlank).reverse

/-- The lines of a text. A line ends at a newline or at the end of the text; the
empty line after a final newline is none. -/
def lines : List Char → List (List Char)
  | [] => []
  | '\n' :: rest => [] :: lines rest
  | c :: rest =>
    match lines rest with
    | [] => [[c]]
    | line :: below => (c :: line) :: below

/-- No line has an end of line in it. -/
theorem newline_notMem_of_mem_lines {text line : List Char} (h : line ∈ lines text) :
    '\n' ∉ line := by
  fun_induction lines text generalizing line with
  | case1 => simp at h
  | case2 rest ih =>
    rcases List.mem_cons.1 h with rfl | h
    · simp
    · exact ih h
  | case3 c rest notNewline none ih =>
    obtain rfl := List.mem_singleton.1 h
    simpa using fun eq => notNewline eq.symm
  | case4 c rest notNewline first below some ih =>
    rw [some] at ih
    rcases List.mem_cons.1 h with rfl | h
    · have := ih (List.mem_cons_self ..)
      simp [this]
      exact fun eq => notNewline eq.symm
    · exact ih (List.mem_cons_of_mem _ h)

end Polyscript.Text
