/-!
# Pages

A page takes text and keeps it indented. The indentation of a line is written with
its first character, at the depth in force at that moment; a line without
characters has none. Depth never falls below zero.
-/

namespace Polyscript

/-- Text written so far, with the depth at which further lines begin. -/
structure Page where
  /-- What one level of indentation looks like. -/
  unit : String
  text : String
  depth : Nat
  atLineStart : Bool

namespace Page

/-- An empty page. -/
def blank (unit : String) : Page := ⟨unit, "", 0, true⟩

/-- The indentation at a depth. -/
def indentation (unit : String) (depth : Nat) : String :=
  String.join (List.replicate depth unit)

/-- Write one character. -/
def put (p : Page) (c : Char) : Page :=
  if c = '\n' then { p with text := p.text.push '\n', atLineStart := true }
  else if p.atLineStart then
    { p with
      text := (p.text ++ indentation p.unit p.depth).push c
      atLineStart := false }
  else { p with text := p.text.push c }

/-- Write a text. -/
def write (p : Page) (s : String) : Page := s.toList.foldl put p

/-- Texts written one after another make one text. -/
theorem write_append (p : Page) (s t : String) : p.write (s ++ t) = (p.write s).write t := by
  simp [write, String.toList_append]

/-- Begin further lines one level deeper. -/
def indent (p : Page) : Page := { p with depth := p.depth + 1 }

/-- Begin further lines one level less deep. -/
def unindent (p : Page) : Page := { p with depth := p.depth - 1 }

/-- Whether nothing has been written. -/
def isEmpty (p : Page) : Bool := p.text.isEmpty

/-- The text of a page, and the page started anew. -/
def take (p : Page) : String × Page := (p.text, blank p.unit)

end Page

end Polyscript
