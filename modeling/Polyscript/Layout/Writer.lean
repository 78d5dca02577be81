import Polyscript.Layout.Draft

/-!
# Writers

A writer is a page together with the number of structured literals that are open on it.
Kotlin builds structured objects and arrays in a `json` block: the writer opens the block
when a literal begins while no other one is open, and closes it when that literal ends.

Taking the text of a writer starts its page anew and leaves the count as it is.
-/

namespace Polyscript

/-- A page, and how many structured literals are open on it. -/
structure Writer where
  page : Page
  jsonLevel : Nat

namespace Writer

/-- A writer that has written nothing. -/
def new (unit : String) : Writer := ⟨.blank unit, 0⟩

/-- Begin a structured literal. -/
def enterJson (w : Writer) : Writer where
  page := if w.jsonLevel = 0 then (w.page.write "json \x7b\n").indent else w.page
  jsonLevel := w.jsonLevel + 1

/-- End a structured literal. -/
def leaveJson (w : Writer) : Writer where
  page := if w.jsonLevel - 1 = 0 then w.page.unindent.write "\n\x7d" else w.page
  jsonLevel := w.jsonLevel - 1

/-- Do one thing. -/
def follow (w : Writer) : Mark → Writer
  | .enterJson => w.enterJson
  | .leaveJson => w.leaveJson
  | mark => { w with page := w.page.follow mark }

/-- The text that has been written, and the writer with its page started anew. -/
def take (w : Writer) : String × Writer := (w.page.take.1, { w with page := w.page.take.2 })

end Writer

/-- Carry out a draft with a writer. -/
def Draft.writtenBy (d : Draft) (w : Writer) : Writer := d.marks.foldl Writer.follow w

/-- An unbroken draft is written before the one that follows it. -/
theorem Draft.writtenBy_append {first : Draft} (unbroken : first.fault = none) (second : Draft)
    (w : Writer) : (first ++ second).writtenBy w = second.writtenBy (first.writtenBy w) := by
  rw [append_of_unbroken unbroken]
  exact List.foldl_append

theorem Draft.writtenBy_closedBy (d : Draft) (marks : List Mark) (w : Writer) :
    (d.closedBy marks).writtenBy w = marks.foldl Writer.follow (d.writtenBy w) :=
  List.foldl_append

end Polyscript
