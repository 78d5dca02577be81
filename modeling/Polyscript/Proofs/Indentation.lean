import Polyscript.Model.Draft
import Polyscript.Proofs.Layout.Deletion
import Polyscript.Proofs.Text.Lines

/-!
# Indentation

What a program is written as depends on the indentation only at the beginnings of lines. A sheet
takes texts like a page and keeps its lines without indentation, each with the depth at which it
was begun; it knows nothing of what one level of indentation looks like. Whatever is done to a page
and to a sheet, the page has the lines of the sheet with their indentation put in.

## Main definitions

* `Layout.Line`, `Layout.Line.indented`: lines, and what they are on a page.
* `Sheet`, `Page.Fills`: sheets, and the pages that have the lines of a sheet.

## Main statements

* `Model.Unit.render_indented`: the lines of a program and their depths are the same for every
  indentation, and so is the cause for which it is rejected.
-/

namespace Polyscript

namespace Layout

/-- A line without its indentation, and the depth of the indentation. A line without characters
has none. -/
structure Line where
  depth : Nat
  content : List Char
  unbroken : '\n' ∉ content
  depth_eq_zero : content = [] → depth = 0

namespace Line

/-- A line in which nothing is written. -/
def blank : Line := ⟨0, [], List.not_mem_nil, fun _ => rfl⟩

/-- A line with one more character; the first one sets the depth. -/
def put (l : Line) (depth : Nat) (c : Char) (noNewline : c ≠ '\n') : Line where
  depth := if l.content = [] then depth else l.depth
  content := l.content ++ [c]
  unbroken := by simp [l.unbroken, noNewline.symm]
  depth_eq_zero isEmpty := absurd isEmpty (List.append_ne_nil_of_right_ne_nil _ (by simp))

/-- A line with its indentation: as many copies of the unit as the depth says. -/
def indented (unit : String) (l : Line) : List Char :=
  (List.replicate l.depth unit.toList).flatten ++ l.content

variable {unit : String}

theorem indented_blank : blank.indented unit = [] := rfl

theorem indented_eq_nil_iff {l : Line} : l.indented unit = [] ↔ l.content = [] := by
  refine ⟨fun isEmpty => (List.append_eq_nil_iff.1 isEmpty).2, fun isEmpty => ?_⟩
  rw [indented, isEmpty, l.depth_eq_zero isEmpty]
  rfl

theorem newline_notMem_indented (unbroken : '\n' ∉ unit.toList) (l : Line) :
    '\n' ∉ l.indented unit := by
  simp [indented, unbroken, l.unbroken]

/-- The first character of a line is written behind the indentation. -/
theorem indented_put (l : Line) (depth : Nat) (c : Char) (noNewline : c ≠ '\n') :
    (l.put depth c noNewline).indented unit =
      (if l.content = [] then (Page.indentation unit depth).toList else l.indented unit) ++
        [c] := by
  by_cases isEmpty : l.content = []
  · simp [indented, put, isEmpty, Page.toList_indentation, copies]
  · simp [indented, put, isEmpty]

end Line

/-- Lines that have ended, and a last one, read as the lines of a text. -/
theorem splitOn_ended {lines : List (List Char)} {last : List Char}
    (unbroken : ∀ line ∈ lines, '\n' ∉ line) (noNewline : '\n' ∉ last) :
    (ended lines ++ last).splitOn '\n' = lines ++ [last] := by
  rw [ended, ← Text.intercalate_newline]
  refine List.splitOn_intercalate '\n' ?_ (by simp)
  exact List.forall_mem_append.2 ⟨unbroken, List.forall_mem_singleton.2 noNewline⟩

end Layout

open Layout

/-- The lines of a text, not indented yet, and the depth at which further lines begin. -/
structure Sheet where
  ended : List Line
  last : Line
  depth : Nat

namespace Sheet

/-- An empty sheet. -/
def blank : Sheet := ⟨[], .blank, 0⟩

/-- The lines of a sheet. -/
def lines (s : Sheet) : List Line := s.ended ++ [s.last]

/-- Write one character. -/
def put (s : Sheet) (c : Char) : Sheet :=
  if isNewline : c = '\n' then { s with ended := s.ended ++ [s.last], last := .blank }
  else { s with last := s.last.put s.depth c isNewline }

/-- Write a text. -/
def write (s : Sheet) (text : String) : Sheet := text.toList.foldl put s

/-- Whether nothing has been written. -/
def isEmpty (s : Sheet) : Bool := s.ended.isEmpty && s.last.content.isEmpty

/-- Do one thing to a sheet. -/
def follow (s : Sheet) : Mark → Sheet
  | .text text => s.write text
  | .indent => { s with depth := s.depth + 1 }
  | .unindent => { s with depth := s.depth - 1 }
  | .gap => if s.isEmpty then s else s.write "\n"
  | .enterJson | .leaveJson => s

end Sheet

/-- Carry a draft out on a sheet. -/
def Draft.onSheet (d : Draft) (s : Sheet) : Sheet := d.marks.foldl Sheet.follow s

namespace Page

/-- A page with the lines of a sheet. -/
structure Fills (p : Page) (s : Sheet) : Prop where
  text : p.text.toList = ended (s.ended.map (·.indented p.unit)) ++ s.last.indented p.unit
  depth : p.depth = s.depth
  atLineStart : p.atLineStart = true ↔ s.last.content = []

variable {p : Page} {s : Sheet}

theorem blank_fills (unit : String) : (blank unit).Fills .blank :=
  ⟨rfl, rfl, iff_of_true rfl rfl⟩

theorem Fills.put (h : p.Fills s) (c : Char) : (p.put c).Fills (s.put c) := by
  unfold Page.put Sheet.put
  by_cases isNewline : c = '\n'
  · rw [if_pos isNewline, dif_pos isNewline]
    refine ⟨?_, h.depth, iff_of_true rfl rfl⟩
    simp [h.text, ended_append_singleton, Line.indented_blank]
  · rw [if_neg isNewline, dif_neg isNewline]
    have begun : (s.last.put s.depth c isNewline).content ≠ [] := by simp [Line.put]
    by_cases starts : p.atLineStart = true
    · -- so far the last line is empty, and its indentation comes now
      rw [if_pos starts]
      have isEmpty := h.atLineStart.1 starts
      refine ⟨?_, h.depth, iff_of_false Bool.false_ne_true begun⟩
      simp [h.text, h.depth, Line.indented_put, isEmpty, Line.indented_eq_nil_iff.2 isEmpty]
    · rw [if_neg starts]
      have nonempty := mt h.atLineStart.2 starts
      refine ⟨?_, h.depth, iff_of_false starts begun⟩
      simp [h.text, Line.indented_put, nonempty]

theorem Fills.write (h : p.Fills s) (text : String) : (p.write text).Fills (s.write text) := by
  unfold Page.write Sheet.write
  induction text.toList generalizing p s with
  | nil => exact h
  | cons c rest ih => exact ih (h.put c)

theorem Fills.isEmpty (h : p.Fills s) : p.isEmpty = s.isEmpty := by
  rw [Bool.eq_iff_iff, Page.isEmpty, String.isEmpty_iff, ← String.toList_eq_nil_iff, h.text,
    Sheet.isEmpty]
  cases s.ended with
  | nil => simp [Layout.ended, Line.indented_eq_nil_iff]
  | cons line rest => simp [Layout.ended]

/-- Whatever is done to a page and to a sheet, the page keeps to the lines of the sheet. -/
theorem Fills.follow (h : p.Fills s) (m : Mark) : (p.follow m).Fills (s.follow m) := by
  cases m with
  | text text => exact h.write text
  | indent => exact ⟨h.text, congrArg (· + 1) h.depth, h.atLineStart⟩
  | unindent => exact ⟨h.text, congrArg (· - 1) h.depth, h.atLineStart⟩
  | gap =>
    rw [Page.follow, Sheet.follow, h.isEmpty]
    split
    · exact h
    · exact h.write "\n"
  | enterJson | leaveJson => exact h

theorem Fills.on (h : p.Fills s) (d : Draft) : (d.on p).Fills (d.onSheet s) := by
  unfold Draft.on Draft.onSheet
  induction d.marks generalizing p s with
  | nil => exact h
  | cons m rest ih => exact ih (h.follow m)

/-- The lines of a page are those of the sheet, each behind its indentation. -/
theorem Fills.splitOn (h : p.Fills s) (unbroken : '\n' ∉ p.unit.toList) :
    p.text.toList.splitOn '\n' = s.lines.map (·.indented p.unit) := by
  rw [h.text, Sheet.lines, List.map_append]
  refine splitOn_ended (List.forall_mem_map.2 fun line _ => ?_) ?_
  · exact line.newline_notMem_indented unbroken
  · exact s.last.newline_notMem_indented unbroken

end Page

/-- A program is rejected with one cause for every indentation, or its text has the same lines at
the same depths for every indentation: each line is as many copies of the unit as its depth says,
and its content behind them. A line without content has depth 0 (`Line.depth_eq_zero`). -/
theorem Model.Unit.render_indented (t : Target) (unit : Model.Unit) :
    (∃ fault, ∀ indent, unit.render t indent = .error fault) ∨
    ∃ lines : List Line, ∀ indent : String, '\n' ∉ indent.toList →
      ∃ text, unit.render t indent = .ok text ∧
        text.toList.splitOn '\n' = lines.map (·.indented indent) := by
  cases broken : (unit.draft t).fault with
  | some fault =>
    refine .inl ⟨fault, fun indent => ?_⟩
    rw [Model.Unit.render, broken]
  | none =>
    refine .inr ⟨((unit.draft t).onSheet .blank).lines, fun indent unbroken => ?_⟩
    refine ⟨((unit.draft t).on (.blank indent)).text, ?_, ?_⟩
    · rw [Model.Unit.render, broken]
    · have fills := (Page.blank_fills indent).on (unit.draft t)
      have sameUnit : ((unit.draft t).on (.blank indent)).unit = indent :=
        (unit.draft t).unit_on (.blank indent)
      rw [fills.splitOn (by rwa [sameUnit]), sameUnit]

end Polyscript
