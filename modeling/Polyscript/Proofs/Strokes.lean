import Mathlib.Data.List.Forall2
import Polyscript.Proofs.Indentation
import Polyscript.Proofs.Layout.Steady

/-!
# Pages by strokes

What stands on a page is told by the characters that have been written on it since its text was
last taken, each with the depth in force when it was written. The lines of these strokes are the
lines of the page: one that has a stroke stands behind as many copies of the unit as the depth of
its first stroke says, and one without strokes is empty. Nothing else counts, neither how the
characters come in texts nor what is done to the page between two lines.

## Main definitions

* `Page.Act`, `Page.run`: what is done to a page, and the texts that are taken from it.
* `Stroke`, `Stroke.text`: characters with their depths, and the text that they make.
* `strokes`: the strokes of what is done to a page.

## Main statement

* `Page.run_blank`: the texts of a page, and that it is indifferent to how texts are split.
-/

namespace Polyscript

open Layout

/-- A character, with the depth in force when it is written. -/
structure Stroke where
  depth : Nat
  char : Char

namespace Stroke

/-- Whether a stroke ends a line. -/
def endsLine (stroke : Stroke) : Bool := stroke.char == '\n'

/-- The text of a line: its characters, behind as many copies of the unit as the depth of the first
one says. -/
def line (unit : String) : List Stroke → String
  | [] => ""
  | first :: rest => String.ofList (copies unit first.depth ++ (first :: rest).map char)

/-- The text that strokes make, line by line. -/
def text (unit : String) (strokes : List Stroke) : String :=
  "\n".intercalate ((strokes.splitOnP endsLine).map (line unit))

end Stroke

namespace Page

/-- What can be done to a page. -/
inductive Act where
  | append (text : String)
  | indent
  | unindent
  | take

/-- Whether the text of a page is taken. -/
def Act.isTake : Act → Bool
  | .take => true
  | _ => false

/-- A text appended character by character. -/
def Act.singly : Act → List Act
  | .append text => text.toList.map fun c => .append (String.singleton c)
  | act => [act]

/-- Do things to a page, one after the other: the texts taken from it, and the page after it. -/
def run (p : Page) : List Act → List String × Page
  | [] => ([], p)
  | .append text :: rest => (p.write text).run rest
  | .indent :: rest => p.indent.run rest
  | .unindent :: rest => p.unindent.run rest
  | .take :: rest =>
    let (text, p) := p.take
    let (taken, p) := p.run rest
    (text :: taken, p)

/-- The strokes of what is done to a page, from a depth on. -/
def strokes (depth : Nat) : List Act → List Stroke
  | [] => []
  | .append text :: rest => text.toList.map (Stroke.mk depth) ++ strokes depth rest
  | .indent :: rest => strokes (depth + 1) rest
  | .unindent :: rest => strokes (depth - 1) rest
  | .take :: rest => strokes 0 rest

end Page

/-! ### Lines of strokes -/

/-- What does not split a list goes to the last of its parts. -/
theorem splitOnP_concat {α : Type} {p : α → Bool} {x : α} (inside : p x = false) {xs : List α}
    {front : List (List α)} {back : List α} (parts : xs.splitOnP p = front ++ [back]) :
    (xs ++ [x]).splitOnP p = front ++ [back ++ [x]] := by
  induction xs generalizing front back with
  | nil =>
    obtain ⟨rfl, rfl⟩ : front = [] ∧ back = [] := by
      simpa [eq_comm] using List.append_eq_singleton_iff.1 parts.symm
    simp [List.splitOnP_cons_eq_if_modifyHead, inside]
  | cons y ys ih =>
    obtain ⟨first, rest, isSplit⟩ := List.exists_cons_of_ne_nil (List.splitOnP_ne_nil p ys)
    rw [List.splitOnP_cons_eq_if_modifyHead, isSplit] at parts
    rw [List.cons_append, List.splitOnP_cons_eq_if_modifyHead]
    by_cases splits : p y
    · -- an empty part is the first one, so the last one is among those of the rest
      rw [if_pos splits] at parts ⊢
      cases front with
      | nil => cases (List.cons.inj parts).2
      | cons part front =>
        obtain ⟨rfl, further⟩ := List.cons.inj parts
        rw [ih (isSplit.trans further)]
        rfl
    · rw [if_neg splits] at parts ⊢
      cases front with
      | nil =>
        obtain ⟨rfl, rfl⟩ := List.cons.inj parts
        have split : ys.splitOnP p = [] ++ [first] := isSplit
        rw [ih split]
        rfl
      | cons part front =>
        obtain ⟨rfl, rfl⟩ := List.cons.inj parts
        have split : ys.splitOnP p = (first :: front) ++ [back] := isSplit
        rw [ih split]
        rfl

/-- Whether a line has the characters of strokes, and the depth of the first one. -/
structure Layout.Line.Shows (l : Line) (strokes : List Stroke) : Prop where
  content : l.content = strokes.map Stroke.char
  depth : ∀ first ∈ strokes.head?, l.depth = first.depth

namespace Layout.Line

variable {l : Line} {strokes : List Stroke}

theorem shows_blank : blank.Shows [] := ⟨rfl, by simp⟩

theorem Shows.put (h : l.Shows strokes) (depth : Nat) {c : Char} (noNewline : c ≠ '\n') :
    (l.put depth c noNewline).Shows (strokes ++ [⟨depth, c⟩]) := by
  refine ⟨by simp [Line.put, h.content], ?_⟩
  cases strokes with
  | nil => simp [Line.put, h.content]
  | cons first rest =>
    -- the depth stays the one of the first stroke
    simp [Line.put, h.content, h.depth first rfl]

/-- The strokes of a line make the line with its indentation. -/
theorem Shows.line (h : l.Shows strokes) (unit : String) :
    (Stroke.line unit strokes).toList = l.indented unit := by
  cases strokes with
  | nil => exact (indented_eq_nil_iff.2 h.content).symm
  | cons first rest =>
    simp [Stroke.line, copies, indented, h.content, h.depth first rfl]

end Layout.Line

namespace Sheet

/-- Whether the lines of a sheet are those of strokes. -/
def Shows (s : Sheet) (strokes : List Stroke) : Prop :=
  ∃ front back, strokes.splitOnP Stroke.endsLine = front ++ [back] ∧
    List.Forall₂ Line.Shows s.ended front ∧ s.last.Shows back

variable {s : Sheet} {strokes : List Stroke}

theorem shows_blank : blank.Shows [] := ⟨[], [], rfl, .nil, Line.shows_blank⟩

/-- Another character is another stroke, at the depth of the sheet. -/
theorem Shows.put (h : s.Shows strokes) (c : Char) :
    (s.put c).Shows (strokes ++ [⟨s.depth, c⟩]) := by
  obtain ⟨front, back, parts, ended, last⟩ := h
  unfold Sheet.put
  by_cases isNewline : c = '\n'
  · rw [dif_pos isNewline]
    have ends : Stroke.endsLine ⟨s.depth, c⟩ := by simp [Stroke.endsLine, isNewline]
    -- the last line is ended, and the next one has no strokes yet
    refine ⟨front ++ [back], [], ?_, List.rel_append ended (.cons last .nil), Line.shows_blank⟩
    rw [List.splitOnP_append_cons _ _ ends, parts]
    rfl
  · rw [dif_neg isNewline]
    have inside : Stroke.endsLine ⟨s.depth, c⟩ = false := by simp [Stroke.endsLine, isNewline]
    exact ⟨front, _, splitOnP_concat inside parts, ended, last.put s.depth isNewline⟩

theorem depth_put (s : Sheet) (c : Char) : (s.put c).depth = s.depth := by
  unfold put
  split <;> rfl

theorem depth_write (s : Sheet) (text : String) : (s.write text).depth = s.depth := by
  unfold write
  induction text.toList generalizing s with
  | nil => rfl
  | cons c rest ih => exact (ih (s.put c)).trans (s.depth_put c)

theorem Shows.write (h : s.Shows strokes) (text : String) :
    (s.write text).Shows (strokes ++ text.toList.map (Stroke.mk s.depth)) := by
  unfold Sheet.write
  induction text.toList generalizing s strokes with
  | nil => simpa using h
  | cons c rest ih =>
    have further := ih (h.put c)
    rwa [depth_put, List.append_assoc] at further

end Sheet

/-! ### Pages of strokes -/

namespace Page

variable {p : Page} {written : List Stroke}

/-- Whether a page has the lines of strokes. -/
def Shows (p : Page) (strokes : List Stroke) : Prop := ∃ s : Sheet, p.Fills s ∧ s.Shows strokes

theorem shows_blank (unit : String) : (blank unit).Shows [] :=
  ⟨.blank, blank_fills unit, Sheet.shows_blank⟩

theorem Shows.write (h : p.Shows written) (text : String) :
    (p.write text).Shows (written ++ text.toList.map (Stroke.mk p.depth)) := by
  obtain ⟨s, fills, shows⟩ := h
  refine ⟨s.write text, fills.write text, ?_⟩
  rw [fills.depth]
  exact shows.write text

/-- Changing the depth writes nothing. -/
theorem Shows.indent (h : p.Shows written) : p.indent.Shows written := by
  obtain ⟨s, fills, shows⟩ := h
  exact ⟨s.follow .indent, fills.follow .indent, shows⟩

theorem Shows.unindent (h : p.Shows written) : p.unindent.Shows written := by
  obtain ⟨s, fills, shows⟩ := h
  exact ⟨s.follow .unindent, fills.follow .unindent, shows⟩

/-- The text of a page is the one that its strokes make. -/
theorem Shows.text (h : p.Shows written) : p.text = Stroke.text p.unit written := by
  obtain ⟨s, fills, front, back, parts, ended, last⟩ := h
  have lines : (front.map (Stroke.line p.unit)).map String.toList =
      s.ended.map (·.indented p.unit) := by
    rw [← List.forall₂_eq_eq_eq, List.map_map, List.forall₂_map_left_iff,
      List.forall₂_map_right_iff]
    exact ended.flip.imp fun _ _ shows => shows.line p.unit
  rw [← String.toList_inj, fills.text, Stroke.text, parts, String.toList_intercalate,
    List.map_append, List.map_append, lines]
  rw [List.map_singleton, List.map_singleton, last.line]
  exact (Text.intercalate_newline _ _).symm

/-- After anything that is done to a page, what has been taken and what is left on the page are
the texts of the strokes in between. -/
theorem Shows.run (h : p.Shows written) (acts : List Act) :
    ∃ first rest, acts.splitOnP Act.isTake = first :: rest ∧
      (p.run acts).1 ++ [(p.run acts).2.text] =
        Stroke.text p.unit (written ++ strokes p.depth first) ::
          rest.map fun acts => Stroke.text p.unit (strokes 0 acts) := by
  induction acts generalizing p written with
  | nil => exact ⟨[], [], rfl, by simp [Page.run, strokes, h.text]⟩
  | cons act acts ih =>
    rw [List.splitOnP_cons_eq_if_modifyHead]
    cases act with
    | append text =>
      obtain ⟨first, rest, parts, texts⟩ := ih (h.write text)
      refine ⟨.append text :: first, rest, by rw [parts]; rfl, ?_⟩
      rwa [p.unit_write, p.depth_write, List.append_assoc] at texts
    | indent =>
      obtain ⟨first, rest, parts, texts⟩ := ih h.indent
      exact ⟨.indent :: first, rest, by rw [parts]; rfl, texts⟩
    | unindent =>
      obtain ⟨first, rest, parts, texts⟩ := ih h.unindent
      exact ⟨.unindent :: first, rest, by rw [parts]; rfl, texts⟩
    | take =>
      -- what comes next is written on a blank page
      obtain ⟨first, rest, parts, texts⟩ := ih (shows_blank p.unit)
      refine ⟨[], first :: rest, by rw [parts]; rfl, ?_⟩
      simp only [Page.run, Page.take, strokes, List.append_nil, List.cons_append, List.map_cons]
      rw [← h.text, texts]
      rfl

/-! ### Texts in pieces -/

theorem run_singly_append (text : String) (rest : List Act) (p : Page) :
    p.run ((Act.append text).singly ++ rest) = (p.write text).run rest := by
  unfold Act.singly write
  dsimp only
  induction text.toList generalizing p with
  | nil => rfl
  | cons c chars ih =>
    rw [List.map_cons, List.cons_append, run, ih, List.foldl_cons]
    simp [write]

/-- It makes no difference whether texts are appended as they are or character by character. -/
theorem run_flatMap_singly (p : Page) (acts : List Act) :
    p.run (acts.flatMap Act.singly) = p.run acts := by
  induction acts generalizing p with
  | nil => rfl
  | cons act rest ih =>
    rw [List.flatMap_cons]
    cases act with
    | append text => rw [run_singly_append, ih, run]
    | _ => simp only [Act.singly, List.cons_append, List.nil_append, run, ih]

/-- What is taken from a page that was blank at first, and then what is left on it, are the texts
of the strokes between one taking and the next: in each, a line with characters stands behind as
many copies of the unit as the depth says at which its first character was written, depth being
counted from nothing after each taking, and an empty line stands behind none. And things done to a
page that differ only in how texts are split leave the same texts and the same page. -/
theorem run_blank (unit : String) (acts : List Act) :
    ((blank unit).run acts).1 ++ [((blank unit).run acts).2.text] =
        (acts.splitOnP Act.isTake).map (fun acts => Stroke.text unit (strokes 0 acts)) ∧
      ∀ others, others.flatMap Act.singly = acts.flatMap Act.singly →
        (blank unit).run others = (blank unit).run acts := by
  constructor
  · obtain ⟨first, rest, parts, texts⟩ := (shows_blank unit).run acts
    rw [texts, parts]
    rfl
  · intro others same
    rw [← run_flatMap_singly, same, run_flatMap_singly]

/-- A block, taken, and a line that comes after it. -/
def blockActs : List Act :=
  [.unindent, .append "a \x7b\n", .indent, .append "b;\n\nc;", .append " d\n", .unindent,
    .append "\x7d", .indent, .take, .append "x"]

/-- The same with its texts in other pieces. -/
def splitBlockActs : List Act :=
  [.unindent, .append "a ", .append "\x7b\n", .indent, .append "b;\n\nc; d\n", .unindent,
    .append "\x7d", .append "", .indent, .take, .append "x"]

theorem run_blank_block :
    ((blank "  ").run blockActs).1 ++ [((blank "  ").run blockActs).2.text] =
        ["a \x7b\n  b;\n\n  c; d\n\x7d", "x"] ∧
      splitBlockActs.flatMap Act.singly = blockActs.flatMap Act.singly ∧
      (blank "  ").run splitBlockActs = (blank "  ").run blockActs := by
  obtain ⟨texts, pieces⟩ := run_blank "  " blockActs
  have same : splitBlockActs.flatMap Act.singly = blockActs.flatMap Act.singly := rfl
  exact ⟨texts.trans rfl, same, pieces splitBlockActs same⟩

end Page

end Polyscript
