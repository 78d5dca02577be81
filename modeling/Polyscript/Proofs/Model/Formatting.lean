import Polyscript.Proofs.Layout.Deletion
import Polyscript.Proofs.Model.Assembly
import Polyscript.Proofs.Spelling.Fragment

/-!
# Fragments are lines of formatting

The text of a program adds lines to the text of the same program without fragments: the lines of
the fragments that are written, in the order in which they stand. A fragment stands at the
beginning of a line in every block of every language, and it consists of blank lines and
comments, so these are all lines of formatting.

## Main definitions

* `Part.lines`, `Unit.lines`: the lines that the fragments of a part or of a program add.

## Main statements

* `Unit.render_adds`: the text of a program adds its lines to the text without fragments.
* `Unit.render_bare_thins`: without the fragments a text only loses lines of formatting.
-/

namespace Polyscript.Model

open Draft (Adds)

variable {t : Target}

/-- The lines that the fragments in a part are written as, in their order. -/
def Part.lines (t : Target) (p : Part) : List String :=
  (p.pieces t).attach.flatMap fun piece =>
    match piece with
    | ⟨.fragment text, _⟩ => t.fragmentLines text
    | ⟨.part q, _⟩ => q.lines t
termination_by p.size
decreasing_by exact Part.size_lt (Part.mem_pieces.1 ‹_›).1

/-- The lines of a piece. -/
def DraftPiece.lines (t : Target) : DraftPiece → List String
  | .fragment text => t.fragmentLines text
  | .part p => p.lines t

theorem Part.lines_eq (p : Part) : p.lines t = (p.pieces t).flatMap (DraftPiece.lines t) := by
  rw [Part.lines]
  conv_rhs => rw [← List.attach_map_subtype_val (p.pieces t), List.flatMap_map]
  refine List.flatMap_congr ?_
  rintro ⟨piece, _⟩ _
  cases piece <;> rfl

/-- Whatever a piece is filled in with, the draft with fragments adds the lines of the piece. -/
theorem DraftPiece.adds {piece : DraftPiece} {a : Place} {d d' : Draft}
    (filled : piece.Fills t a d d') : Adds a a (piece.lines t) d d' := by
  cases piece with
  | fragment text =>
    cases filled
    exact Target.adds_fragment text
  | part p =>
    induction p using Part.induction generalizing a d d' with
    | step p ih =>
      -- a part is assembled from pieces, which add their lines in the same order
      have assembled := Part.assembles filled
      rw [DraftPiece.lines, Part.lines_eq]
      refine assembled.adds (DraftPiece.lines t) fun next isPiece c e e' filled => ?_
      cases next with
      | fragment text =>
        cases filled
        exact Target.adds_fragment text
      | part q => exact ih q (Part.mem_pieces.1 isPiece).1 filled

theorem Part.mem_lines {p : Part} {line : String} (mem : line ∈ p.lines t) :
    ∃ fragment, line ∈ t.fragmentLines fragment := by
  induction p using Part.induction with
  | step p ih =>
    rw [lines_eq] at mem
    obtain ⟨piece, isPiece, mem⟩ := List.mem_flatMap.1 mem
    cases piece with
    | fragment text => exact ⟨text, mem⟩
    | part q => exact ih q (mem_pieces.1 isPiece).1 mem

/-! ### Programs -/

/-- The lines that the fragments in a program are written as. -/
def Unit.lines (t : Target) (unit : Unit) : List String := unit.pieces.flatMap (DraftPiece.lines t)

theorem Unit.adds_draft (t : Target) (unit : Unit) :
    Adds .between .anywhere (unit.lines t) (unit.draft t) (unit.bare.draft t) :=
  unit.assembles_draft.adds (DraftPiece.lines t) fun _ _ _ _ _ filled => DraftPiece.adds filled

/-- The lines of a program are blank or comments, and each is a single line. -/
theorem Unit.lines_formatting (unit : Unit) :
    ∀ line ∈ unit.lines t,
      (line = "" ∨ ∃ rest, line = t.commentSign ++ rest) ∧ '\n' ∉ line.toList := by
  intro line mem
  obtain ⟨piece, isPiece, mem⟩ := List.mem_flatMap.1 mem
  obtain ⟨fragment, mem⟩ : ∃ fragment, line ∈ t.fragmentLines fragment := by
    cases piece with
    | fragment text => exact ⟨text, mem⟩
    | part p => exact Part.mem_lines mem
  exact t.fragmentLines_formatting fragment line mem

/-- Whether a program can be written is not a matter of its fragments. -/
theorem Unit.render_bare_eq_error (t : Target) (unit : Unit) (indent : String)
    (cause : Unsupported) :
    unit.render t indent = .error cause ↔ unit.bare.render t indent = .error cause := by
  have same := (unit.adds_draft t).fault
  simp only [Unit.render, same]
  cases (unit.bare.draft t).fault <;> simp

/-- The text of a program adds the lines of its fragments to the text of the program without
fragments, and nothing else. -/
theorem Unit.render_adds (t : Target) (unit : Unit) {indent text : String}
    (ok : unit.render t indent = .ok text) :
    ∃ bare, unit.bare.render t indent = .ok bare ∧
      Layout.Adds indent (unit.lines t) text.toList bare.toList := by
  have related := unit.adds_draft t
  cases fault : (unit.draft t).fault with
  | some fault => simp [Unit.render, fault] at ok
  | none =>
    obtain ⟨pages, _⟩ := related.pages fault [] _ _ (Page.blank_adds indent) ⟨rfl, rfl⟩
    have adds := pages.text
    rw [Draft.unit_on] at adds
    simp only [Unit.render, fault, Except.ok.injEq] at ok
    simp only [Unit.render, ← related.fault, fault, ← ok]
    exact ⟨_, rfl, adds⟩

/-- The text of a program without fragments is the text of the program without some lines of
formatting. -/
theorem Unit.render_bare_thins (t : Target) (unit : Unit) {indent : String}
    (unbroken : '\n' ∉ indent.toList) {text : String} (ok : unit.render t indent = .ok text) :
    ∃ text', unit.bare.render t indent = .ok text' ∧
      Layout.Thins t.commentSign indent text text' := by
  obtain ⟨bare, rendered, adds⟩ := unit.render_adds t ok
  exact ⟨bare, rendered, adds.thins unbroken unit.lines_formatting⟩

end Polyscript.Model
