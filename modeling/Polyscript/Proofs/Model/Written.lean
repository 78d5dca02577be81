import Polyscript.Proofs.Model.Assembly

/-!
# What is written of the parts of a program

Whatever is rendered for a program is written in its text: its own draft, carried out without a
break, is a stretch of the draft of the program.

## Main definitions

* `Part.Drafts`: the drafts of a part, one for each place where it may stand.
* `Unit.Renders`: what is rendered for a program.

## Main statements

* `Unit.exists_draft`: what is rendered for a program is written.
-/

namespace Polyscript.Model

variable {t : Target} {indent text : String} {unit : Unit}

/-- Whether a draft is one of a part, at a place where it may stand. -/
def Part.Drafts (t : Target) (p : Part) (d : Draft) : Prop :=
  ∃ place bare, DraftPiece.Fills t (.part p) place d bare

theorem Part.drafts_expr {isStatement : Bool} {e : Expr} {d : Draft} :
    (Part.expr isStatement e).Drafts t d ↔ ∃ inside, d = e.draft t inside isStatement := by
  constructor
  · rintro ⟨place, bare, ⟨⟩⟩
    exact ⟨_, rfl⟩
  · rintro ⟨inside, rfl⟩
    exact ⟨_, _, .expr inside isStatement e⟩

theorem Part.drafts_stmt {s : Stmt} {d : Draft} :
    (Part.stmt s).Drafts t d ↔ ∃ inside position, d = s.draft t inside position := by
  constructor
  · rintro ⟨place, bare, ⟨⟩⟩
    exact ⟨_, _, rfl⟩
  · rintro ⟨inside, position, rfl⟩
    exact ⟨_, _, .stmt inside position s⟩

/-- Nothing is rendered for a literal but itself. -/
theorem Part.eq_of_isLiteral {p q : Part} (literal : p.isLiteral) (renders : p.Renders q) :
    q = p := by
  have noParts : p.parts = [] := by
    cases p with
    | expr isStatement e =>
      cases e with
      | literal => rfl
      | _ => cases literal
    | _ => cases literal
  obtain same | ⟨next, isPart, _⟩ := Relation.ReflTransGen.cases_head renders
  · exact same.symm
  · rw [noParts] at isPart
    cases isPart

theorem Part.isLiteral_of_renders {p q : Part} (renders : p.Renders q)
    (notLiteral : q.isLiteral = false) : p.isLiteral = false := by
  by_contra literal
  rw [Bool.not_eq_false] at literal
  obtain rfl := eq_of_isLiteral literal renders
  rw [literal] at notLiteral
  cases notLiteral

/-- What is rendered for a part is written where the part is, if that does not break off.
Literals may be written in ways of their own. -/
theorem Part.exists_draft {p q : Part} (renders : p.Renders q) (notLiteral : q.isLiteral = false)
    {d : Draft} (isDraft : p.Drafts t d) (unbroken : d.fault = none) :
    ∃ e, q.Drafts t e ∧ e.fault = none ∧ e.marks <:+: d.marks := by
  induction renders using Relation.ReflTransGen.head_induction_on generalizing d with
  | refl => exact ⟨d, isDraft, unbroken, List.infix_rfl⟩
  | head isPart renders ih =>
    obtain ⟨_, _, filled⟩ := isDraft
    have isPiece := mem_pieces (t := t).2 ⟨isPart, isLiteral_of_renders renders notLiteral⟩
    obtain ⟨_, _, bare, filled, ok, written⟩ :=
      (Part.assembles filled).infix_of_mem unbroken isPiece
    obtain ⟨e, isDraft, ok, within⟩ := ih ⟨_, bare, filled⟩ ok
    exact ⟨e, isDraft, ok, within.trans written⟩

/-! ### Programs -/

/-- What is rendered for a program, at any depth. -/
def Unit.Renders (unit : Unit) (q : Part) : Prop := ∃ p ∈ unit.parts, p.Renders q

/-- The draft of a program that is rendered does not break off. -/
theorem Unit.fault_of_render (ok : unit.render t indent = .ok text) :
    (unit.draft t).fault = none := by
  cases fault : (unit.draft t).fault with
  | none => rfl
  | some fault => simp [Unit.render, fault] at ok

/-- What is rendered for a program is written in its text. -/
theorem Unit.exists_draft (ok : unit.render t indent = .ok text) {q : Part}
    (renders : unit.Renders q) (notLiteral : q.isLiteral = false) :
    ∃ d, q.Drafts t d ∧ d.fault = none ∧ d.marks <:+: (unit.draft t).marks := by
  obtain ⟨p, isPart, renders⟩ := renders
  have isPiece := Part.mem_flatMap_asPieces.2
    ⟨isPart, Part.isLiteral_of_renders renders notLiteral⟩
  obtain ⟨_, _, bare, filled, ok, written⟩ :=
    unit.assembles_draft.infix_of_mem (fault_of_render ok) isPiece
  obtain ⟨e, isDraft, ok, within⟩ := Part.exists_draft renders notLiteral ⟨_, bare, filled⟩ ok
  exact ⟨e, isDraft, ok, within.trans written⟩

end Polyscript.Model
