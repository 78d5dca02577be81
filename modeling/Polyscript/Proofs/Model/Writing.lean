import Polyscript.Model.Writing
import Polyscript.Proofs.Layout.Counting
import Polyscript.Proofs.Model.Congruence

/-!
# What writing a node does to a writer

A node is written behind what the writer has written already, in a way that depends on the
depth, the start of the line and the count of open literals but on no text before it.
Whatever a writer is asked to do, it is left with no literal open, even by a node that breaks
off; so its text can be taken, and it goes on like a new writer.

## Main statements

* `Item.written_behind`: writing a node is append-only, local and balanced.
* `Unit.render_eq`: a program is written as it is rendered.
* `Request.answers_take`: after its text has been taken, a writer answers like a new one.
-/

namespace Polyscript.Model

variable {t : Target}

/-! ### Nodes -/

/-- Every node leaves the writer steady. -/
theorem Item.steady (t : Target) (item : Item) : (item.draft t true).Steady :=
  item.draft_related (Draft.Steady.congruence t) true

/-- What a node breaks off with. -/
def Item.outcome (t : Target) (item : Item) : Except Unsupported (Option String) :=
  match (item.draft t true).fault with
  | some fault => .error fault
  | none => .ok none

/-- The text that a node adds to a page, from its unit of indentation, its depth, whether it
is at the start of a line, and the count of open literals. -/
def Item.added (t : Target) (item : Item) (unit : String) (depth : Nat) (atLineStart : Bool)
    (jsonLevel : Nat) : String :=
  ((item.draft t true).writtenBy ⟨⟨unit, "", depth, atLineStart⟩, jsonLevel⟩).page.text

theorem Item.text_writtenBy (t : Target) (item : Item) (w : Writer) :
    ((item.draft t true).writtenBy w).page.text =
      w.page.text ++ item.added t w.page.unit w.page.depth w.page.atLineStart w.jsonLevel := by
  obtain ⟨⟨unit, text, depth, atLineStart⟩, level⟩ := w
  -- the writer is one with an empty page, behind the text
  have behind := Draft.writtenBy_behind (item.steady t).noGap text
    ⟨⟨unit, "", depth, atLineStart⟩, level⟩
  simp only [Writer.behind, Page.behind, String.append_empty] at behind
  rw [behind]
  rfl

theorem Item.answer_eq (t : Target) (item : Item) (w : Writer) :
    (Request.item item).answer t w =
      (⟨item.outcome t, ((item.draft t true).writtenBy w).page.text⟩,
        (item.draft t true).writtenBy w) :=
  rfl

/-- Writing a node is append-only, local and balanced. What the text before grows by, and
whether the node breaks off, do not depend on that text; the depth is restored unless the
node breaks off, and the count of open literals in any case. -/
theorem Item.written_behind (t : Target) (item : Item) :
    ∃ (outcome : Except Unsupported (Option String))
      (added : String → Nat → Bool → Nat → String),
      ∀ w : Writer,
        let (answer, after) := (Request.item item).answer t w
        answer.outcome = outcome ∧
        after.page.text = w.page.text ++
          added w.page.unit w.page.depth w.page.atLineStart w.jsonLevel ∧
        ((∃ result, outcome = .ok result) → after.page.depth = w.page.depth) ∧
        after.jsonLevel = w.jsonLevel := by
  refine ⟨item.outcome t, item.added t, fun w => ?_⟩
  rw [item.answer_eq t w]
  refine ⟨rfl, item.text_writtenBy t w, fun ⟨result, succeeds⟩ => ?_,
    (item.steady t).keepsLevel w⟩
  refine (item.steady t).depth ?_ w
  cases broken : (item.draft t true).fault with
  | none => rfl
  | some fault =>
    rw [Item.outcome, broken] at succeeds
    cases succeeds

/-! ### Programs -/

theorem Unit.counts (t : Target) (unit : Unit) :
    Draft.Counts t false (unit.counted t) (unit.draft t) := by
  have c := Draft.Counts.congruence t
  have gap : Draft.Counts t false (.mark .gap) (.mark .gap) := .mark (by simp) (by simp)
  have drafted (item : Item) := item.draft_related c false
  refine c.append (c.append (c.concat ?_) (c.concat ?_)) ?_
  · rw [List.forall₂_map_left_iff, List.forall₂_map_right_iff, List.forall₂_same]
    intro field _
    exact c.append (c.append (drafted (.field field)) (c.text _)) (c.text _)
  · rw [List.forall₂_map_left_iff, List.forall₂_map_right_iff, List.forall₂_same]
    intro method _
    exact c.append (c.append gap (drafted (.method method))) (c.text _)
  · cases unit.entry.stmts.isEmpty with
    | true => exact c.empty
    | false => exact c.append gap (drafted (.block unit.entry))

/-- A new writer that is asked for a program writes it as it is rendered. -/
theorem Unit.render_eq (t : Target) (indent : String) (unit : Unit) :
    unit.render t indent =
      let answer := ((Request.unit unit).answer t (.new indent)).1
      answer.outcome.map fun _ => answer.text := by
  have counts := unit.counts t
  have written : ((unit.counted t).writtenBy (.new indent)).page =
      (unit.draft t).on (.blank indent) :=
    counts.page (.new indent) fun _ => by simp [Writer.new]
  simp only [Unit.render, Request.answer, Request.draft, written, counts.fault]
  cases (unit.draft t).fault with
  | some fault => rfl
  | none => rfl

/-! ### Requests -/

/-- No request leaves a literal open that it has begun. -/
theorem Request.keepsLevel (t : Target) (request : Request) : (request.draft t).KeepsLevel := by
  cases request with
  | item item => exact (item.steady t).keepsLevel
  | unit unit => exact (unit.counts t).keepsLevel
  | fragment fragment =>
    have counts : Draft.Counts t true (t.fragment fragment) (t.fragment fragment) :=
      (Draft.Counts.congruence t).fragment fragment
    exact counts.keepsLevel
  | append | indent | unindent | comment | take => exact fun _ => rfl

variable (t) in
theorem Request.answer_jsonLevel (request : Request) (w : Writer) :
    (request.answer t w).2.jsonLevel = w.jsonLevel := by
  cases request with
  | take => rfl
  | _ => exact Request.keepsLevel t _ w

variable (t) in
theorem Request.answer_unit (request : Request) (w : Writer) :
    (request.answer t w).2.page.unit = w.page.unit := by
  cases request with
  | take => rfl
  | _ => exact Draft.unit_writtenBy _ w

/-- Requests that follow others are answered by the writer that these leave. -/
theorem Request.answers_append (before after : List Request) (w : Writer) :
    Request.answers t w (before ++ after) =
      let (first, w) := Request.answers t w before
      let (second, w) := Request.answers t w after
      (first ++ second, w) := by
  induction before generalizing w with
  | nil => rfl
  | cons request rest ih => simp only [List.cons_append, Request.answers, ih]

/-- After any requests the writer still has no literal open and the same unit. -/
theorem Request.answers_invariant (requests : List Request) (w : Writer) :
    (Request.answers t w requests).2.jsonLevel = w.jsonLevel ∧
      (Request.answers t w requests).2.page.unit = w.page.unit := by
  induction requests generalizing w with
  | nil => exact ⟨rfl, rfl⟩
  | cons request rest ih =>
    obtain ⟨level, unit⟩ := ih (request.answer t w).2
    exact ⟨level.trans (request.answer_jsonLevel t w), unit.trans (request.answer_unit t w)⟩

/-- Taking its text makes a writer new, whatever it has been asked before. -/
theorem Request.take_of_answers (unit : String) (requests : List Request) :
    (Request.answers t (.new unit) requests).2.take.2 = .new unit := by
  obtain ⟨level, same⟩ := Request.answers_invariant (t := t) requests (.new unit)
  generalize (Request.answers t (.new unit) requests).2 = w at level same
  obtain ⟨page, jsonLevel⟩ := w
  obtain rfl : jsonLevel = 0 := level
  obtain rfl : page.unit = unit := same
  rfl

/-- Taking the text resets a writer: what it is asked afterwards it answers like a new writer
with the same unit, failed requests before and after included. -/
theorem Request.answers_take (t : Target) (unit : String) (before after : List Request) :
    let used := Request.answers t (.new unit) before
    (Request.answers t (.new unit) (before ++ .take :: after)).1 =
      used.1 ++ ⟨.ok (some used.2.page.text), ""⟩ ::
        (Request.answers t (.new unit) after).1 := by
  intro used
  have renewed : (Request.answers t (.new unit) before).2.take.2 = .new unit :=
    Request.take_of_answers unit before
  simp only [Request.answers_append, Request.answers, Request.answer, renewed]
  rfl

end Polyscript.Model
