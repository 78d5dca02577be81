import Polyscript.Proofs.Layout.Blocks
import Polyscript.Proofs.Model.Written

/-!
# One block for each outermost structured literal

Kotlin writes structured objects and arrays in a block. A writer opens one for every such literal
that is rendered while no other one is, and closes it when that literal ends; the literals that
are rendered inside another one, however deep and through whatever stands between them, share its
block.

## Main definitions

* `Part.RendersOutside`: what is rendered for a part while no structured literal is.
* `Part.outermost`, `Request.outermost`: the structured literals that are rendered so, in the
  order in which they are written.

## Main statements

* `Part.mem_outermost`: the outermost literals of a part are those that are rendered for it while
  no other one is.
* `Request.opens_blocks`: a writer opens and closes one block for each outermost literal of what
  it is asked to write.
-/

namespace Polyscript.Model

open Draft (Assembles AssemblesWithin AssemblesLines)
open Target

/-! ### Outermost literals -/

/-- What is rendered for a part while no structured literal is, the part itself included. -/
def Part.RendersOutside : Part → Part → Prop :=
  Relation.ReflTransGen fun part next => part.isStructured = false ∧ next ∈ part.parts

/-- The structured literal that a part is. -/
def Part.structured? : Part → Option Expr
  | .expr _ e => if e.isStructured then some e else none
  | .stmt _ | .block _ => none

/-- The outermost structured literals of a part, in the order in which Kotlin writes them. -/
def Part.outermost (p : Part) : List Expr :=
  match p.structured? with
  | some e => [e]
  | none => (p.pieces .kotlin).attach.flatMap fun piece =>
    match piece with
    | ⟨.fragment _, _⟩ => []
    | ⟨.part q, _⟩ => q.outermost
termination_by p.size
decreasing_by exact Part.size_lt (Part.mem_pieces.1 ‹_›).1

/-- The outermost structured literals of a piece. -/
def DraftPiece.outermost : DraftPiece → List Expr
  | .fragment _ => []
  | .part p => p.outermost

theorem Part.outermost_of_structured {isStatement : Bool} {e : Expr} (structured : e.isStructured) :
    (Part.expr isStatement e).outermost = [e] := by
  rw [Part.outermost, Part.structured?, if_pos structured]

theorem Part.outermost_of_plain {p : Part} (plain : p.isStructured = false) :
    p.outermost = (p.pieces .kotlin).flatMap DraftPiece.outermost := by
  have none : p.structured? = none := by
    cases p with
    | expr isStatement e =>
      have plain : e.isStructured = false := plain
      rw [Part.structured?, plain]
      rfl
    | stmt | block => rfl
  rw [Part.outermost, none]
  conv_rhs => rw [← List.attach_map_subtype_val (p.pieces .kotlin), List.flatMap_map]
  refine List.flatMap_congr ?_
  rintro ⟨piece, _⟩ _
  cases piece <;> rfl

theorem Part.isStructured_iff {p : Part} :
    p.isStructured ↔ ∃ isStatement e, p = .expr isStatement e ∧ e.isStructured := by
  constructor
  · intro structured
    cases p with
    | expr isStatement e => exact ⟨isStatement, e, rfl, structured⟩
    | stmt | block => cases structured
  · rintro ⟨_, _, rfl, structured⟩
    exact structured

/-- The literals of a part that is none itself are those of its parts. -/
theorem Part.mem_outermost_of_plain {p : Part} (plain : p.isStructured = false) {e : Expr} :
    e ∈ p.outermost ↔ ∃ q ∈ p.parts, q.isLiteral = false ∧ e ∈ q.outermost := by
  rw [outermost_of_plain plain, List.mem_flatMap]
  constructor
  · rintro ⟨piece, isPiece, mem⟩
    cases piece with
    | fragment => cases mem
    | part q =>
      obtain ⟨isPart, notLiteral⟩ := mem_pieces.1 isPiece
      exact ⟨q, isPart, notLiteral, mem⟩
  · rintro ⟨q, isPart, notLiteral, mem⟩
    exact ⟨.part q, mem_pieces.2 ⟨isPart, notLiteral⟩, mem⟩

theorem Part.RendersOutside.renders {p q : Part} (outside : p.RendersOutside q) : p.Renders q :=
  Relation.ReflTransGen.mono (fun _ _ step => step.2) _ _ outside

theorem Part.isLiteral_eq_false {q : Part} {isStatement : Bool} {e : Expr}
    (renders : q.RendersOutside (.expr isStatement e)) (structured : e.isStructured) :
    q.isLiteral = false := by
  have notLiteral : (Part.expr isStatement e).isLiteral = false := by
    cases e with
    | literal => cases structured
    | _ => rfl
  exact isLiteral_of_renders renders.renders notLiteral

/-- The outermost literals of a part are those that are rendered for it while no other one is. -/
theorem Part.mem_outermost {p : Part} {e : Expr} :
    e ∈ p.outermost ↔ e.isStructured ∧ ∃ isStatement, p.RendersOutside (.expr isStatement e) := by
  induction p using Part.induction with
  | step p ih =>
    by_cases structured : p.isStructured
    · -- nothing in a literal is rendered outside of it
      obtain ⟨isStatement, literal, rfl, isLiteral⟩ := isStructured_iff.1 structured
      rw [outermost_of_structured isLiteral, List.mem_singleton]
      constructor
      · rintro rfl
        exact ⟨isLiteral, isStatement, .refl⟩
      · rintro ⟨_, _, renders⟩
        obtain same | ⟨_, ⟨plain, _⟩, _⟩ := Relation.ReflTransGen.cases_head renders
        · cases same
          rfl
        · rw [structured] at plain
          cases plain
    · have plain : p.isStructured = false := Bool.eq_false_iff.2 structured
      rw [mem_outermost_of_plain plain]
      constructor
      · rintro ⟨q, isPart, _, mem⟩
        obtain ⟨isLiteral, isStatement, renders⟩ := (ih q isPart).1 mem
        exact ⟨isLiteral, isStatement, .head ⟨plain, isPart⟩ renders⟩
      · rintro ⟨isLiteral, isStatement, renders⟩
        obtain same | ⟨q, ⟨_, isPart⟩, renders⟩ := Relation.ReflTransGen.cases_head renders
        · rw [same] at plain
          exact absurd isLiteral (Bool.eq_false_iff.1 plain)
        · exact ⟨q, isPart, isLiteral_eq_false renders isLiteral,
            (ih q isPart).2 ⟨isLiteral, isStatement, renders⟩⟩

/-- Every structured literal that is rendered is an outermost one or rendered inside one. -/
theorem Part.exists_outermost {p : Part} {isStatement : Bool} {e : Expr}
    (structured : e.isStructured) (renders : p.Renders (.expr isStatement e)) :
    ∃ o ∈ p.outermost, o = e ∨ ∃ q ∈ o.parts, q.Renders (.expr isStatement e) := by
  -- the induction goes from the literal towards the part: an outermost one on the way stays so
  -- unless the next part is a literal itself, which then takes its place
  induction renders using Relation.ReflTransGen.head_induction_on with
  | refl =>
    refine ⟨e, ?_, .inl rfl⟩
    rw [outermost_of_structured structured]
    exact List.mem_singleton_self e
  | @head p q isPart renders ih =>
    by_cases outer : p.isStructured
    · obtain ⟨_, o, rfl, isLiteral⟩ := isStructured_iff.1 outer
      refine ⟨o, ?_, .inr ⟨q, isPart, renders⟩⟩
      rw [outermost_of_structured isLiteral]
      exact List.mem_singleton_self o
    · obtain ⟨o, mem, inside⟩ := ih
      obtain ⟨isLiteral, _, outside⟩ := mem_outermost.1 mem
      have step : p.isStructured = false ∧ q ∈ p.parts := ⟨Bool.eq_false_iff.2 outer, isPart⟩
      exact ⟨o, mem_outermost.2 ⟨isLiteral, _, .head step outside⟩, inside⟩

/-! ### Drafts for a writer -/

/-- The marks for the literal of a structured object or array. -/
def Expr.literalMarks (e : Expr) : List Mark := (e.draft .kotlin true false).marks

/-- A structured literal is its beginning, what its pieces are put together to, and its end. -/
theorem Expr.exists_block {e : Expr} (structured : e.isStructured) (isStatement : Bool) :
    ∃ d d', e.draft .kotlin true isStatement = jsonBlock true d ∧
      AssemblesWithin (DraftPiece.filling .kotlin true False)
        ((Part.expr isStatement e).pieces .kotlin) d d' := by
  cases e with
  | jsonObject members =>
    exact ⟨_, _, rfl, assembles_pairs (Member.assembles_drafts true members)⟩
  | jsonArray values =>
    have items := (assembles_arguments (Expr.assembles_drafts (t := .kotlin) (m := False) true
      values)).text_append (a := .anywhere) "array("
    exact ⟨_, _, rfl, items.closedBy rfl⟩
  | _ => cases structured

theorem holds_fragment (fragment : String) :
    (Target.kotlin.fragment fragment).Holds Expr.literalMarks [] := by
  have line (l : List Char) : (Target.kotlin.fragmentLine l).Holds Expr.literalMarks [] := by
    unfold fragmentLine
    split
    · exact .text _
    · exact Draft.Holds.append (.text _) (.text _)
    · exact .empty
  unfold Target.fragment
  induction Text.lines fragment.toList with
  | nil => exact .empty
  | cons l rest ih => exact (line l).append ih

/-- What a piece is filled in with holds the outermost literals of the piece. -/
theorem DraftPiece.holds_outermost {piece : DraftPiece} {a : Place} {d d' : Draft}
    (filled : piece.FillsAt .kotlin true a d d') : d.Holds Expr.literalMarks piece.outermost := by
  cases piece with
  | fragment text =>
    cases filled
    exact holds_fragment text
  | part p =>
    induction p using Part.induction generalizing a d d' with
    | step p ih =>
      have pieces : ∀ piece ∈ p.pieces .kotlin, ∀ c e e', piece.FillsAt .kotlin true c e e' →
          e.Holds Expr.literalMarks piece.outermost := by
        intro piece isPiece c e e' filled
        cases piece with
        | fragment text =>
          cases filled
          exact holds_fragment text
        | part q => exact ih q (Part.mem_pieces.1 isPiece).1 filled
      by_cases structured : p.isStructured
      · obtain ⟨isStatement, literal, rfl, isLiteral⟩ := Part.isStructured_iff.1 structured
        cases filled
        obtain ⟨inner, _, isBlock, assembled⟩ := Expr.exists_block isLiteral isStatement
        have within : inner.Holds Expr.literalMarks _ := assembled.holds id _ pieces
        rw [DraftPiece.outermost, Part.outermost_of_structured isLiteral, isBlock]
        refine within.literal ?_
        -- whether a literal stands as a statement makes no difference
        have same : literal.draft .kotlin true false = jsonBlock true inner := by
          rw [← isBlock]
          cases literal with
          | jsonObject | jsonArray => rfl
          | _ => cases isLiteral
        rw [Expr.literalMarks, same]
        rfl
      -- what is no literal itself passes on the literals of its pieces
      · have plain : p.isStructured = false := Bool.eq_false_iff.2 structured
        rw [DraftPiece.outermost, Part.outermost_of_plain plain]
        exact (Part.assembles_of_plain (m := False) filled plain).holds id _ pieces

/-- The parts that are rendered for a node. -/
def Item.parts : Item → List Part
  | .expr e => [.operand e]
  | .access a => a.parts
  | .member m => m.values.map .operand
  | .lambdaBody body => [body.part false]
  | .stmt _ s => [.stmt s]
  | .block b => [.block b]
  | .field f => f.init.toList.map .operand
  | .method m => [.block m.body]

/-- A node is assembled from its pieces. -/
theorem Item.assembles_draft (item : Item) : ∃ a b d',
    Assembles (DraftPiece.filling .kotlin true False) a b (item.parts.flatMap Part.asPieces)
      (item.draft .kotlin true) d' := by
  have operand (e : Expr) := e.assembles_part (t := .kotlin) (m := False) true false
  have operands (es : List Expr) := Expr.assembles_drafts (t := .kotlin) (m := False) true es
  cases item with
  | expr e =>
    have pieces : (Item.expr e).parts.flatMap Part.asPieces = (Part.operand e).asPieces :=
      List.append_nil _
    rw [pieces]
    exact ⟨_, _, _, operand e⟩
  | access a => exact ⟨_, _, _, a.assembles_draft true⟩
  | member member =>
    cases member with
    | single name value =>
      have pieces : (Item.member (.single name value)).parts.flatMap Part.asPieces =
          (Part.operand value).asPieces :=
        List.append_nil _
      rw [pieces]
      exact ⟨_, _, _, operand value⟩
    | sequence name values =>
      exact ⟨_, _, _, assembles_listLiteral (t := .kotlin) (operands values)⟩
  | lambdaBody body =>
    have pieces : (Item.lambdaBody body).parts.flatMap Part.asPieces = (body.part false).asPieces :=
      List.append_nil _
    rw [pieces]
    have assembled := body.assembles_draft (t := .kotlin) (m := False) true false
    cases body with
    | expr e =>
      cases assembled with
      | expr within => exact ⟨_, _, _, within⟩
    | block b =>
      cases assembled with
      | lines lines => exact ⟨_, _, _, lines⟩
  | stmt position s => exact ⟨_, _, _, .piece (DraftPiece.FillsAt.stmt position s)⟩
  | block b => exact ⟨_, _, _, .piece (DraftPiece.FillsAt.block b)⟩
  | field f =>
    have init := Expr.assembles_optionDraft (t := .kotlin) (m := False) true f.init
    exact ⟨.anywhere, _, _, assembles_varDecl (t := .kotlin) .field f.type f.name init⟩
  | method method =>
    have body : AssemblesLines (DraftPiece.filling .kotlin true False) [.part (.block method.body)]
        (method.body.draft .kotlin true) (method.body.bare.draft .kotlin true) :=
      .piece (.block method.body)
    exact ⟨.anywhere, _, _,
      assembles_method (t := .kotlin) method.signature method.paramNames body⟩

/-! ### Requests -/

/-- The parts that are rendered for a request. -/
def Request.parts : Request → List Part
  | .item i => i.parts
  | .unit u => u.parts
  | .append _ | .indent | .unindent | .fragment _ | .comment _ | .take => []

/-- The outermost structured literals of a request, in the order in which Kotlin writes them. -/
def Request.outermost (request : Request) : List Expr :=
  (request.parts.flatMap Part.asPieces).flatMap DraftPiece.outermost

theorem Request.holds_outermost (request : Request) :
    (request.draft .kotlin).Holds Expr.literalMarks request.outermost := by
  have mark (m : Mark) (content : m.isContent) : (Draft.mark m).Holds Expr.literalMarks [] :=
    .of_isContent fun _ mem => List.mem_singleton.1 mem ▸ content
  cases request with
  | item item =>
    obtain ⟨_, _, _, assembled⟩ := item.assembles_draft
    exact assembled.holds id _ fun _ _ _ _ _ filled => DraftPiece.holds_outermost filled
  | unit unit =>
    exact (unit.assembles_counted (m := False)).holds id _ fun _ _ _ _ _ filled =>
      DraftPiece.holds_outermost filled
  | append s => exact Draft.Holds.text s
  | comment s => exact Draft.Holds.text _
  | indent => exact mark .indent rfl
  | unindent => exact mark .unindent rfl
  | fragment s => exact holds_fragment s
  | take => exact Draft.Holds.empty

/-- Every structured literal that is rendered for a request is one of its outermost literals or is
rendered inside one of them. -/
theorem Request.exists_outermost {request : Request} {p : Part} (isPart : p ∈ request.parts)
    {isStatement : Bool} {e : Expr} (structured : e.isStructured)
    (renders : p.Renders (.expr isStatement e)) :
    ∃ o ∈ request.outermost, o = e ∨ ∃ q ∈ o.parts, q.Renders (.expr isStatement e) := by
  obtain ⟨o, mem, inside⟩ := Part.exists_outermost structured renders
  obtain ⟨isLiteral, _, outside⟩ := Part.mem_outermost.1 mem
  -- the pieces of a request leave out its literals of plain values, which hold nothing
  have isPiece := Part.mem_flatMap_asPieces.2 ⟨isPart, Part.isLiteral_eq_false outside isLiteral⟩
  exact ⟨o, List.mem_flatMap.2 ⟨_, isPiece, mem⟩, inside⟩

/-- A request that is not for a text and is answered without a failure is carried out whole. -/
theorem Request.written_of_ok {t : Target} {w : Writer} {request : Request}
    (ok : (request.answer t w).1.outcome = .ok none) :
    (request.draft t).fault = none ∧ (request.answer t w).2 = (request.draft t).writtenBy w := by
  cases fault : (request.draft t).fault with
  | none =>
    refine ⟨rfl, ?_⟩
    cases request with
    | take => cases ok
    | _ => rfl
  | some cause =>
    cases request with
    | take => cases ok
    | _ => simp [Request.answer, fault] at ok

/-- One block for each outermost literal. What is to be written for a request is told by
stretches, each a single mark outside of literals or an outermost literal with everything in it,
and so is what a writer does to its page: for a literal it opens the block, writes what stands in
the literal, other literals included, and closes the block. -/
structure Request.OpensBlocks (w : Writer) (request : Request) (stretches : List (Stretch Expr)) :
    Prop where
  marks : (request.draft .kotlin).marks = stretches.flatMap (Stretch.marks Expr.literalMarks)
  content : ∀ m, .mark m ∈ stretches → m.isContent
  literals : stretches.filterMap Stretch.literal? = request.outermost
  moves : moves w.jsonLevel (request.draft .kotlin).marks =
    stretches.flatMap (Stretch.moves Expr.literalMarks)
  page : (request.answer .kotlin w).2.page =
    (stretches.flatMap (Stretch.moves Expr.literalMarks)).foldl Page.move w.page

/-- A writer of Kotlin that has been asked whatever it was asked, with failures or without, opens
one block for each outermost literal of what it is asked to write next, if that does not break
off. Every other literal that is rendered stands inside an outermost one. -/
theorem Request.opens_blocks (indent : String) (before : List Request) (request : Request)
    (ok : (request.answer .kotlin (Request.answers .kotlin (.new indent) before).2).1.outcome =
      .ok none) :
    (∃ stretches,
      request.OpensBlocks (Request.answers .kotlin (.new indent) before).2 stretches) ∧
    ∀ p ∈ request.parts, ∀ isStatement e, e.isStructured → p.Renders (.expr isStatement e) →
      ∃ o ∈ request.outermost, o = e ∨ ∃ q ∈ o.parts, q.Renders (.expr isStatement e) := by
  refine ⟨?_, fun p isPart isStatement e structured renders =>
    Request.exists_outermost isPart structured renders⟩
  -- between requests no literal is open, also behind a request that broke off
  have level := (Request.answers_invariant (t := .kotlin) before (.new indent)).1
  generalize (Request.answers .kotlin (.new indent) before).2 = w at ok level ⊢
  obtain ⟨unbroken, written⟩ := Request.written_of_ok ok
  obtain ⟨stretches, tiled, literals⟩ := request.holds_outermost unbroken
  have moved : moves w.jsonLevel (request.draft .kotlin).marks =
      stretches.flatMap (Stretch.moves Expr.literalMarks) := by
    have outside := tiled.moves_outside []
    rw [List.append_nil] at outside
    rw [level]
    exact outside.trans (List.append_nil _)
  refine ⟨stretches, tiled.marks_eq, fun m mem => tiled.isContent mem, literals, moved, ?_⟩
  rw [written, Draft.writtenBy, page_foldl_follow, moved]

/-- A list of a literal with another one in a function, and of a second literal. -/
def listOfLiterals : Request :=
  .item (.expr (.list [
    .jsonObject [.single "run" (.lambda ⟨[], [], .block ⟨[.expr (.jsonArray [])], []⟩⟩)],
    .jsonArray [.literal .null]]))

/-- A literal that breaks off, and the end of its line. -/
def brokenLiteral : List Request := [.item (.expr (.jsonArray [.console .out])), .append "\n"]

/-- Both literals of the list have a block, and the one in the function has none. -/
theorem Request.opens_blocks_listOfLiterals :
    let w := (Request.answers .kotlin (.new "  ") brokenLiteral).2
    (listOfLiterals.answer .kotlin w).1.outcome = .ok none ∧
    (listOfLiterals.answer .kotlin w).1.text =
      "json \x7b\n  array()\n\x7d\n" ++
      "listOf(json \x7b\n  obj(\"run\" to \x7b\n      array()\n    \x7d)\n\x7d, " ++
      "json \x7b\n  array(null)\n\x7d)" ∧
    (∃ stretches, listOfLiterals.OpensBlocks w stretches) ∧
    ∀ p ∈ listOfLiterals.parts, ∀ isStatement e, e.isStructured →
      p.Renders (.expr isStatement e) →
      ∃ o ∈ listOfLiterals.outermost, o = e ∨ ∃ q ∈ o.parts, q.Renders (.expr isStatement e) := by
  intro w
  have ok : (listOfLiterals.answer .kotlin w).1.outcome = .ok none := rfl
  refine ⟨ok, ?_, opens_blocks "  " brokenLiteral listOfLiterals ok⟩
  decide +kernel

end Polyscript.Model
