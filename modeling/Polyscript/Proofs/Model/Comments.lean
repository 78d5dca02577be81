import Polyscript.Proofs.Layout.Interleaving
import Polyscript.Proofs.Model.Formatting
import Polyscript.Proofs.Model.Nodes

/-!
# Comments of blocks

Every block that is rendered for a program has the comments of its fragments written, each once
and in the order in which they stand in the block; what is written between them are the comments
of the blocks inside it.

## Main definitions

* `Block.comments`: the texts of the comments of a block.
* `Part.blocks`, `Unit.blocks`: the blocks that are rendered, each as often as it is.

## Main statements

* `Part.mem_blocks`: the blocks of a part are those that are rendered for it.
* `Unit.interleaves_lines`: the lines of a program that are not blank interleave the comments of
  its blocks.
-/

namespace Polyscript.Model

variable {t : Target}

/-- The texts of the comments in the fragments of a block. -/
def Block.comments (block : Block) : List String := block.fragments.flatMap fragmentComments

/-- The block that a part is. -/
def Part.ownBlocks : Part → List Block
  | .block b => [b]
  | _ => []

/-- The blocks that are rendered for a part, itself included. -/
def Part.blocks (p : Part) : List Block :=
  p.ownBlocks ++ p.parts.attach.flatMap fun ⟨q, _⟩ => q.blocks
termination_by p.size
decreasing_by exact Part.size_lt ‹_›

theorem Part.blocks_eq (p : Part) : p.blocks = p.ownBlocks ++ p.parts.flatMap Part.blocks := by
  rw [Part.blocks]
  conv_rhs => rw [← List.attach_map_subtype_val p.parts, List.flatMap_map]

/-- The blocks of a part are those that are rendered for it. -/
theorem Part.mem_blocks {p : Part} {b : Block} : b ∈ p.blocks ↔ p.Renders (.block b) := by
  induction p using Part.induction with
  | step p ih =>
    have own : b ∈ p.ownBlocks ↔ p = .block b := by
      cases p <;> simp [Part.ownBlocks, eq_comm]
    have below : b ∈ p.parts.flatMap Part.blocks ↔ ∃ q ∈ p.parts, q.Renders (.block b) :=
      List.mem_flatMap.trans (exists_congr fun q => and_congr_right (ih q))
    rw [Part.blocks_eq, List.mem_append, own, below]
    constructor
    · rintro (rfl | ⟨q, isPart, renders⟩)
      · exact .refl
      · exact .head isPart renders
    · intro renders
      obtain same | ⟨q, isPart, renders⟩ := Relation.ReflTransGen.cases_head renders
      · exact .inl same
      · exact .inr ⟨q, isPart, renders⟩

/-- The blocks of a program that are rendered. -/
def Unit.blocks (unit : Unit) : List Block := unit.parts.flatMap Part.blocks

/-! ### Pieces -/

/-- The blocks of a piece. -/
def DraftPiece.blocks : DraftPiece → List Block
  | .part p => p.blocks
  | .fragment _ => []

theorem Part.flatMap_asPieces (p : Part) : p.asPieces.flatMap DraftPiece.blocks = p.blocks := by
  unfold Part.asPieces
  split
  next literal =>
    cases p with
    | expr isStatement e =>
      cases e with
      | literal value =>
        rw [Part.blocks_eq]
        rfl
      | _ => cases literal
    | _ => cases literal
  next => simp [DraftPiece.blocks]

theorem Part.flatMap_asPieces_parts (parts : List Part) :
    (parts.flatMap Part.asPieces).flatMap DraftPiece.blocks = parts.flatMap Part.blocks := by
  rw [List.flatMap_assoc]
  exact List.flatMap_congr fun p _ => p.flatMap_asPieces

/-- The pieces of a statement have the blocks of its parts. -/
theorem Stmt.perm_pieces (s : Stmt) :
    (((Part.stmt s).pieces t).flatMap DraftPiece.blocks).Perm (s.parts.flatMap Part.blocks) := by
  cases s with
  | loop init cond update body =>
    -- only the update of a loop may be written in another place
    rw [← Part.flatMap_asPieces_parts]
    have order : (t.inLoop (Part.expr true update).asPieces [.part (.stmt body)]).Perm
        ((Part.expr true update).asPieces ++ [.part (.stmt body)]) := by
      cases t with
      | ruby | kotlin => exact List.perm_append_comm
      | _ => exact .refl _
    have pieces := (order.append_left
      ([.part (.stmt init)] ++ (Part.operand cond).asPieces)).flatMap_right DraftPiece.blocks
    simpa [Part.pieces, Stmt.parts] using pieces
  | _ => exact .of_eq (Part.flatMap_asPieces_parts _)

/-! ### Comments -/

/-- The lines that the comments of a block are written as. -/
def Block.commentLines (t : Target) (block : Block) : List String :=
  block.comments.map t.comment

/-- The lines of a list that are not blank. -/
abbrev written (lines : List String) : List String := lines.filter (· ≠ "")

/-- The comments of a block and of the blocks inside it are interleaved as its statements and its
fragments take turns. -/
theorem Stmt.interleaves_between {stmts : List Stmt} {fragments : List String}
    (fitting : fragments.length ≤ stmts.length + 1)
    (inside : ∀ s ∈ stmts, Interleaves ((Part.stmt s).blocks.map (Block.commentLines t))
      (written ((Part.stmt s).lines t))) :
    Interleaves ((Block.commentLines t ⟨stmts, fragments⟩) ::
        ((stmts.map Part.stmt).flatMap Part.blocks).map (Block.commentLines t))
      (written ((Stmt.piecesBetween stmts fragments).flatMap (DraftPiece.lines t))) := by
  -- at most one fragment stands before a statement or behind the last one
  have leading (fragments : List String) :
      Interleaves [Block.commentLines t ⟨[], fragments.take 1⟩]
        (written (((fragments.take 1).map DraftPiece.fragment).flatMap (DraftPiece.lines t))) := by
    cases fragments with
    | nil => exact .singleton []
    | cons fragment rest =>
      simpa [Block.commentLines, Block.comments, DraftPiece.lines, t.fragmentLines_filter] using
        Interleaves.singleton ((fragmentComments fragment).map t.comment)
  induction stmts generalizing fragments with
  | nil =>
    have only : fragments.take 1 = fragments := List.take_of_length_le fitting
    have last := leading fragments
    rw [only] at last
    simpa [Stmt.piecesBetween, only] using last
  | cons s rest ih =>
    obtain ⟨first, others⟩ := List.forall_mem_cons.1 inside
    have fewer : fragments.tail.length ≤ rest.length + 1 := by
      rw [List.length_tail]
      exact Nat.sub_le_of_le_add fitting
    have together := (((leading fragments).append first).append_head (ih fewer others))
    have comments : Block.commentLines t ⟨[], fragments.take 1⟩ ++
        Block.commentLines t ⟨rest, fragments.tail⟩ =
          Block.commentLines t ⟨s :: rest, fragments⟩ := by
      cases fragments <;> simp [Block.commentLines, Block.comments]
    rw [comments] at together
    simpa [Stmt.piecesBetween, DraftPiece.lines, written, List.filter_append] using together

theorem Part.fragment_notMem_asPieces (parts : List Part) (text : String) :
    DraftPiece.fragment text ∉ parts.flatMap Part.asPieces := by
  intro mem
  obtain ⟨p, _, mem⟩ := List.mem_flatMap.1 mem
  unfold Part.asPieces at mem
  split at mem
  · cases mem
  · cases List.mem_singleton.1 mem

/-- Only a block has fragments of its own. -/
theorem Stmt.fragment_notMem_pieces (s : Stmt) (text : String) :
    DraftPiece.fragment text ∉ (Part.stmt s).pieces t := by
  cases s with
  | loop init cond update body =>
    have cond := Part.fragment_notMem_asPieces [.operand cond] text
    have update := Part.fragment_notMem_asPieces [.expr true update] text
    simp only [List.flatMap_singleton] at cond update
    cases t <;> simp [Part.pieces, Target.inLoop, cond, update]
  | _ => exact Part.fragment_notMem_asPieces _ text

/-- Pieces that are parts interleave what the parts interleave. -/
theorem interleaves_pieces {pieces : List DraftPiece}
    (noFragment : ∀ text, .fragment text ∉ pieces)
    (parts : ∀ q, .part q ∈ pieces →
      Interleaves (q.blocks.map (Block.commentLines t)) (written (q.lines t))) :
    Interleaves ((pieces.flatMap DraftPiece.blocks).map (Block.commentLines t))
      (written (pieces.flatMap (DraftPiece.lines t))) := by
  rw [List.map_flatMap, written, List.filter_flatMap]
  refine Interleaves.flatMap fun piece mem => ?_
  cases piece with
  | part q => exact parts q mem
  | fragment text => exact absurd mem (noFragment text)

/-- The lines of a part that are not blank interleave the comments of its blocks. -/
theorem Part.interleaves_lines {p : Part} (fitting : ∀ b ∈ p.blocks, b.IsFitting) :
    Interleaves (p.blocks.map (Block.commentLines t)) (written (p.lines t)) := by
  induction p using Part.induction with
  | step p ih =>
    rw [blocks_eq, List.forall_mem_append] at fitting
    obtain ⟨own, below⟩ := fitting
    have inside (q : Part) (isPart : q ∈ p.parts) :
        Interleaves (q.blocks.map (Block.commentLines t)) (written (q.lines t)) :=
      ih q isPart fun b mem => below b (List.mem_flatMap.2 ⟨q, isPart, mem⟩)
    rw [blocks_eq, lines_eq]
    cases p with
    | expr isStatement e =>
      have pieces := interleaves_pieces (Part.fragment_notMem_asPieces e.parts) fun q isPiece =>
        inside q (mem_flatMap_asPieces.1 isPiece).1
      rwa [flatMap_asPieces_parts] at pieces
    | stmt s =>
      have pieces := interleaves_pieces (s.fragment_notMem_pieces (t := t)) fun q isPiece =>
        inside q (mem_pieces.1 isPiece).1
      exact pieces.perm (s.perm_pieces.map _)
    | block b =>
      obtain ⟨stmts, fragments⟩ := b
      have fewEnough : fragments.length ≤ stmts.length + 1 := by
        rcases own _ (List.mem_singleton_self _) with none | all
        · rw [show fragments = [] from none]
          exact Nat.zero_le _
        · exact Nat.le_of_eq all
      exact Stmt.interleaves_between fewEnough fun s mem =>
        inside _ (List.mem_map_of_mem mem)

/-- The lines of a program that are not blank interleave the comments of its blocks. -/
theorem Unit.interleaves_lines {unit : Unit} (fitting : ∀ b ∈ unit.blocks, b.IsFitting) :
    Interleaves (unit.blocks.map (Block.commentLines t)) (written (unit.lines t)) := by
  have pieces := interleaves_pieces (t := t) (Part.fragment_notMem_asPieces unit.parts)
    fun q isPiece => Part.interleaves_lines fun b mem =>
      fitting b (List.mem_flatMap.2 ⟨q, (Part.mem_flatMap_asPieces.1 isPiece).1, mem⟩)
  rwa [Part.flatMap_asPieces_parts] at pieces

end Polyscript.Model
