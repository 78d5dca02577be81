import Polyscript.Layout.Writer
import Polyscript.Proofs.Layout.Assembly

/-!
# The blocks of structured literals

A writer that is told where structured literals begin and end opens a block for a literal only
while no other one is open. What it does to its page can be told apart from what it is told: it
opens a block, closes one, or carries out a mark that is neither the beginning nor the end of a
literal.

Marks are tiled by stretches if every literal in them ends that begins: a stretch is a single
mark outside of literals, or all that is written for a literal with whatever begins and ends
inside it. For a stretch of the second kind a writer opens one block, carries out what stands in
the literal, and closes the block.

## Main definitions

* `moves`: what a writer does to its page.
* `Tiled`: marks that are tiled by stretches.
* `Draft.Holds`: a draft in which given literals stand one behind the other.

## Main statements

* `page_foldl_follow`: the page of a writer by what it does to it.
* `Tiled.moves_outside`: one block is opened and closed for each literal of a tiling.
* `Draft.Assembles.holds`: a draft holds the literals of its pieces, in their order.
-/

namespace Polyscript

/-- What a writer does to its page. -/
inductive Move where
  /-- A block is opened. -/
  | opens
  /-- The block is closed. -/
  | closes
  | mark (m : Mark)
  deriving DecidableEq

/-- Do something to a page. -/
def Page.move (p : Page) : Move → Page
  | .opens => (p.write "json \x7b\n").indent
  | .closes => p.unindent.write "\n\x7d"
  | .mark m => p.follow m

/-- Whether a mark is neither the beginning nor the end of a structured literal. -/
def Mark.isContent : Mark → Bool
  | .enterJson | .leaveJson => false
  | .text _ | .indent | .unindent | .gap => true

/-- What a writer on which a number of literals are open does to its page when it is told
marks. -/
def moves : Nat → List Mark → List Move
  | _, [] => []
  | level, .enterJson :: rest => (if level = 0 then [.opens] else []) ++ moves (level + 1) rest
  | level, .leaveJson :: rest => (if level - 1 = 0 then [.closes] else []) ++ moves (level - 1) rest
  | level, m :: rest => .mark m :: moves level rest

/-- The marks that are carried out whether or not a block is open. -/
def contents (marks : List Mark) : List Move := (marks.filter Mark.isContent).map .mark

theorem moves_cons_of_isContent {m : Mark} (content : m.isContent) (level : Nat)
    (rest : List Mark) : moves level (m :: rest) = .mark m :: moves level rest := by
  cases m with
  | enterJson | leaveJson => cases content
  | text | indent | unindent | gap => rfl

theorem contents_cons_of_isContent {m : Mark} (content : m.isContent) (rest : List Mark) :
    contents (m :: rest) = .mark m :: contents rest := by
  rw [contents, List.filter_cons_of_pos content]
  rfl

theorem contents_append (marks rest : List Mark) :
    contents (marks ++ rest) = contents marks ++ contents rest := by
  rw [contents, List.filter_append, List.map_append]
  rfl

/-- The ends of a literal are not carried out as such. -/
theorem contents_literal (inner : List Mark) :
    contents (.enterJson :: (inner ++ [.leaveJson])) = contents inner := by
  change contents (inner ++ [.leaveJson]) = contents inner
  rw [contents_append]
  exact List.append_nil _

/-- The page of a writer is what its moves make of it. -/
theorem page_foldl_follow (marks : List Mark) (w : Writer) :
    (marks.foldl Writer.follow w).page = (moves w.jsonLevel marks).foldl Page.move w.page := by
  induction marks generalizing w with
  | nil => rfl
  | cons m rest ih =>
    rw [List.foldl_cons, ih]
    cases m with
    | enterJson =>
      rw [moves, List.foldl_append]
      change (moves (w.jsonLevel + 1) rest).foldl Page.move w.enterJson.page = _
      unfold Writer.enterJson
      split <;> rfl
    | leaveJson =>
      rw [moves, List.foldl_append]
      change (moves (w.jsonLevel - 1) rest).foldl Page.move w.leaveJson.page = _
      unfold Writer.leaveJson
      split <;> rfl
    | text | indent | unindent | gap => rfl

/-! ### Tilings -/

variable {α : Type} {drafted : α → List Mark}

/-- A part of marks: a single one outside of literals, or what is written for a literal. -/
inductive Stretch (α : Type) where
  | mark (m : Mark)
  | literal (a : α)

namespace Stretch

/-- The literal that a stretch is written for. -/
def literal? : Stretch α → Option α
  | .mark _ => none
  | .literal a => some a

variable (drafted)

/-- The marks of a stretch. -/
def marks : Stretch α → List Mark
  | .mark m => [m]
  | .literal a => drafted a

/-- What a writer on which no literal is open does to its page for a stretch: for a literal it
opens one block, carries out what stands in the literal, and closes the block. -/
def moves : Stretch α → List Move
  | .mark m => [.mark m]
  | .literal a => .opens :: contents (drafted a) ++ [.closes]

end Stretch

variable (drafted) in
/-- Marks that are tiled by stretches. Inside a literal there may be literals again, which end
before it does. -/
inductive Tiled : List (Stretch α) → List Mark → Prop where
  | nil : Tiled [] []
  | mark {m : Mark} {stretches : List (Stretch α)} {rest : List Mark} (content : m.isContent)
    (next : Tiled stretches rest) : Tiled (.mark m :: stretches) (m :: rest)
  | literal {a : α} {inside stretches : List (Stretch α)} {inner rest : List Mark}
    (isDraft : drafted a = .enterJson :: (inner ++ [.leaveJson])) (within : Tiled inside inner)
    (next : Tiled stretches rest) : Tiled (.literal a :: stretches) (drafted a ++ rest)

namespace Tiled

variable {stretches others : List (Stretch α)} {marks rest : List Mark}

theorem append (first : Tiled drafted stretches marks) (second : Tiled drafted others rest) :
    Tiled drafted (stretches ++ others) (marks ++ rest) := by
  induction first with
  | nil => exact second
  | mark content _ ih => exact .mark content ih
  | literal isDraft within _ _ ih =>
    rw [List.append_assoc]
    exact .literal isDraft within ih

/-- Marks outside of literals are tiled one by one. -/
theorem of_isContent (content : ∀ m ∈ marks, m.isContent) :
    Tiled drafted (marks.map .mark) marks := by
  induction marks with
  | nil => exact .nil
  | cons m rest ih =>
    obtain ⟨first, others⟩ := List.forall_mem_cons.1 content
    exact .mark first (ih others)

/-- The marks that are tiled are those of the stretches. -/
theorem marks_eq (tiled : Tiled drafted stretches marks) :
    marks = stretches.flatMap (Stretch.marks drafted) := by
  induction tiled with
  | nil => rfl
  | mark _ _ ih => rw [List.flatMap_cons, ← ih, Stretch.marks, List.singleton_append]
  | literal _ _ _ _ ih => rw [List.flatMap_cons, ← ih, Stretch.marks]

/-- What is no literal in a tiling is neither the beginning nor the end of one. -/
theorem isContent (tiled : Tiled drafted stretches marks) {m : Mark}
    (mem : .mark m ∈ stretches) : m.isContent := by
  induction tiled with
  | nil => cases mem
  | mark content _ ih =>
    rcases List.mem_cons.1 mem with same | mem
    · cases same
      exact content
    · exact ih mem
  | literal _ _ _ _ ih =>
    rcases List.mem_cons.1 mem with same | mem
    · cases same
    · exact ih mem

theorem literal_append {a : α} {inner : List Mark}
    (isDraft : drafted a = .enterJson :: (inner ++ [.leaveJson])) (marks rest : List Mark) :
    drafted a ++ marks ++ rest = .enterJson :: (inner ++ .leaveJson :: (marks ++ rest)) := by
  rw [isDraft]
  simp only [List.cons_append, List.append_assoc, List.nil_append]

/-- While a literal is open, no block is opened or closed for tiled marks, and as many literals
are open behind them as before. -/
theorem moves_inside (tiled : Tiled drafted stretches marks) (level : Nat) (rest : List Mark) :
    Polyscript.moves (level + 1) (marks ++ rest) =
      contents marks ++ Polyscript.moves (level + 1) rest := by
  induction tiled generalizing level rest with
  | nil => rfl
  | mark content _ ih =>
    rw [List.cons_append, moves_cons_of_isContent content, contents_cons_of_isContent content,
      ih, List.cons_append]
  | @literal a inside stretches inner marks isDraft within _ ih ih' =>
    have inLiteral : contents (drafted a) = contents inner := by
      rw [isDraft, contents_literal]
    -- the literal ends while another one is open still
    have stillOpen : level + 1 + 1 - 1 ≠ 0 := Nat.succ_ne_zero level
    rw [literal_append isDraft, Polyscript.moves, if_neg (Nat.succ_ne_zero level), List.nil_append,
      ih, Polyscript.moves, if_neg stillOpen, List.nil_append, Nat.add_sub_cancel, ih',
      contents_append, inLiteral, List.append_assoc]

/-- While no literal is open, a block is opened and closed for each literal of a tiling, and
none is open behind it. -/
theorem moves_outside (tiled : Tiled drafted stretches marks) (rest : List Mark) :
    Polyscript.moves 0 (marks ++ rest) =
      stretches.flatMap (Stretch.moves drafted) ++ Polyscript.moves 0 rest := by
  induction tiled generalizing rest with
  | nil => rfl
  | mark content _ ih =>
    rw [List.cons_append, moves_cons_of_isContent content, ih]
    rfl
  | @literal a inside stretches inner marks isDraft within _ _ ih =>
    have inLiteral : contents (drafted a) = contents inner := by
      rw [isDraft, contents_literal]
    -- the first literal opens the block, those inside of it do not, and its end closes the block
    rw [literal_append isDraft, Polyscript.moves, if_pos rfl, within.moves_inside,
      Polyscript.moves, if_pos rfl, ih, List.flatMap_cons, Stretch.moves, inLiteral]
    simp only [List.cons_append, List.append_assoc, List.nil_append]

end Tiled

/-! ### Drafts -/

namespace Draft

variable {ls ls' : List α} {d d' e : Draft}

variable (drafted) in
/-- Whether a draft, unless it breaks off, has literals standing in it one behind the other. -/
def Holds (ls : List α) (d : Draft) : Prop :=
  d.fault = none → ∃ stretches, Tiled drafted stretches d.marks ∧
    stretches.filterMap Stretch.literal? = ls

theorem Holds.of_isContent (content : ∀ m ∈ d.marks, m.isContent) : d.Holds drafted [] := by
  intro _
  refine ⟨_, .of_isContent content, ?_⟩
  rw [List.filterMap_map, List.filterMap_eq_nil_iff]
  exact fun _ _ => rfl

theorem Holds.text (s : String) : (Draft.text s).Holds drafted [] :=
  .of_isContent fun _ mem => by cases mem with | head => rfl | tail _ mem => cases mem

theorem Holds.empty : Draft.empty.Holds drafted [] :=
  .of_isContent fun _ mem => nomatch mem

theorem Holds.append (first : d.Holds drafted ls) (second : e.Holds drafted ls') :
    (d ++ e).Holds drafted (ls ++ ls') := by
  intro unbroken
  cases broken : d.fault with
  | some fault =>
    rw [append_of_fault broken, broken] at unbroken
    cases unbroken
  | none =>
    rw [append_of_unbroken broken] at unbroken ⊢
    obtain ⟨stretches, tiled, rfl⟩ := first broken
    obtain ⟨others, tiled', rfl⟩ := second unbroken
    exact ⟨_, tiled.append tiled', List.filterMap_append⟩

theorem Holds.closedBy {marks : List Mark} (content : ∀ m ∈ marks, m.isContent)
    (h : d.Holds drafted ls) : (d.closedBy marks).Holds drafted ls := by
  intro unbroken
  obtain ⟨stretches, tiled, same⟩ := h unbroken
  refine ⟨_, tiled.append (.of_isContent content), ?_⟩
  have none : (marks.map (Stretch.mark (α := α))).filterMap Stretch.literal? = [] := by
    rw [List.filterMap_map, List.filterMap_eq_nil_iff]
    exact fun _ _ => rfl
  rw [List.filterMap_append, none, List.append_nil, same]

/-- A literal holds itself alone, whatever literals stand in it. -/
theorem Holds.literal {a : α} (h : d.Holds drafted ls)
    (isDraft : drafted a = .enterJson :: (d.marks ++ [.leaveJson])) :
    ((Draft.mark .enterJson ++ d).closedBy [.leaveJson]).Holds drafted [a] := by
  intro unbroken
  obtain ⟨stretches, tiled, _⟩ := h unbroken
  have single : Tiled drafted [.literal a] (drafted a ++ []) := .literal isDraft tiled .nil
  rw [List.append_nil, isDraft] at single
  exact ⟨_, single, rfl⟩

/-- A draft whose glue marks no literals holds the literals of its pieces, in their order. -/
theorem Assembles.holds {ι : Type} {fills : Filling ι} {a b : Place} {is : List ι}
    (h : Assembles fills a b is d d') (none : ¬fills.literals) (literals : ι → List α)
    (pieces : ∀ i ∈ is, ∀ c e e', fills.fills i c e e' → e.Holds drafted (literals i)) :
    d.Holds drafted (is.flatMap literals) := by
  induction h with
  -- pieces bring literals, and the glue between them consists of other marks
  | piece filled => simpa using pieces _ (List.mem_singleton_self _) _ _ _ filled
  | text s => exact .text s
  | line ends => exact .text _
  | fail fault =>
    intro unbroken
    cases unbroken
  | empty => exact .empty
  | @step _ m isStep =>
    refine .of_isContent fun m' mem => ?_
    rw [List.mem_singleton.1 mem]
    cases m with
    | indent | unindent => rfl
    | _ => exact absurd isStep id
  | gap =>
    refine .of_isContent fun m mem => ?_
    rw [List.mem_singleton.1 mem]
    rfl
  | append _ _ ih ih' =>
    obtain ⟨left, right⟩ := List.forall_mem_append.1 pieces
    rw [List.flatMap_append]
    exact (ih left).append (ih' right)
  | closedBy plain _ ih =>
    refine (ih pieces).closedBy fun m mem => ?_
    have isPlain := List.all_eq_true.1 plain m mem
    cases m with
    | text | indent | unindent => rfl
    | _ => cases isPlain
  | literal marked => exact absurd marked none
  | starting _ ih | ending _ ih => exact ih pieces
  | part _ ih =>
    have ended := (ih pieces).append (Holds.text "\n")
    rwa [List.append_nil] at ended

end Draft

end Polyscript
