import Polyscript.Lowering.Fragment
import Polyscript.Proofs.Text.Lines

/-!
# Slicing

The fragments of a block are the whole lines of its text that no brace and no statement has a part
of, gap by gap. Reading on from statement to statement, the slice stands at a place at which a line
starts, or behind all lines of the block, and no line of the block is skipped but those that the
statement before has a part of.

A slice is checked against the text only in part: the end of a block may lie one byte behind the
end of the text.

## Main definitions

* `Lowering.IsBlock`: a block in braces with statements in it.
* `Lowering.IsFree`: the lines that stand free in a gap of a block.
* `Lowering.Stands`: where a slice stands in a block.

## Main statements

* `Lowering.IsBlock.fragments_free`: the fragments of a block are the lines that stand free in it.
* `Lowering.fits_iff_of_fragments`: where a slice gives fragments, the spans fit the text unless the
  end of the block is one byte behind it.
-/

namespace Polyscript

open Source (Span)
open Text

/-- Whether a piece of a text is what stands at a span. -/
def Source.Span.Holds (span : Span) (source piece : String) : Prop :=
  ∃ before after, source = before ++ piece ++ after ∧ span.start = before.utf8ByteSize ∧
    span.stop = (before ++ piece).utf8ByteSize

theorem Source.Span.Holds.isPlace_stop {span : Span} {source piece : String}
    (holds : span.Holds source piece) : IsPlace source span.stop := by
  obtain ⟨before, after, rfl, -, stop⟩ := holds
  refine ⟨(before ++ piece).toList, after.toList, by simp, ?_⟩
  rw [stop, utf8ByteSize_eq_size]

namespace Lowering

/-- A block in braces and statements between its braces, none of them empty, one behind the
other. -/
structure IsBlock (source : String) (block : Span) (stmts : List Span) : Prop where
  braces : ∃ inside, block.Holds source ("\x7b" ++ inside ++ "\x7d")
  holds : ∀ s ∈ stmts, ∃ piece, piece ≠ "" ∧ s.Holds source piece
  between : ∀ s ∈ stmts, block.start < s.start ∧ s.stop < block.stop
  ordered : stmts.Pairwise fun s s' => s.stop ≤ s'.start

/-- The statement before a gap; the first gap has none before it. -/
def previous? (stmts : List Span) : Nat → Option Span
  | 0 => none
  | i + 1 => stmts[i]?

/-- Whether a line stands free in the gap before a statement, or behind the last one: it starts
behind the line of the opening brace and ends before that of the closing one, has no byte of a
statement, and lies behind the statement before the gap and before the one after it. -/
def IsFree (block : Span) (stmts : List Span) (i : Nat) (l : WholeLine) : Prop :=
  (block.start < l.start ∧ l.stop < block.stop) ∧
    (∀ s ∈ stmts, l.stop ≤ s.start ∨ s.stop ≤ l.start) ∧
    (∀ s ∈ previous? stmts i, s.stop ≤ l.start) ∧ ∀ s ∈ stmts[i]?, l.stop ≤ s.start

instance (block : Span) (stmts : List Span) (i : Nat) (l : WholeLine) :
    Decidable (IsFree block stmts i l) :=
  inferInstanceAs (Decidable (_ ∧ _ ∧ _ ∧ _))

/-- The text of the lines that stand free in a gap. -/
def freeText (source : String) (block : Span) (stmts : List Span) (i : Nat) : String :=
  String.ofList (((wholeLines source).filter fun l => IsFree block stmts i l).flatMap
    WholeLine.text)

/-! ### Gaps -/

/-- What is left between two places by spans that lie there one behind the other. -/
def gaps (start stop : Nat) : List Span → List Span
  | [] => [⟨start, stop⟩]
  | s :: rest => ⟨start, s.start⟩ :: gaps s.stop stop rest

theorem length_gaps (start stop : Nat) (stmts : List Span) :
    (gaps start stop stmts).length = stmts.length + 1 := by
  induction stmts generalizing start with
  | nil => rfl
  | cons s rest ih => simp [gaps, ih]

/-- A gap reaches from the statement before it to the one after it. -/
theorem getElem?_gaps (start stop : Nat) {i : Nat} {stmts : List Span} (le : i ≤ stmts.length) :
    (gaps start stop stmts)[i]? =
      some ⟨((previous? stmts i).map Span.stop).getD start,
        (stmts[i]?.map Span.start).getD stop⟩ := by
  induction stmts generalizing start i with
  | nil =>
    obtain rfl := Nat.le_zero.1 le
    rfl
  | cons s rest ih =>
    cases i with
    | zero => rfl
    | succ i =>
      rw [gaps, List.getElem?_cons_succ, ih _ (Nat.le_of_succ_le_succ le)]
      cases i with
      | zero => rfl
      | succ i =>
        have inside : i < rest.length := Nat.le_of_succ_le_succ le
        simp [previous?, inside]

section Block

variable {source : String} {block : Span} {stmts : List Span}

namespace IsBlock

variable (isBlock : IsBlock source block stmts)
include isBlock

/-- No statement is empty. -/
theorem start_lt_stop {s : Span} (mem : s ∈ stmts) : s.start < s.stop := by
  obtain ⟨piece, nonempty, before, after, -, start, stop⟩ := isBlock.holds s mem
  have positive : piece.utf8ByteSize ≠ 0 := mt String.utf8ByteSize_eq_zero_iff.1 nonempty
  rw [String.utf8ByteSize_append] at stop
  omega

/-- A statement is the same as a later one or before it. -/
theorem le_of_le {j k : Nat} (le : j ≤ k) (inside : k < stmts.length) :
    stmts[j].start ≤ stmts[k].start ∧ stmts[j].stop ≤ stmts[k].stop := by
  rcases Nat.lt_or_eq_of_le le with lt | rfl
  · have := List.pairwise_iff_getElem.1 isBlock.ordered j k (by omega) inside lt
    have := isBlock.start_lt_stop (List.getElem_mem (by omega : j < stmts.length))
    have := isBlock.start_lt_stop (List.getElem_mem inside)
    omega
  · exact ⟨Nat.le_refl _, Nat.le_refl _⟩

/-- Behind the beginning of a gap is behind the opening brace and all statements before the gap. -/
theorem behind {i place : Nat} (le : i ≤ stmts.length)
    (behind : ((previous? stmts i).map Span.stop).getD (block.start + 1) ≤ place) :
    block.start < place ∧ ∀ j, ∀ lt : j < i, stmts[j].stop ≤ place := by
  cases i with
  | zero => exact ⟨behind, fun j lt => absurd lt (Nat.not_lt_zero j)⟩
  | succ i =>
    rw [previous?, List.getElem?_eq_getElem le] at behind
    replace behind : stmts[i].stop ≤ place := behind
    have opened := (isBlock.between _ (List.getElem_mem le)).1
    have nonempty := isBlock.start_lt_stop (List.getElem_mem le)
    refine ⟨by omega, fun j lt => ?_⟩
    have := isBlock.le_of_le (Nat.le_of_lt_succ lt) le
    omega

/-- Before the end of a gap is before the closing brace and all statements behind the gap. -/
theorem before {i place : Nat}
    (before : place ≤ (stmts[i]?.map Span.start).getD (block.stop - 1)) (positive : 0 < place) :
    place < block.stop ∧ ∀ j, i ≤ j → ∀ inside : j < stmts.length, place ≤ stmts[j].start := by
  rcases Nat.lt_or_ge i stmts.length with lt | ge
  · rw [List.getElem?_eq_getElem lt] at before
    replace before : place ≤ stmts[i].start := before
    have closed := (isBlock.between _ (List.getElem_mem lt)).2
    have nonempty := isBlock.start_lt_stop (List.getElem_mem lt)
    refine ⟨by omega, fun j le inside => ?_⟩
    have := isBlock.le_of_le le inside
    omega
  · rw [List.getElem?_eq_none ge] at before
    replace before : place ≤ block.stop - 1 := before
    exact ⟨by omega, fun j le inside => by omega⟩

/-- In a block, a line stands free in a gap just where it lies between the ends of the gap. -/
theorem isFree_iff {i : Nat} (le : i ≤ stmts.length) {l : WholeLine} (forward : l.start < l.stop) :
    IsFree block stmts i l ↔
      ((previous? stmts i).map Span.stop).getD (block.start + 1) ≤ l.start ∧
        l.stop ≤ (stmts[i]?.map Span.start).getD (block.stop - 1) := by
  constructor
  · rintro ⟨⟨opened, closed⟩, -, behind, before⟩
    constructor
    · cases h : previous? stmts i with
      | none => exact opened
      | some s => exact behind s h
    · cases h : stmts[i]? with
      | none => exact Nat.le_sub_one_of_lt closed
      | some s => exact before s h
  · rintro ⟨behind, before⟩
    obtain ⟨opened, behind'⟩ := isBlock.behind le behind
    obtain ⟨closed, before'⟩ := isBlock.before before (by omega)
    refine ⟨⟨opened, closed⟩, fun s mem => ?_, fun s isPrevious => ?_, fun s isNext => ?_⟩
    · obtain ⟨j, inside, rfl⟩ := List.getElem_of_mem mem
      exact (Nat.lt_or_ge j i).symm.imp (before' j · inside) (behind' j)
    · rw [Option.mem_def.1 isPrevious] at behind
      exact behind
    · rw [Option.mem_def.1 isNext] at before
      exact before

end IsBlock

end Block

/-! ### Where a slice stands -/

section Steps

variable {source : String} {stop last place : Nat}

/-- A slice that stands at a place, behind a statement that ends at `last`, in a block whose last
whole line ends at `stop`. Lines start at both places, or the slice is behind the lines of the
block; it has skipped none that lies behind the statement. -/
structure Stands (source : String) (stop last place : Nat) : Prop where
  isPlace : IsPlace source place
  le : last ≤ place
  aligned : place < stop →
    startsLine (bytes source) place = true ∧ startsLine (bytes source) stop = true
  skips : ∀ l ∈ wholeLines source, l.stop ≤ stop → last ≤ l.start → place ≤ l.start

/-- The end of the fragment before a statement. -/
def fragmentEnd (source : String) (stop place : Nat) (s : Span) : Nat :=
  lineUpTo (bytes source) place (max place (min s.start (max stop place)))

/-- Where a slice goes on behind a statement. -/
def resume (source : String) (stop place : Nat) (s : Span) : Nat :=
  lineFrom (bytes source) stop (max s.stop (fragmentEnd source stop place s))

theorem le_fragmentEnd (source : String) (stop place : Nat) (s : Span) :
    place ≤ fragmentEnd source stop place s :=
  le_lineUpTo (Nat.le_max_left ..)

theorem fragmentEnd_le (source : String) (stop place : Nat) (s : Span) :
    fragmentEnd source stop place s ≤ max place (min s.start stop) := by
  have := lineUpTo_le (bytes source) place (max place (min s.start (max stop place)))
  rw [fragmentEnd]
  omega

/-- The fragment before a statement ends where a line starts, or is empty. -/
theorem startsLine_fragmentEnd (source : String) (stop place : Nat) (s : Span) :
    startsLine (bytes source) (fragmentEnd source stop place s) = true ∨
      fragmentEnd source stop place s = place :=
  startsLine_lineUpTo (Nat.le_max_left ..)

namespace Stands

variable (stands : Stands source stop last place)
include stands

/-- The fragment before a statement is the lines between the statement before it and this one. -/
theorem cut?_fragmentEnd {s : Span}
    (kept : ∀ l ∈ wholeLines source, l.stop ≤ s.start → l.stop ≤ stop) :
    cut? source.toList place (fragmentEnd source stop place s) =
      some (linesBetween source last s.start) := by
  have end_le := fragmentEnd_le source stop place s
  have aligned : place < fragmentEnd source stop place s →
      startsLine (bytes source) place = true ∧
        startsLine (bytes source) (fragmentEnd source stop place s) = true := fun nonempty =>
    ⟨(stands.aligned (by omega)).1, (startsLine_fragmentEnd ..).resolve_right (by omega)⟩
  rw [cut?_lines (le_fragmentEnd ..) stands.isPlace aligned]
  have le := stands.le
  refine congrArg some (linesBetween_congr fun l mem forward => ?_)
  constructor
  · rintro ⟨behind, before⟩
    exact ⟨by omega, by omega⟩
  · rintro ⟨behind, before⟩
    have inside := kept l mem before
    have behind' := stands.skips l mem inside behind
    -- where the line ends another one starts, so the scan backward does not pass it
    exact ⟨behind', le_lineUpTo_of_startsLine (l.startsLine_stop mem) (by omega)⟩

theorem isPlace_fragmentEnd (s : Span) : IsPlace source (fragmentEnd source stop place s) := by
  rcases startsLine_fragmentEnd source stop place s with starts | same
  · exact isPlace_of_startsLine starts
  · rw [same]
    exact stands.isPlace

/-- Behind a statement the slice goes on where the next line starts. -/
theorem next {s : Span} (behind : last ≤ s.start) (forward : s.start ≤ s.stop)
    (isPlace : IsPlace source s.stop) :
    Stands source stop s.stop (resume source stop place s) where
  isPlace := by
    rcases startsLine_lineFrom (bytes source) stop
      (max s.stop (fragmentEnd source stop place s)) with starts | limited
    · exact isPlace_of_startsLine starts
    · -- the scan has been limited, to the greatest of three places
      have end_ge := le_fragmentEnd source stop place s
      have choice : resume source stop place s = s.stop ∨
          resume source stop place s = fragmentEnd source stop place s ∨
          resume source stop place s = stop ∧ place < stop := by
        rw [resume]
        omega
      rcases choice with same | same | ⟨same, inside⟩ <;> rw [same]
      · exact isPlace
      · exact stands.isPlace_fragmentEnd s
      · exact isPlace_of_startsLine (stands.aligned inside).2
  le := Nat.le_trans (Nat.le_max_left ..) (le_lineFrom ..)
  aligned before := by
    have from_le := le_lineFrom (bytes source) stop
      (max s.stop (fragmentEnd source stop place s))
    have end_ge := le_fragmentEnd source stop place s
    rw [resume] at before ⊢
    exact ⟨(startsLine_lineFrom ..).resolve_right (by omega), (stands.aligned (by omega)).2⟩
  skips l mem inside after := by
    have forward' := l.start_lt_stop mem
    have end_le := fragmentEnd_le source stop place s
    have behind' := stands.skips l mem inside (by omega)
    -- the fragment ends before the line too: it ends before the statement or is empty
    exact lineFrom_le_of_startsLine (l.startsLine_start mem) (by omega)

/-- The last fragment is the lines behind the last statement. -/
theorem cut?_last {limit : Nat} (stop_le : stop ≤ limit)
    (kept : ∀ l ∈ wholeLines source, l.stop ≤ limit → l.stop ≤ stop) :
    cut? source.toList place (max stop place) = some (linesBetween source last limit) := by
  have aligned : place < max stop place → startsLine (bytes source) place = true ∧
      startsLine (bytes source) (max stop place) = true := by
    intro before
    rw [Nat.max_eq_left (by omega)]
    exact stands.aligned (by omega)
  rw [cut?_lines (Nat.le_max_right ..) stands.isPlace aligned]
  have le := stands.le
  refine congrArg some (linesBetween_congr fun l mem forward => ?_)
  constructor
  · rintro ⟨behind, before⟩
    exact ⟨by omega, by omega⟩
  · rintro ⟨behind, before⟩
    have inside := kept l mem before
    exact ⟨stands.skips l mem inside behind, by omega⟩

end Stands

/-- A slice first stands where a line starts behind the opening brace, or at the closing one. -/
theorem stands_first {first limit : Nat} (le : first ≤ limit) (isLimit : IsPlace source limit) :
    Stands source (lineUpTo (bytes source) (lineFrom (bytes source) limit first) limit) first
      (lineFrom (bytes source) limit first) where
  isPlace := by
    rcases startsLine_lineFrom (bytes source) limit first with starts | limited
    · exact isPlace_of_startsLine starts
    · rw [limited, Nat.max_eq_left le]
      exact isLimit
  le := le_lineFrom ..
  aligned before := by
    have from_le := lineFrom_le (bytes source) limit first
    have upTo_le := lineUpTo_le (bytes source) (lineFrom (bytes source) limit first) limit
    exact ⟨(startsLine_lineFrom ..).resolve_right (by omega),
      (startsLine_lineUpTo (by omega)).resolve_right (by omega)⟩
  skips l mem _ behind := lineFrom_le_of_startsLine (l.startsLine_start mem) behind

/-- The pieces of a block are the lines in the gaps between its statements. -/
theorem pieces_eq {limit : Nat} (stop_le : stop ≤ limit)
    (kept : ∀ l ∈ wholeLines source, l.stop ≤ limit → l.stop ≤ stop) {stmts : List Span}
    (spans : ∀ s ∈ stmts, last ≤ s.start ∧ s.start ≤ s.stop ∧ s.stop ≤ limit ∧
      IsPlace source s.stop)
    (ordered : stmts.Pairwise fun s s' => s.stop ≤ s'.start)
    (stands : Stands source stop last place) :
    pieces source.toList (bytes source) stop place stmts =
      some ((gaps last limit stmts).map fun gap =>
        String.ofList (linesBetween source gap.start gap.stop)) := by
  induction stmts generalizing last place with
  | nil =>
    rw [pieces, stands.cut?_last stop_le kept]
    rfl
  | cons s rest ih =>
    obtain ⟨⟨behind, forward, inside, isPlace⟩, spans⟩ := List.forall_mem_cons.1 spans
    obtain ⟨before, ordered⟩ := List.pairwise_cons.1 ordered
    have fragment := stands.cut?_fragmentEnd (s := s) fun l mem le => kept l mem (by omega)
    have tail := ih (fun s' mem => ⟨before s' mem, (spans s' mem).2⟩) ordered
      (stands.next behind forward isPlace)
    rw [resume, fragmentEnd] at tail
    rw [fragmentEnd] at fragment
    simp only [pieces, fragment, tail]
    rfl

end Steps

/-! ### Blocks -/

section Block

variable {source : String} {block : Span} {stmts : List Span}

/-- A scan for an opening brace ends behind one that it begins with. -/
theorem afterBrace_of_brace {text : Array UInt8} {limit place : Nat} (lt : place < limit)
    (brace : text[place]? = some openBrace) : afterBrace text limit place = place + 1 := by
  rw [afterBrace, if_pos lt, if_pos (by simp [brace])]

theorem afterBrace_le (text : Array UInt8) {limit place : Nat} (le : place ≤ limit) :
    afterBrace text limit place ≤ limit := by
  fun_induction afterBrace text limit place with
  | case1 | case3 => omega
  | case2 place lt _ ih => exact ih lt

/-- The fragments of a block are the lines in the gaps that its statements leave between the first
place behind an opening brace and the last byte of the block. -/
theorem fragments_eq_gaps (positive : 0 < block.stop) (le : block.start ≤ block.stop - 1)
    (isLimit : IsPlace source (block.stop - 1))
    (spans : ∀ s ∈ stmts, afterBrace (bytes source) (block.stop - 1) block.start ≤ s.start ∧
      s.start ≤ s.stop ∧ s.stop ≤ block.stop - 1 ∧ IsPlace source s.stop)
    (ordered : stmts.Pairwise fun s s' => s.stop ≤ s'.start) :
    fragments? source block stmts =
      some ((gaps (afterBrace (bytes source) (block.stop - 1) block.start) (block.stop - 1)
        stmts).map fun gap => String.ofList (linesBetween source gap.start gap.stop)) := by
  have limit_le := isLimit.le
  have accepted : ¬((block.stop = 0 ∨ (bytes source).size < block.stop - 1) ∨
      block.stop - 1 < block.start) := by omega
  have stands := stands_first (afterBrace_le (bytes source) le) isLimit
  have read := pieces_eq (lineUpTo_le ..)
    (fun l mem => le_lineUpTo_of_startsLine (l.startsLine_stop mem)) spans ordered stands
  simp only [fragments?, Bool.or_eq_true, decide_eq_true_eq, if_neg accepted, read]

namespace IsBlock

variable (isBlock : IsBlock source block stmts)
include isBlock

/-- The characters of a block. -/
theorem toList :
    ∃ front inside back, source.toList = front ++ '\x7b' :: (inside ++ '\x7d' :: back) ∧
      size front = block.start ∧ block.start + 1 + size inside + 1 = block.stop := by
  obtain ⟨inside, before, after, rfl, start, stop⟩ := isBlock.braces
  rw [utf8ByteSize_eq_size] at start stop
  refine ⟨before.toList, inside.toList, after.toList, by simp, start.symm, ?_⟩
  have opening : size "\x7b".toList = 1 := rfl
  have closing : size "\x7d".toList = 1 := rfl
  simp only [String.toList_append, size_append] at stop
  omega

/-- The lines in the gaps between the braces and the statements are those that stand free. -/
theorem map_gaps :
    (gaps (block.start + 1) (block.stop - 1) stmts).map
        (fun gap => String.ofList (linesBetween source gap.start gap.stop)) =
      (List.range (stmts.length + 1)).map (freeText source block stmts) := by
  refine List.ext_getElem (by simp [length_gaps]) fun i inside _ => ?_
  rw [List.length_map, length_gaps] at inside
  have gap := getElem?_gaps (block.start + 1) (block.stop - 1) (Nat.le_of_lt_succ inside)
  rw [List.getElem?_eq_getElem (by rwa [length_gaps]), Option.some.injEq] at gap
  rw [List.getElem_map, List.getElem_map, List.getElem_range, gap, freeText, linesBetween]
  congr 2
  refine List.filter_congr fun l mem => ?_
  rw [Bool.eq_iff_iff, WholeLine.isWithin_iff, decide_eq_true_iff,
    isBlock.isFree_iff (Nat.le_of_lt_succ inside) (l.start_lt_stop mem)]

/-- The fragments of a block are the lines that stand free in it, gap by gap. -/
theorem fragments_free :
    fragments? source block stmts =
      some ((List.range (stmts.length + 1)).map (freeText source block stmts)) := by
  obtain ⟨front, inside, back, split, start, stop⟩ := isBlock.toList
  have brace : (bytes source)[block.start]? = some openBrace :=
    (getElem?_bytes_iff (c := '\x7b') (by decide)).2 ⟨front, _, split, start⟩
  have first : afterBrace (bytes source) (block.stop - 1) block.start = block.start + 1 :=
    afterBrace_of_brace (by omega) brace
  have isLimit : IsPlace source (block.stop - 1) := by
    refine ⟨front ++ '\x7b' :: inside, '\x7d' :: back, by simp [split], ?_⟩
    have opening : Char.utf8Size '\x7b' = 1 := rfl
    rw [size_append, size_cons]
    omega
  have spans : ∀ s ∈ stmts, block.start + 1 ≤ s.start ∧ s.start ≤ s.stop ∧
      s.stop ≤ block.stop - 1 ∧ IsPlace source s.stop := by
    intro s mem
    have between := isBlock.between s mem
    have forward := isBlock.start_lt_stop mem
    obtain ⟨piece, -, holds⟩ := isBlock.holds s mem
    exact ⟨between.1, by omega, by omega, holds.isPlace_stop⟩
  rw [fragments_eq_gaps (by omega) (by omega) isLimit (by rwa [first]) isBlock.ordered, first,
    isBlock.map_gaps]

end IsBlock

/-- A method with two calls on one line, between comments and an empty line. -/
def twoCalls : String := "m() \x7b\r\n  // grüße\r\n  a(); b();\r\n\r\n  // done\r\n\x7d\n"

theorem fragments_free_twoCalls :
    IsBlock twoCalls ⟨4, 48⟩ [⟨23, 27⟩, ⟨28, 32⟩] ∧
      fragments? twoCalls ⟨4, 48⟩ [⟨23, 27⟩, ⟨28, 32⟩] =
        some ["  // grüße\r\n", "", "\r\n  // done\r\n"] := by
  have isBlock : IsBlock twoCalls ⟨4, 48⟩ [⟨23, 27⟩, ⟨28, 32⟩] := by
    refine ⟨⟨"\r\n  // grüße\r\n  a(); b();\r\n\r\n  // done\r\n", "m() ", "\n", ?_⟩, ?_, ?_, ?_⟩
    · decide
    · intro s mem
      rcases List.mem_pair.1 mem with rfl | rfl
      · exact ⟨"a();", by decide, "m() \x7b\r\n  // grüße\r\n  ",
          " b();\r\n\r\n  // done\r\n\x7d\n", by decide⟩
      · exact ⟨"b();", by decide, "m() \x7b\r\n  // grüße\r\n  a(); ",
          "\r\n\r\n  // done\r\n\x7d\n", by decide⟩
    · decide
    · decide
  refine ⟨isBlock, isBlock.fragments_free.trans ?_⟩
  decide

/-! ### Spans that do not fit -/

/-- Statements of which there are pieces end in the text. -/
theorem le_of_pieces {stop place : Nat} {fragments : List String}
    (read : pieces source.toList (bytes source) stop place stmts = some fragments) :
    place ≤ (bytes source).size ∧ ∀ s ∈ stmts, s.stop ≤ (bytes source).size := by
  induction stmts generalizing place fragments with
  | nil =>
    obtain ⟨last, cut, -⟩ := Option.bind_eq_some_iff.1 read
    have := le_of_cut? cut
    exact ⟨by omega, fun s mem => absurd mem List.not_mem_nil⟩
  | cons s rest ih =>
    rw [pieces] at read
    obtain ⟨piece, cut, read⟩ := Option.bind_eq_some_iff.1 read
    obtain ⟨others, read, -⟩ := Option.bind_eq_some_iff.1 read
    obtain ⟨next_le, rest_le⟩ := ih read
    have piece_le : fragmentEnd source stop place s ≤ (bytes source).size := le_of_cut? cut
    have from_le := le_lineFrom (bytes source) stop
      (max s.stop (fragmentEnd source stop place s))
    rw [fragmentEnd] at from_le
    exact ⟨Nat.le_trans (le_fragmentEnd ..) piece_le,
      List.forall_mem_cons.2 ⟨by omega, rest_le⟩⟩

/-- Where a slice gives fragments, the spans fit the text, unless the block ends one byte behind
it. -/
theorem fits_iff_of_fragments {fragments : List String}
    (sliced : fragments? source block stmts = some fragments) :
    (block.start < block.stop ∧ block.stop ≤ source.utf8ByteSize ∧
        ∀ s ∈ stmts, s.stop ≤ source.utf8ByteSize) ↔
      block.stop ≠ source.utf8ByteSize + 1 := by
  have size : (bytes source).size = source.utf8ByteSize := rfl
  rw [fragments?] at sliced
  simp only [Bool.or_eq_true, decide_eq_true_eq, Option.ite_none_left_eq_some, size] at sliced
  obtain ⟨accepted, read⟩ := sliced
  have stmts_le := (le_of_pieces read).2
  rw [size] at stmts_le
  constructor
  · rintro ⟨-, fits, -⟩
    omega
  · intro notPast
    exact ⟨by omega, by omega, stmts_le⟩

theorem fits_iff_of_fragments_call :
    fragments? "\x7b a(); \x7d" ⟨0, 8⟩ [⟨2, 6⟩] = some ["", ""] ∧
      ((0 < 8 ∧ 8 ≤ "\x7b a(); \x7d".utf8ByteSize ∧
          ∀ s ∈ [(⟨2, 6⟩ : Span)], s.stop ≤ "\x7b a(); \x7d".utf8ByteSize) ↔
        8 ≠ "\x7b a(); \x7d".utf8ByteSize + 1) := by
  have sliced : fragments? "\x7b a(); \x7d" ⟨0, 8⟩ [⟨2, 6⟩] = some ["", ""] := by decide +kernel
  exact ⟨sliced, fits_iff_of_fragments sliced⟩

/-- A block that ends one byte behind a text is accepted, wherever it begins: its fragment is the
lines up to the end of the text. -/
theorem fragments_past_end {start : Nat} (le : start ≤ source.utf8ByteSize) :
    fragments? source ⟨start, source.utf8ByteSize + 1⟩ [] =
      some [String.ofList (linesBetween source
        (afterBrace (bytes source) source.utf8ByteSize start) source.utf8ByteSize)] := by
  have isLimit : IsPlace source source.utf8ByteSize :=
    ⟨source.toList, [], by simp, (utf8ByteSize_eq_size source).symm⟩
  exact fragments_eq_gaps (Nat.succ_pos _) le isLimit (List.forall_mem_nil _) .nil

example : fragments? "\x7b\n  // lost\n" ⟨0, 13⟩ [] = some ["  // lost\n"] := by decide +kernel

/-- The end of a block is not checked against the end of the text but against the byte behind
it. -/
theorem not_fits_of_fragments :
    ¬ ∀ (source : String) (block : Span) (stmts : List Span) (fragments : List String),
      fragments? source block stmts = some fragments →
        block.start < block.stop ∧ block.stop ≤ source.utf8ByteSize ∧
          ∀ s ∈ stmts, s.stop ≤ source.utf8ByteSize := by
  intro fits
  have accepted : fragments? "\x7b\x7d" ⟨0, 3⟩ [] = some [""] := by decide +kernel
  exact absurd (fits _ _ _ _ accepted).2.1 (by decide)

end Block

end Lowering

end Polyscript
