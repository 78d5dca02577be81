import Polyscript.Source.Tree
import Polyscript.Text.Offset

/-!
# Fragments of a block

The fragments of a block are the whole lines of source text between its statements:
one fragment before each statement and one after the last. A line that a brace or a
statement has a part of belongs to no fragment.

All places are byte offsets. Spans that do not fit the text give no fragments.
-/

namespace Polyscript.Lowering

open Source (Span)

/-- The first place from `place` on, but none after `limit`, that follows an opening
brace; without a brace it is the limit. -/
def afterBrace (text : Array UInt8) (limit place : Nat) : Nat :=
  if place < limit then
    if text[place]? == some Text.openBrace then place + 1 else afterBrace text limit (place + 1)
  else place
termination_by limit - place

/-- The pieces of text before each statement and after the last, from a place on, in a
block whose last whole line ends at `stop`. -/
def pieces (source : List Char) (text : Array UInt8) (stop : Nat) (place : Nat) :
    List Span → Option (List String)
  | [] => do
    let last ← Text.cut? source place (max stop place)
    return [String.ofList last]
  | span :: rest => do
    let start := max place (min span.start (max stop place))
    let start := Text.lineUpTo text place start
    let piece ← Text.cut? source place start
    let next := Text.lineFrom text stop (max span.stop start)
    return String.ofList piece :: (← pieces source text stop next rest)

/-- The fragments of a block, given where the block and its statements stand. -/
def fragments? (source : String) (block : Span) (stmts : List Span) : Option (List String) :=
  let text := Text.bytes source
  let stop := block.stop - 1
  if block.stop = 0 || text.size < stop || stop < block.start then none
  else
    let start := Text.lineFrom text stop (afterBrace text stop block.start)
    pieces source.toList text (Text.lineUpTo text start stop) start stmts

end Polyscript.Lowering
