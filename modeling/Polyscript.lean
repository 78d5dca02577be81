import Polyscript.Compilation
import Polyscript.Config.Reading
import Polyscript.Config.Writing
import Polyscript.Model.Decode
import Polyscript.Text.Blank
import Polyscript.Toml.Reader
import Polyscript.Types.Resolver
import Polyscript.Proofs.Lowering.Congruence
import Polyscript.Proofs.Lowering.Loop
import Polyscript.Proofs.Lowering.Uses
import Polyscript.Proofs.Lowering.Reach
import Polyscript.Proofs.Lowering.Memo
import Polyscript.Proofs.Model.Nodes
import Polyscript.Proofs.Model.Uses
import Polyscript.Proofs.Lowering.Noting
import Polyscript.Proofs.Lowering.Defined
import Polyscript.Proofs.Lowering.Supported
import Polyscript.Proofs.Lowering.Fields
import Polyscript.Proofs.Lowering.Removal
import Polyscript.Proofs.Lowering.Callback
import Polyscript.Proofs.Formatting
import Polyscript.Proofs.Grouping
import Polyscript.Proofs.Model.Congruence
import Polyscript.Proofs.Layout.Steady
import Polyscript.Proofs.Layout.Counting
import Polyscript.Proofs.Model.Writing
import Polyscript.Proofs.Spelling.Unbroken
import Polyscript.Proofs.Model.Rejection
import Polyscript.Proofs.Json.Lexing
import Polyscript.Proofs.Json.Reading
import Polyscript.Proofs.Json.Outline
import Polyscript.Proofs.Source.RoundTrip
import Polyscript.Proofs.Layout.Assembly
import Polyscript.Proofs.Spelling.Assembly
import Polyscript.Proofs.Model.Assembly
import Polyscript.Proofs.Layout.Interleaving
import Polyscript.Proofs.Model.Comments
import Polyscript.Proofs.Model.Rendered
import Polyscript.Proofs.Comments
import Polyscript.Proofs.Model.Mention
import Polyscript.Proofs.Capture
import Polyscript.Proofs.Hygiene
import Polyscript.Proofs.Overwriting
import Polyscript.Proofs.Balance
import Polyscript.Proofs.Blocks
import Polyscript.Proofs.Lowering.Binding
import Polyscript.Proofs.LeftEdge
import Polyscript.Proofs.Properties
import Polyscript.Proofs.Kinds
import Polyscript.Proofs.Indentation
import Polyscript.Proofs.Text.Lines
import Polyscript.Proofs.Slicing
import Polyscript.Proofs.Spelling.Quoting
import Polyscript.Proofs.Literals
import Polyscript.Proofs.Chaining
import Polyscript.Proofs.Phrase.Comparison
import Polyscript.Proofs.Phrase.Formula
import Polyscript.Proofs.Checks
import Polyscript.Proofs.Ranges
import Polyscript.Proofs.Parentheses
import Polyscript.Proofs.Summing
import Polyscript.Proofs.Strokes
import Polyscript.Proofs.Types.Ancestry
import Polyscript.Proofs.Arguments
import Polyscript.Proofs.Coercions
import Polyscript.Proofs.Stacking
import Polyscript.Proofs.Lowering.Cascade
import Polyscript.Proofs.Source.Numbering
