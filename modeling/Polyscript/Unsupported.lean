import Polyscript.Model.Operator
import Polyscript.Source.Program

/-!
# Unsupported constructs

A compilation either succeeds or meets a construct outside the supported subset.
The cause says which one; it belongs to one kind of construct, and its message
names the kind and the detail.
-/

namespace Polyscript

open Model (Stream UnaryOp BinaryOp)
open Source (BinaryKind SymbolKind)

/-- The kinds of constructs that can be unsupported. -/
inductive Construct where
  | loop
  | tryStatement
  | methodReference
  | binaryOperator
  | unaryOperator
  | literal
  | coercion
  | statement
  | expression
  | invocation
  | construction
  | lambda
  | throw
  | rendering
  | symbol
  | unit
  deriving DecidableEq

/-- The words for a kind of construct. -/
def Construct.words : Construct → String
  | .loop => "loop"
  | .tryStatement => "try statement"
  | .methodReference => "method reference"
  | .binaryOperator => "binary operator"
  | .unaryOperator => "unary operator"
  | .literal => "literal"
  | .coercion => "coercion"
  | .statement => "statement"
  | .expression => "expression"
  | .invocation => "method invocation"
  | .construction => "construction"
  | .lambda => "lambda"
  | .throw => "throw"
  | .rendering => "rendering"
  | .symbol => "symbol"
  | .unit => "unit"

/-- The receivers that answer a few calls only. -/
inductive CallTarget where
  | console
  | consoleClass
  | arrayUtility
  | asyncResult
  deriving DecidableEq

/-- The words for such a receiver. -/
def CallTarget.words : CallTarget → String
  | .console => "the console"
  | .consoleClass => "the console class"
  | .arrayUtility => "the array utility class"
  | .asyncResult => "an async result"

/-- The containers that are constructed empty. -/
inductive Container where
  | object
  | array
  | map
  | list
  deriving DecidableEq

/-- The words for such a container. -/
def Container.words : Container → String
  | .object => "structured object"
  | .array => "structured array"
  | .map => "map"
  | .list => "list"

/-- The literals that have a type of their own. -/
inductive TypedLiteral where
  | object
  | array
  | data (name : String)
  deriving DecidableEq

/-- The words for such a literal. -/
def TypedLiteral.words : TypedLiteral → String
  | .object => "structured object literal"
  | .array => "structured array literal"
  | .data name => s!"`{name}` literal"

/-- Why a program cannot be compiled. -/
inductive Unsupported where
  | whileLoop
  | loopParts (initializers updates : Nat)
  | endlessLoop
  | cleanupBlock
  | catchCount (count : Nat)
  | thrownValue
  | breakStatement
  | continueStatement
  | shift (op : BinaryKind)
  | bitwiseComplement
  | compoundAssignment (op : BinaryKind)
  | nullType
  | unresolvedSymbol (id : SymbolId)
  | missingSignature (id : SymbolId)
  | notAVariable (name : String) (kind : SymbolKind)
  | unnamedType (name : String)
  | instanceOfUnnamed (name : String)
  | constructorReference
  | unboundReference (method : String)
  | consoleField (name : String)
  | asyncField (field result : String)
  | call (method : String) (arguments : Nat) (target : CallTarget)
  | forEachArgument
  | constructedValue
  | containerArguments (container : Container) (arguments : Nat)
  | throwableArguments (name : String) (arguments : Nat)
  | constructedEnum (name : String)
  | constructedUtility
  | instanceOfOnType
  | unaryOnType (op : UnaryOp)
  | binaryOnType (op : BinaryOp)
  | asyncReference (method result : String)
  | literalType (literal : TypedLiteral) (expected : String)
  | consoleValue (stream : Stream)
  | instanceOfEnum (name : String)
  | stepInExpression (op : UnaryOp)
  | missingEntry (unit entry : String)
  deriving DecidableEq

namespace Unsupported

/-- The kind of construct that a cause belongs to. -/
def construct : Unsupported → Construct
  | .whileLoop | .loopParts .. | .endlessLoop => .loop
  | .cleanupBlock | .catchCount _ => .tryStatement
  | .thrownValue => .throw
  | .breakStatement | .continueStatement => .statement
  | .shift _ | .binaryOnType _ => .binaryOperator
  | .bitwiseComplement | .unaryOnType _ => .unaryOperator
  | .compoundAssignment _ | .instanceOfUnnamed _ | .consoleField _ | .asyncField ..
  | .instanceOfOnType => .expression
  | .nullType | .unresolvedSymbol _ | .missingSignature _ | .notAVariable .. | .unnamedType _ =>
    .symbol
  | .constructorReference | .unboundReference _ | .asyncReference .. => .methodReference
  | .call .. | .forEachArgument => .invocation
  | .constructedValue | .containerArguments .. | .throwableArguments .. | .constructedEnum _
  | .constructedUtility => .construction
  | .literalType .. => .coercion
  | .consoleValue _ | .instanceOfEnum _ | .stepInExpression _ => .rendering
  | .missingEntry .. => .unit

/-- What is unsupported about the construct. -/
def detail : Unsupported → String
  | .whileLoop => "while loops"
  | .loopParts initializers updates =>
    s!"for loop with {initializers} initializer(s) and {updates} update(s)"
  | .endlessLoop => "for loop without a condition"
  | .cleanupBlock => "finally blocks"
  | .catchCount count => s!"expected a single catch clause, found {count}"
  | .thrownValue => "only a newly constructed throwable can be thrown"
  | .breakStatement => "break"
  | .continueStatement => "continue"
  | .shift op => op.name
  | .bitwiseComplement => "~"
  | .compoundAssignment op => s!"compound assignment ({op.name})"
  | .nullType => "the null type has no descriptor"
  | .unresolvedSymbol id => s!"unresolved symbol {id}"
  | .missingSignature id => s!"no signature for method symbol {id}"
  | .notAVariable name kind => s!"`{name}` is not a variable ({kind.name})"
  | .unnamedType name => s!"type `{name}` has no qualified name"
  | .instanceOfUnnamed name => s!"instanceof `{name}`"
  | .constructorReference => "constructor reference"
  | .unboundReference method => s!"`{method}` is not bound to an instance"
  | .consoleField name => s!"console field `{name}`"
  | .asyncField field result => s!"field `{field}` on async result `{result}`"
  | .call method arguments target =>
    s!"`{method}` with {arguments} argument(s) on {target.words}"
  | .forEachArgument => "map forEach expects a two-parameter lambda"
  | .constructedValue => "construction on a value"
  | .containerArguments container arguments =>
    s!"{container.words} with {arguments} argument(s)"
  | .throwableArguments name arguments => s!"`{name}` with {arguments} arguments"
  | .constructedEnum name => s!"enum `{name}`"
  | .constructedUtility => "utility class"
  | .instanceOfOnType => "instanceof on a type"
  | .unaryOnType op => s!"`{op.symbol}` on a type"
  | .binaryOnType op => s!"`{op.symbol}` on a type"
  | .asyncReference method result => s!"reference to `{method}` on async result `{result}`"
  | .literalType literal expected => s!"{literal.words} used as `{expected}`"
  | .consoleValue stream => s!"console stream {stream.name} used as a value"
  | .instanceOfEnum name => s!"instanceof enum `{name}`"
  | .stepInExpression op => s!"`{op.symbol}` inside an expression"
  | .missingEntry unit entry => s!"`{unit}` has no `{entry}` method"

/-- The message of a cause. -/
def message (cause : Unsupported) : String :=
  s!"unsupported {cause.construct.words}: {cause.detail}"

end Unsupported

end Polyscript
