/-!
# Operators and other words of the model

The closed vocabularies of the model: operators with their common spelling, the
scopes of variables, the console's streams and what can be asked of an
asynchronous result.
-/

namespace Polyscript.Model

/-- The binary operators. -/
inductive BinaryOp where
  | both
  | either
  | equal
  | notEqual
  | add
  | less
  | lessEqual
  | greater
  | greaterEqual
  | multiply
  | divide
  | bitAnd
  | bitOr
  | bitXor
  | subtract
  | remainder
  deriving DecidableEq

namespace BinaryOp

/-- Every binary operator. -/
def all : List BinaryOp :=
  [.both, .either, .equal, .notEqual, .add, .less, .lessEqual, .greater, .greaterEqual, .multiply,
    .divide, .bitAnd, .bitOr, .bitXor, .subtract, .remainder]

/-- The common spelling of a binary operator. -/
def symbol : BinaryOp → String
  | .both => "&&"
  | .either => "||"
  | .equal => "=="
  | .notEqual => "!="
  | .add => "+"
  | .less => "<"
  | .lessEqual => "<="
  | .greater => ">"
  | .greaterEqual => ">="
  | .multiply => "*"
  | .divide => "/"
  | .bitAnd => "&"
  | .bitOr => "|"
  | .bitXor => "^"
  | .subtract => "-"
  | .remainder => "%"

end BinaryOp

/-- The unary operators. -/
inductive UnaryOp where
  | postIncrement
  | postDecrement
  | preIncrement
  | preDecrement
  | not
  | minus
  | plus
  deriving DecidableEq

namespace UnaryOp

/-- Every unary operator. -/
def all : List UnaryOp :=
  [.postIncrement, .postDecrement, .preIncrement, .preDecrement, .not, .minus, .plus]

/-- The common spelling of a unary operator. -/
def symbol : UnaryOp → String
  | .postIncrement | .preIncrement => "++"
  | .postDecrement | .preDecrement => "--"
  | .not => "!"
  | .minus => "-"
  | .plus => "+"

/-- Whether an operator follows its operand. -/
def isPostfix : UnaryOp → Bool
  | .postIncrement | .postDecrement => true
  | _ => false

/-- Whether an operator changes its operand by one. -/
def isStep : UnaryOp → Bool
  | .postIncrement | .postDecrement | .preIncrement | .preDecrement => true
  | _ => false

end UnaryOp

/-- The streams of the console. -/
inductive Stream where
  | out
  | err
  deriving DecidableEq

/-- Every stream. -/
def Stream.all : List Stream := [.out, .err]

/-- The name of a stream, as messages give it. -/
def Stream.name : Stream → String
  | .out => "Out"
  | .err => "Err"

/-- What can be asked of an asynchronous result. -/
inductive AsyncOp where
  | succeeded
  | failed
  | cause
  | result
  deriving DecidableEq

namespace AsyncOp

/-- Every question. -/
def all : List AsyncOp := [.succeeded, .failed, .cause, .result]

/-- The method that asks a question. -/
def method : AsyncOp → String
  | .succeeded => "succeeded"
  | .failed => "failed"
  | .cause => "cause"
  | .result => "result"

/-- The question that a method asks. -/
def ofMethod? (name : String) : Option AsyncOp := all.find? (·.method == name)

end AsyncOp

/-- Where a variable lives. A global is a field of another class. -/
inductive Scope where
  | variable
  | parameter
  | field
  | global
  deriving DecidableEq

/-- Every scope. -/
def Scope.all : List Scope := [.variable, .parameter, .field, .global]

end Polyscript.Model
