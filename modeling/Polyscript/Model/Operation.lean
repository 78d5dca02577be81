import Polyscript.Model.Basic
import Polyscript.Text.LetterCase
import Polyscript.Unsupported

/-!
# Operations on expressions

What a field access, a call, a construction or a coercion means depends on the
expression it is applied to. Each operation gives the resulting expression or the
cause why there is none; it never changes the expression it is applied to, so a
literal may be extended in several ways.

Calls on object and array literals extend the literal where they can. On a value of
a known kind, calls become accesses; any other call stays a call.
-/

namespace Polyscript.Model

open Text (isUppercase lowercase)

/-- The name of the property that an accessor is for: what follows the accessor's
first word, beginning in lower case. The word must be followed by a capital. -/
def property? (accessor word : String) : Option String :=
  if word.toList.isPrefixOf accessor.toList then
    match accessor.toList.drop word.length with
    | first :: rest =>
      if isUppercase first then some (String.ofList (lowercase first ++ rest)) else none
    | [] => none
  else none

/-- The members with one more, which takes the place of a member of its name. -/
def insertMember (member : Member) : List Member → List Member
  | [] => [member]
  | m :: rest => if m.name = member.name then member :: rest else m :: insertMember member rest

/-- The members with a value at the end of the sequence of a name. A single value of
that name makes way for a new sequence. -/
def appendMember (name : String) (value : Expr) : List Member → List Member
  | [] => [.sequence name [value]]
  | m :: rest =>
    if m.name = name then
      match m with
      | .sequence name values => .sequence name (values ++ [value]) :: rest
      | .single .. => .sequence name [value] :: rest
    else m :: appendMember name value rest

namespace CallSite

/-- The call of a receiver. -/
def invoke (site : CallSite) (receiver : Expr) : Expr := .invocation receiver site

/-- The cause when a receiver does not answer a call. -/
def unsupported (site : CallSite) (target : CallTarget) : Unsupported :=
  .call site.method.name site.args.length target

end CallSite

namespace Access

/-- The access that a call on a structured object stands for. -/
def ofJsonObjectCall? (object : Expr) (method : String) : List Expr → Option Access
  | [] =>
    if method = "encode" || method = "encodePrettily" || method = "toString" then
      some (.jsonObjectEncode object)
    else none
  | [key] =>
    if method = "putNull" then some (.jsonObjectPut object key .null)
    else if "get".toList.isPrefixOf method.toList then some (.jsonObjectGet object key)
    else none
  | [key, value] => if method = "put" then some (.jsonObjectPut object key value) else none
  | _ => none

/-- The access that a call on a structured array stands for. -/
def ofJsonArrayCall? (array : Expr) (method : String) : List Expr → Option Access
  | [] =>
    if method = "addNull" then some (.jsonArrayAdd array .null)
    else if method = "size" then some (.jsonArraySize array)
    else if method = "encode" || method = "encodePrettily" || method = "toString" then
      some (.jsonArrayEncode array)
    else none
  | [arg] =>
    if method = "add" then some (.jsonArrayAdd array arg)
    else if "get".toList.isPrefixOf method.toList then some (.jsonArrayGet array arg)
    else none
  | _ => none

/-- The access that a call on a data object stands for. -/
def ofDataObjectCall? (object : Expr) (method : String) : List Expr → Option Access
  | [] => ((property? method "get").or (property? method "is")).map (.dataObjectGet object ·)
  | [value] => (property? method "set").map (.dataObjectSet object · value)
  | _ => none

/-- The access that a call on a list stands for. -/
def ofListCall? (list : Expr) (method : String) : List Expr → Option Access
  | [] => if method = "size" then some (.listSize list) else none
  | [arg] =>
    if method = "get" then some (.listGet list arg)
    else if method = "add" then some (.listAdd list arg)
    else none
  | _ => none

/-- The access that a call on a map stands for. Its iteration takes a lambda of two
parameters and nothing else. -/
def ofMapCall? (map : Expr) (method : String) :
    List Expr → Except Unsupported (Option Access)
  | [arg] =>
    if method = "get" then .ok (some (.mapGet map arg))
    else if method = "forEach" then
      match arg with
      | .lambda ⟨[keyName, valueName], _, body⟩ =>
        .ok (some (.mapForEach map keyName valueName body))
      | _ => .error .forEachArgument
    else .ok none
  | [key, value] => .ok (if method = "put" then some (.mapPut map key value) else none)
  | _ => .ok none

/-- The access that a call on a value of some kind stands for, if it stands for one. -/
def ofCall? (value : Expr) (kind : ValueKind) (site : CallSite) :
    Except Unsupported (Option Access) :=
  let method := site.method.name
  match kind with
  | .jsonObject => .ok (ofJsonObjectCall? value method site.args)
  | .jsonArray => .ok (ofJsonArrayCall? value method site.args)
  | .dataObject _ => .ok (ofDataObjectCall? value method site.args)
  | .map => ofMapCall? value method site.args
  | .list => .ok (ofListCall? value method site.args)

end Access

namespace Expr

/-- A field of an expression. -/
def select (name : String) : Expr → Except Unsupported Expr
  | .cls .console =>
    if name = "out" then .ok (.console .out)
    else if name = "err" then .ok (.console .err)
    else .error (.consoleField name)
  | .cls (.enum type) => .ok (.enumConstant type name)
  | .asyncResult result _ => .error (.asyncField name result)
  | receiver => .ok (.field receiver name)

/-- A call on a value of a known kind. -/
def callTyped (value : Expr) (kind : ValueKind) (site : CallSite) : Except Unsupported Expr := do
  match ← Access.ofCall? value kind site with
  | some a => return .access a
  | none => return site.invoke (.typed value kind)

/-- A call on a stream of the console. -/
def callConsole (stream : Stream) (site : CallSite) : Except Unsupported Expr :=
  match site.method.name, site.args with
  | "println", [] => .ok (.consolePrint stream (.string ""))
  | "println", [arg] => .ok (.consolePrint stream arg)
  | "print", [arg] => .ok (.consolePrint stream arg)
  | _, _ => .error (site.unsupported .console)

/-- A call on the literal of a structured object: putting a value under a literal key
extends the literal. -/
def callJsonObject (members : List Member) (site : CallSite) : Except Unsupported Expr :=
  match site.method.name, site.args with
  | "put", [.literal (.string key), value] =>
    .ok (.jsonObject (insertMember (.single key value) members))
  | "putNull", [.literal (.string key)] =>
    .ok (.jsonObject (insertMember (.single key .null) members))
  | _, _ => callTyped (.jsonObject members) .jsonObject site

/-- A call on the literal of a structured array: adding a value extends the literal. -/
def callJsonArray (values : List Expr) (site : CallSite) : Except Unsupported Expr :=
  match site.method.name, site.args with
  | "add", [value] => .ok (.jsonArray (values ++ [value]))
  | "addNull", [] => .ok (.jsonArray (values ++ [.null]))
  | _, _ => callTyped (.jsonArray values) .jsonArray site

/-- A call on the literal of a data object: a setter sets a member, and an adder adds
to the member whose name is the plural of its property. -/
def callDataObject (type : ClassType) (members : List Member) (site : CallSite) :
    Except Unsupported Expr :=
  match site.args with
  | [value] =>
    match property? site.method.name "set", property? site.method.name "add" with
    | some name, _ => .ok (.dataObject type (insertMember (.single name value) members))
    | none, some name => .ok (.dataObject type (appendMember (name ++ "s") value members))
    | none, none => callTyped (.dataObject type members) (.dataObject type) site
  | _ => callTyped (.dataObject type members) (.dataObject type) site

/-- Whether an expression answers calls in its own way. -/
def hasCapabilities : Expr → Bool
  | .typed .. | .asyncResult .. | .jsonObject _ | .jsonArray _ | .dataObject .. | .console _ => true
  | _ => false

/-- A call of an expression. Parentheses pass the call on to what they enclose, if
that answers calls in its own way. -/
def call (site : CallSite) : Expr → Except Unsupported Expr
  | .console stream => callConsole stream site
  | .cls .arrays =>
    if site.method.name = "asList" then .ok (.list site.args)
    else .error (site.unsupported .arrayUtility)
  | .cls .console => .error (site.unsupported .consoleClass)
  | .jsonObject members => callJsonObject members site
  | .jsonArray values => callJsonArray values site
  | .dataObject type members => callDataObject type members site
  | .typed value kind => callTyped value kind site
  | .asyncResult name resultType =>
    match AsyncOp.ofMethod? site.method.name, site.args with
    | some op, [] => .ok (.asyncCall name resultType op)
    | _, _ => .error (site.unsupported .asyncResult)
  | .parenthesized inner =>
    if inner.hasCapabilities then inner.call site else .ok (site.invoke (.parenthesized inner))
  | receiver => .ok (site.invoke receiver)

/-- A new container, which takes no arguments. -/
def newContainer (container : Container) (args : List Expr) (value : Expr) :
    Except Unsupported Expr :=
  if args.isEmpty then .ok value else .error (.containerArguments container args.length)

/-- A construction. -/
def constructWith (args : List Expr) : Expr → Except Unsupported Expr
  | .cls .jsonObject => newContainer .object args (.jsonObject [])
  | .cls .jsonArray => newContainer .array args (.jsonArray [])
  | .cls .map => newContainer .map args .newMap
  | .cls .list => newContainer .list args .newList
  | .cls (.dataObject type) =>
    .ok (if args.isEmpty then .dataObject type [] else .construct type args)
  | .cls (.api type) | .cls (.plain type) => .ok (.construct type args)
  | .cls (.throwable type) =>
    match args with
    | [] => .ok (.throwable type none)
    | [reason] => .ok (.throwable type (some reason))
    | _ => .error (.throwableArguments type.name args.length)
  | .cls (.enum type) => .error (.constructedEnum type.name)
  | .cls .console | .cls .arrays => .error .constructedUtility
  | _ => .error .constructedValue

/-- A test whether a value is of a class. -/
def testInstance (cls : ClassType) (e : Expr) : Except Unsupported Expr :=
  if e.isClass then .error .instanceOfOnType else .ok (.instanceOf e cls)

/-- A unary operation. -/
def applyUnary (op : UnaryOp) (e : Expr) : Except Unsupported Expr :=
  if e.isClass then .error (.unaryOnType op) else .ok (.unary op e)

/-- A sum. With a string literal it is a concatenation, and a concatenation on the
left is continued. -/
def sum (lhs rhs : Expr) : Expr :=
  match lhs with
  | .concat parts => .concat (parts ++ [rhs])
  | lhs =>
    if lhs.text?.isSome || rhs.text?.isSome then .concat [lhs, rhs] else .binary .add lhs rhs

/-- A binary operation. -/
def applyBinary (op : BinaryOp) (lhs rhs : Expr) : Except Unsupported Expr :=
  if lhs.isClass || rhs.isClass then .error (.binaryOnType op)
  else if op = .add then .ok (sum lhs rhs)
  else .ok (.binary op lhs rhs)

/-- A reference to a method. -/
def refer (method : Signature) : Expr → Except Unsupported Expr
  | .asyncResult result _ => .error (.asyncReference method.name result)
  | receiver => .ok (.methodReference receiver method)

/-- The kind that a type gives to its values. -/
def kindOfType? (type : TypeInfo) : Option ValueKind :=
  match type.kind, type.cls? with
  | .jsonObject, _ => some .jsonObject
  | .jsonArray, _ => some .jsonArray
  | .dataObject, some c => some (.dataObject c)
  | .map, _ => some .map
  | .list, _ => some .list
  | _, _ => none

/-- A value with the kind that a type gives to it. -/
def withKind (type : TypeInfo) (value : Expr) : Expr :=
  match kindOfType? type with
  | some kind => .typed value kind
  | none => value

/-- A coercion to a type. Literals keep to the type of their own, and values take up
the kind that the type gives; `void` asks for nothing. -/
def coerce (type : TypeInfo) (e : Expr) : Except Unsupported Expr :=
  if type.kind = .void then .ok e
  else match e with
    | .jsonObject members =>
      if type.kind = .jsonObject then .ok (.jsonObject members)
      else .error (.literalType .object type.name)
    | .jsonArray values =>
      if type.kind = .jsonArray then .ok (.jsonArray values)
      else .error (.literalType .array type.name)
    | .dataObject own members =>
      if type.cls?.map ClassType.name = some own.name then .ok (.dataObject own members)
      else .error (.literalType (.data own.name) type.name)
    | .typed value _ => .ok (value.withKind type)
    | .identifier .. | .field .. | .invocation .. | .parenthesized _ | .conditional ..
    | .asyncCall .. | .access _ => .ok (e.withKind type)
    | other => .ok other

end Expr

end Polyscript.Model
