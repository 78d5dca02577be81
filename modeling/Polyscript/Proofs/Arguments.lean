import Polyscript.Proofs.Model.Calls

/-!
# The arguments of calls

A call that is answered keeps its arguments: each has its place in what the call adds.

A call can also be told by the name of its method and the number of its arguments first, and its
arguments taken out of the list afterwards. Then something must stand in for an argument that is
missing from the list, for a name that is none, or for an access that cannot be made. Nothing of
this is ever needed: whatever stands in, calls mean what they mean.

## Main definitions

* `Fallbacks`: what stands in for what is missing.
* `Expr.callOr`: a call told by name and number of arguments.

## Main statements

* `Expr.callOr_eq`: a call does not depend on what stands in for what is missing.
* `Expr.call_keeps_arguments`: calls keep their arguments and make use of nothing else.
-/

namespace Polyscript.Model

/-- What stands in for an argument or a name that is missing, and the cause when an access cannot
be made for want of an argument. -/
structure Fallbacks where
  value : Expr
  name : String
  cause : Unsupported

/-- The only element of a list. -/
def only? {α : Type} : List α → Option α
  | [a] => some a
  | _ => none

/-- The elements of a list of two. -/
def pair? {α : Type} : List α → Option (α × α)
  | [a, b] => some (a, b)
  | _ => none

namespace Access

/-! ### Accesses

An access is told by the name of the method and the number of arguments, if there is one, and may
then lack an argument. -/

variable (f : Fallbacks)

/-- The access that a call on a structured object stands for. -/
def jsonObjectBy (object : Expr) (method : String) (args : List Expr) : Option (Option Access) :=
  if method = "put" ∧ args.length = 2 then
    some ((pair? args).map fun args => .jsonObjectPut object args.1 args.2)
  else if method = "putNull" ∧ args.length = 1 then
    some ((only? args).map fun key => .jsonObjectPut object key .null)
  else if (method = "encode" ∨ method = "encodePrettily" ∨ method = "toString") ∧
      args.length = 0 then
    some (some (.jsonObjectEncode object))
  else if "get".toList.isPrefixOf method.toList ∧ args.length = 1 then
    some ((only? args).map fun key => .jsonObjectGet object key)
  else none

/-- The access that a call on a structured array stands for. -/
def jsonArrayBy (array : Expr) (method : String) (args : List Expr) : Option (Option Access) :=
  if method = "add" ∧ args.length = 1 then
    some ((only? args).map fun value => .jsonArrayAdd array value)
  else if method = "addNull" ∧ args.length = 0 then some (some (.jsonArrayAdd array .null))
  else if method = "size" ∧ args.length = 0 then some (some (.jsonArraySize array))
  else if (method = "encode" ∨ method = "encodePrettily" ∨ method = "toString") ∧
      args.length = 0 then
    some (some (.jsonArrayEncode array))
  else if "get".toList.isPrefixOf method.toList ∧ args.length = 1 then
    some ((only? args).map fun index => .jsonArrayGet array index)
  else none

/-- The access that a call on a data object stands for. -/
def dataObjectBy (object : Expr) (method : String) (args : List Expr) : Option (Option Access) :=
  let setter := property? method "set"
  let getter := (property? method "get").or (property? method "is")
  if setter.isSome ∧ args.length = 1 then
    some ((only? args).map fun value => .dataObjectSet object (setter.getD f.name) value)
  else if getter.isSome ∧ args.length = 0 then
    some (some (.dataObjectGet object (getter.getD f.name)))
  else none

/-- The access that a call on a list stands for. -/
def listBy (list : Expr) (method : String) (args : List Expr) : Option (Option Access) :=
  if method = "get" ∧ args.length = 1 then
    some ((only? args).map fun index => .listGet list index)
  else if method = "add" ∧ args.length = 1 then
    some ((only? args).map fun value => .listAdd list value)
  else if method = "size" ∧ args.length = 0 then some (some (.listSize list))
  else none

/-- The access that a call on a map stands for. -/
def mapBy (map : Expr) (method : String) (args : List Expr) :
    Except Unsupported (Option (Option Access)) :=
  if method = "get" ∧ args.length = 1 then
    .ok (some ((only? args).map fun key => .mapGet map key))
  else if method = "put" ∧ args.length = 2 then
    .ok (some ((pair? args).map fun args => .mapPut map args.1 args.2))
  else if method = "forEach" ∧ args.length = 1 then
    match only? args with
    | some (.lambda lambda) =>
      if lambda.paramNames.length = 2 then
        .ok (some (some (.mapForEach map (lambda.paramNames[0]?.getD f.name)
          (lambda.paramNames[1]?.getD f.name) lambda.body)))
      else .error .forEachArgument
    | _ => .error .forEachArgument
  else .ok none

/-- The access that a call on a value of some kind stands for. -/
def callBy (value : Expr) (kind : ValueKind) (site : CallSite) :
    Except Unsupported (Option (Option Access)) :=
  let method := site.method.name
  match kind with
  | .jsonObject => .ok (jsonObjectBy value method site.args)
  | .jsonArray => .ok (jsonArrayBy value method site.args)
  | .dataObject _ => .ok (dataObjectBy f value method site.args)
  | .map => mapBy f value method site.args
  | .list => .ok (listBy value method site.args)

theorem jsonObjectBy_eq (object : Expr) (method : String) (args : List Expr) :
    jsonObjectBy object method args = (ofJsonObjectCall? object method args).map some := by
  unfold jsonObjectBy ofJsonObjectCall?
  match args with
  | [] => grind
  | [key] => grind [only?]
  | [key, value] => grind [pair?]
  | _ :: _ :: _ :: _ => grind

theorem jsonArrayBy_eq (array : Expr) (method : String) (args : List Expr) :
    jsonArrayBy array method args = (ofJsonArrayCall? array method args).map some := by
  unfold jsonArrayBy ofJsonArrayCall?
  match args with
  | [] => grind
  | [arg] => grind [only?]
  | _ :: _ :: _ => grind

theorem listBy_eq (list : Expr) (method : String) (args : List Expr) :
    listBy list method args = (ofListCall? list method args).map some := by
  unfold listBy ofListCall?
  match args with
  | [] => grind
  | [arg] => grind [only?]
  | _ :: _ :: _ => grind

theorem dataObjectBy_eq (object : Expr) (method : String) (args : List Expr) :
    dataObjectBy f object method args = (ofDataObjectCall? object method args).map some := by
  unfold dataObjectBy ofDataObjectCall?
  match args with
  | [] => cases (property? method "get").or (property? method "is") <;> simp
  | [value] => cases property? method "set" <;> simp [only?]
  | _ :: _ :: _ => simp

/-- What the only argument of an iteration stands for. -/
theorem forEachBy_eq (map arg : Expr) :
    mapBy f map "forEach" [arg] = (ofMapCall? map "forEach" [arg]).map (·.map some) := by
  cases arg with
  | lambda lambda =>
    obtain ⟨names, types, body⟩ := lambda
    match names with
    | [] => rfl
    | [_] => rfl
    | [_, _] => rfl
    | _ :: _ :: _ :: rest => simp [mapBy, ofMapCall?, only?, Except.map]
  | _ => rfl

theorem mapBy_eq (map : Expr) (method : String) (args : List Expr) :
    mapBy f map method args = (ofMapCall? map method args).map (·.map some) := by
  match args with
  | [] => simp [mapBy, ofMapCall?, Except.map]
  | [arg] =>
    by_cases iterates : method = "forEach"
    · rw [iterates]
      exact forEachBy_eq f map arg
    · by_cases gets : method = "get" <;> simp [mapBy, ofMapCall?, only?, Except.map, iterates, gets]
  | [key, value] =>
    by_cases puts : method = "put" <;> simp [mapBy, ofMapCall?, pair?, Except.map, puts]
  | _ :: _ :: _ :: _ => simp [mapBy, ofMapCall?, Except.map]

/-- No access that is told by name and number of arguments lacks an argument. -/
theorem callBy_eq (value : Expr) (kind : ValueKind) (site : CallSite) :
    callBy f value kind site = (ofCall? value kind site).map (·.map some) := by
  cases kind with
  | jsonObject => exact congrArg Except.ok (jsonObjectBy_eq ..)
  | jsonArray => exact congrArg Except.ok (jsonArrayBy_eq ..)
  | dataObject type => exact congrArg Except.ok (dataObjectBy_eq ..)
  | map => exact mapBy_eq ..
  | list => exact congrArg Except.ok (listBy_eq ..)

end Access

namespace Expr

/-! ### Calls -/

variable (f : Fallbacks) (site : CallSite)

/-- A call on a value of a known kind. -/
def callTypedOr (value : Expr) (kind : ValueKind) : Except Unsupported Expr := do
  match ← Access.callBy f value kind site with
  | some (some a) => return .access a
  | some none => throw f.cause
  | none => return site.invoke (.typed value kind)

/-- A call on a stream of the console. -/
def callConsoleOr (stream : Stream) : Except Unsupported Expr :=
  let method := site.method.name
  if method = "println" ∧ site.args.length = 0 then .ok (.consolePrint stream (.string ""))
  else if (method = "println" ∨ method = "print") ∧ site.args.length = 1 then
    .ok (.consolePrint stream (site.args.head?.getD f.value))
  else .error (site.unsupported .console)

/-- A call on the literal of a structured object. -/
def callJsonObjectOr (members : List Member) : Except Unsupported Expr :=
  let method := site.method.name
  match site.args.head?.bind text? with
  | some key =>
    if method = "put" ∧ site.args.length = 2 then
      match pair? site.args with
      | some (_, value) => .ok (.jsonObject (insertMember (.single key value) members))
      | none => .error f.cause
    else if method = "putNull" ∧ site.args.length = 1 then
      .ok (.jsonObject (insertMember (.single key .null) members))
    else callTypedOr f site (.jsonObject members) .jsonObject
  | none => callTypedOr f site (.jsonObject members) .jsonObject

/-- A call on the literal of a structured array. -/
def callJsonArrayOr (values : List Expr) : Except Unsupported Expr :=
  let method := site.method.name
  if method = "add" ∧ site.args.length = 1 then
    .ok (.jsonArray (values ++ [(only? site.args).getD f.value]))
  else if method = "addNull" ∧ site.args.length = 0 then .ok (.jsonArray (values ++ [.null]))
  else callTypedOr f site (.jsonArray values) .jsonArray

/-- A call on the literal of a data object. -/
def callDataObjectOr (type : ClassType) (members : List Member) : Except Unsupported Expr :=
  let value := (only? site.args).getD f.value
  if site.args.length = 1 then
    match property? site.method.name "set", property? site.method.name "add" with
    | some name, _ => .ok (.dataObject type (insertMember (.single name value) members))
    | none, some name => .ok (.dataObject type (appendMember (name ++ "s") value members))
    | none, none => callTypedOr f site (.dataObject type members) (.dataObject type)
  else callTypedOr f site (.dataObject type members) (.dataObject type)

/-- A call of an expression, told by the name of its method and the number of its arguments. -/
def callOr : Expr → Except Unsupported Expr
  | .console stream => callConsoleOr f site stream
  | .cls .arrays =>
    if site.method.name = "asList" then .ok (.list site.args)
    else .error (site.unsupported .arrayUtility)
  | .cls .console => .error (site.unsupported .consoleClass)
  | .jsonObject members => callJsonObjectOr f site members
  | .jsonArray values => callJsonArrayOr f site values
  | .dataObject type members => callDataObjectOr f site type members
  | .typed value kind => callTypedOr f site value kind
  | .asyncResult name resultType =>
    match AsyncOp.ofMethod? site.method.name with
    | some op =>
      if site.args.length = 0 then .ok (.asyncCall name resultType op)
      else .error (site.unsupported .asyncResult)
    | none => .error (site.unsupported .asyncResult)
  | .parenthesized inner =>
    if inner.hasCapabilities then inner.callOr else .ok (site.invoke (.parenthesized inner))
  | receiver => .ok (site.invoke receiver)

theorem callTypedOr_eq (value : Expr) (kind : ValueKind) :
    callTypedOr f site value kind = callTyped value kind site := by
  rw [callTypedOr, Access.callBy_eq, callTyped]
  cases Access.ofCall? value kind site with
  | error cause => rfl
  | ok access => cases access <;> rfl

theorem callConsoleOr_eq (stream : Stream) :
    callConsoleOr f site stream = callConsole stream site := by
  unfold callConsoleOr callConsole
  generalize site.method.name = method, site.args = args
  match args with
  | [] => grind
  | [arg] => grind
  | _ :: _ :: _ => grind

/-- A string literal, or none. -/
theorem text?_cases (e : Expr) :
    (∃ text, e = .literal (.string text)) ∨
      e.text? = none ∧ ∀ text, e ≠ .literal (.string text) := by
  cases e with
  | literal value => cases value <;> simp [text?]
  | _ => simp [text?]

theorem callJsonObjectOr_eq (members : List Member) :
    callJsonObjectOr f site members = callJsonObject members site := by
  unfold callJsonObjectOr callJsonObject
  rw [callTypedOr_eq]
  generalize callTyped (jsonObject members) .jsonObject site = typed
  generalize site.method.name = method, site.args = args
  match args with
  | [] => grind
  | [key] => rcases text?_cases key with ⟨text, rfl⟩ | other <;> grind [text?]
  | [key, value] => rcases text?_cases key with ⟨text, rfl⟩ | other <;> grind [text?, pair?]
  | key :: _ :: _ :: _ => rcases text?_cases key with ⟨text, rfl⟩ | other <;> grind [text?]

theorem callJsonArrayOr_eq (values : List Expr) :
    callJsonArrayOr f site values = callJsonArray values site := by
  unfold callJsonArrayOr callJsonArray
  rw [callTypedOr_eq]
  generalize callTyped (jsonArray values) .jsonArray site = typed
  generalize site.method.name = method, site.args = args
  match args with
  | [] => grind
  | [value] => grind [only?]
  | _ :: _ :: _ => grind

theorem callDataObjectOr_eq (type : ClassType) (members : List Member) :
    callDataObjectOr f site type members = callDataObject type members site := by
  unfold callDataObjectOr callDataObject
  rw [callTypedOr_eq]
  match site.args with
  | [] => rfl
  | [value] => rfl
  | _ :: _ :: _ => simp

/-- A call means what it means, whatever stands in for what is missing: nothing ever is. -/
theorem callOr_eq (e : Expr) : e.callOr f site = e.call site := by
  fun_induction Expr.call site e with
  | case1 stream => exact callConsoleOr_eq f site stream
  | case2 isList => exact if_pos isList
  | case3 notList => exact if_neg notList
  | case5 members => exact callJsonObjectOr_eq f site members
  | case6 values => exact callJsonArrayOr_eq f site values
  | case7 type members => exact callDataObjectOr_eq f site type members
  | case8 value kind => exact callTypedOr_eq f site value kind
  | case9 name resultType op noArgs asks => simp [callOr, asks, noArgs]
  | case10 name resultType other =>
    cases asks : AsyncOp.ofMethod? site.method.name with
    | none => simp only [callOr, asks]
    | some op =>
      have hasArgs : site.args.length ≠ 0 := fun noArgs =>
        other op asks (List.length_eq_zero_iff.1 noArgs)
      simp only [callOr, asks, if_neg hasArgs]
  | case11 inner capable ih => rw [callOr, if_pos capable, ih]
  | case12 inner incapable => rw [callOr, if_neg incapable]
  | case13 receiver =>
    -- the other receivers are the same for both
    rw [callOr] <;> assumption
  | case4 => rfl

/-- Each argument of a call that is answered has one place in what the call adds to its receiver,
in order, and nothing else has one but the `null` of the methods that put or add it and the empty
text of a line without an argument. And whatever were to stand in for a missing argument or name,
or for the cause when an argument is missing, no call would make use of it. -/
theorem call_keeps_arguments (e : Expr) (site : CallSite) :
    (∀ result, e.call site = .ok result → site.Keeps e result) ∧
      ∀ f : Fallbacks, e.callOr f site = e.call site :=
  ⟨fun _ ok => keeps_of_call ok, fun f => callOr_eq f site e⟩

/-- A call of a method of a class. -/
def siteOn (cls : ClassType) (method : String) (args : List Expr) : CallSite where
  receiverType := .cls cls
  method := ⟨method, [], false, .void⟩
  returnType := .void
  args := args
  argTypes := args.map fun _ => none

/-- A value put under a name that is there already takes the place of the old one, a value added to
a sequence comes behind those of the sequence, and a lambda of two parameters becomes the iteration
over a map. -/
theorem call_keeps_arguments_literals :
    let kept (receiver : Expr) (site : CallSite) (result : Expr) :=
      receiver.call site = .ok result ∧ site.Keeps receiver result ∧
        ∀ f : Fallbacks, receiver.callOr f site = .ok result
    let host := Member.single "host" (.string "a")
    let options : ClassType := ⟨"Options", .dataObject⟩
    let counts := Expr.typed (.identifier "counts" .field) .map
    let body := LambdaBody.expr (.identifier "key" .parameter)
    kept (.jsonObject [.single "port" (.literal (.int "80")), host])
        (siteOn ⟨"JsonObject", .jsonObject⟩ "put" [.string "port", .literal (.int "8080")])
        (.jsonObject [.single "port" (.literal (.int "8080")), host]) ∧
      kept (.dataObject options [.sequence "hosts" [.string "a"], host])
        (siteOn options "addHost" [.string "b"])
        (.dataObject options [.sequence "hosts" [.string "a", .string "b"], host]) ∧
      kept (.parenthesized counts)
        (siteOn ⟨"Map", .map⟩ "forEach" [.lambda ⟨["key", "count"], [.string, .boxed .int], body⟩])
        (.access (.mapForEach (.identifier "counts" .field) "key" "count" body)) := by
  intro kept host options counts body
  have answered {receiver result : Expr} {site : CallSite} (ok : receiver.call site = .ok result) :
      kept receiver site result := by
    obtain ⟨keeps, same⟩ := call_keeps_arguments receiver site
    exact ⟨ok, keeps result ok, fun f => (same f).trans ok⟩
  refine ⟨answered rfl, answered ?_, answered rfl⟩
  -- the name of the sequence is put together, so it has to be compared after that
  have isAdder : property? "addHost" "add" = some "host" := rfl
  have noSetter : property? "addHost" "set" = none := rfl
  simp [call, callDataObject, siteOn, isAdder, noSetter, appendMember, Member.name]

end Expr

end Polyscript.Model
