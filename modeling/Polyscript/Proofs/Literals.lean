import Polyscript.Proofs.Lowering.Whole
import Polyscript.Proofs.Model.Members

/-!
# Literals that are built by calls

The literal of an object starts without members, and calls on it give it its members: putting a
value under a key, or a setter or an adder of a property. What calls make of a literal is told by
the changes of members that they stand for.

A structured object so keeps one member for each key, in the order in which the keys were first
put, with the value that was put last. A data object keeps what was added to a property since it
was last set. But the first value that is added after a setter displaces what was set.

## Main definitions

* `Put`, `PropertyCall`: the calls that change the members of a literal.
* `Obtained`: the expressions that operations make from newly constructed literals.

## Main statements

* `literal_of_puts`: the members after values are put, and that names of members differ in all
  expressions that operations make.
* `Source.Program.members_differ`: names of members differ in all compiled programs.
* `literal_of_property_calls`: what the members of a data object hold after setters and adders.
-/

namespace Polyscript

open Model (CallSite ClassRef Expr Member Node Update Every Access)

namespace Model

/-- Calls of an expression, each on the result of the one before. -/
def Expr.callAll (receiver : Expr) (sites : List CallSite) : Except Unsupported Expr :=
  sites.foldlM (fun receiver site => receiver.call site) receiver

/-- An object that is constructed without arguments and then called. -/
def Expr.constructAndCall (cls : ClassRef) (sites : List CallSite) : Except Unsupported Expr := do
  (← (Expr.cls cls).constructWith []).callAll sites

/-- The changes that calls make to the members of a literal that they extend. -/
theorem Expr.callAll_of_extends {α : Type} {site : α → CallSite} {update : α → Update}
    {literal : List Member → Expr}
    (step : ∀ (call : α) (members : List Member),
      (literal members).call (site call) = .ok (literal ((update call).apply members)))
    (calls : List α) (members : List Member) :
    (literal members).callAll (calls.map site) =
      .ok (literal (Update.applyAll members (calls.map update))) := by
  induction calls generalizing members with
  | nil => rfl
  | cons call rest ih =>
    rw [List.map_cons, Expr.callAll, List.foldlM_cons, step]
    exact ih _

/-! ### Structured objects -/

/-- The calls that put a value under a key. -/
inductive CallSite.Puts : CallSite → String → Expr → Prop
  | put {site : CallSite} {key : String} {value : Expr} (isPut : site.method.name = "put")
    (args : site.args = [.string key, value]) : Puts site key value
  | putNull {site : CallSite} {key : String} (isPutNull : site.method.name = "putNull")
    (args : site.args = [.string key]) : Puts site key .null

/-- A call that puts a value under a key. -/
structure Put where
  site : CallSite
  key : String
  value : Expr
  puts : site.Puts key value

/-- The change of members that a call stands for. -/
def Put.update (put : Put) : Update := .set put.key put.value

theorem Put.call_jsonObject (put : Put) (members : List Member) :
    (Expr.jsonObject members).call put.site = .ok (.jsonObject (put.update.apply members)) := by
  obtain ⟨site, key, value, puts⟩ := put
  rw [Expr.call, Expr.callJsonObject]
  cases puts with
  | put isPut args =>
    rw [isPut, args]
    rfl
  | putNull isPutNull args =>
    rw [isPutNull, args]
    rfl

/-! ### Names of members -/

/-- Whether the members of an object have names that differ from each other. -/
def Node.NamesMembersOnce : Node → Prop
  | .expr (.jsonObject members) | .expr (.dataObject _ members) =>
    (members.map Member.name).Nodup
  | _ => True

/-- Whether an expression is the literal of an object. -/
def Expr.isObjectLiteral : Expr → Bool
  | .jsonObject _ | .dataObject .. => true
  | _ => false

theorem Node.namesMembersOnce_of_not_isObjectLiteral {e : Expr} (other : !e.isObjectLiteral) :
    (Node.expr e).NamesMembersOnce := by
  cases e with
  | jsonObject | dataObject => cases other
  | _ => trivial

instance : AdmitsMade Node.NamesMembersOnce where
  admits e isMade := by
    cases e with
    | jsonObject members | dataObject type members =>
      obtain rfl := List.isEmpty_iff.1 isMade
      exact List.nodup_nil
    | _ => trivial
  grown grows distinct := by
    cases grows with
    | put member members => exact Update.nodup_names_insertMember distinct member
    | set type member members => exact Update.nodup_names_insertMember distinct member
    | add type name value members => exact Update.nodup_names_appendMember distinct name value

instance : Lowering.Makes (fun _ => True) Node.NamesMembersOnce where
  used node _ isUse _ := by
    cases node with
    | expr e =>
      cases e with
      | jsonObject | dataObject => cases isUse
      | _ => trivial
    | _ => trivial
  handler _ _ _ _ := trivial
  stmt _ := trivial
  block _ _ := trivial
  external _ := trivial

/-- An operation on an expression, apart from the expression. -/
inductive Operation where
  | select (name : String)
  | call (site : CallSite)
  | construct (args : List Expr)
  | testInstance (cls : ClassType)
  | unary (op : UnaryOp)
  | binary (op : BinaryOp) (rhs : Expr)
  | refer (method : Signature)
  | coerce (type : TypeInfo)

namespace Operation

/-- The result of an operation. -/
def apply (receiver : Expr) : Operation → Except Unsupported Expr
  | .select name => receiver.select name
  | .call site => receiver.call site
  | .construct args => receiver.constructWith args
  | .testInstance cls => receiver.testInstance cls
  | .unary op => receiver.applyUnary op
  | .binary op rhs => receiver.applyBinary op rhs
  | .refer method => receiver.refer method
  | .coerce type => receiver.coerce type

/-- The expressions that an operation takes in besides the one it is applied to. -/
def operands : Operation → List Expr
  | .call site => site.args
  | .construct args => args
  | .binary _ rhs => [rhs]
  | _ => []

end Operation

/-- The expressions in which every literal of an object is one that operations have made. -/
inductive Obtained : Expr → Prop
  | around {e : Expr} (other : !e.isObjectLiteral)
    (literals : ∀ l : Expr, l.isObjectLiteral → .expr l ∈ e.nodes → Obtained l) : Obtained e
  | result (op : Operation) {receiver e : Expr} (ok : op.apply receiver = .ok e)
    (ofReceiver : Obtained receiver) (ofOperands : ∀ operand ∈ op.operands, Obtained operand) :
    Obtained e

/-- An expression with nothing below it is obtained, unless it is the literal of an object. -/
theorem Obtained.leaf {e : Expr} (other : !e.isObjectLiteral) (isLeaf : e.nodes = [.expr e]) :
    Obtained e := by
  refine .around other fun l isLiteral mem => ?_
  rw [isLeaf, List.mem_singleton] at mem
  obtain rfl := Node.expr.inj mem
  rw [isLiteral] at other
  cases other

theorem Expr.withKind_namesMembersOnce {value : Expr} (type : TypeInfo)
    (distinct : Every Node.NamesMembersOnce value.nodes) :
    Every Node.NamesMembersOnce (value.withKind type).nodes := by
  unfold withKind
  split
  · exact every_cons.2 ⟨trivial, distinct⟩
  · exact distinct

theorem Operation.apply_namesMembersOnce {op : Operation} {receiver e : Expr}
    (ok : op.apply receiver = .ok e) (ofReceiver : Every Node.NamesMembersOnce receiver.nodes)
    (ofOperands : Every Node.NamesMembersOnce (Expr.nodesAll op.operands)) :
    Every Node.NamesMembersOnce e.nodes := by
  cases op with
  | select name => exact Expr.select_every ok ofReceiver
  | call site => exact Expr.call_every ofOperands ok ofReceiver fun _ => trivial
  | construct args => exact Expr.constructWith_every ok ofOperands
  | testInstance cls => exact Expr.testInstance_every ok ofReceiver
  | unary op => exact Expr.applyUnary_every ok ofReceiver
  | binary op rhs =>
    exact Expr.applyBinary_every ok ofReceiver (by simpa [operands] using ofOperands)
  | refer method => exact Expr.refer_every ok ofReceiver fun _ => trivial
  | coerce type =>
    rcases Expr.coerce_cases ok with rfl | ⟨_, rfl⟩ | ⟨value, kind, rfl, rfl⟩
    · exact ofReceiver
    · exact Expr.withKind_namesMembersOnce type ofReceiver
    · exact Expr.withKind_namesMembersOnce type (every_cons.1 ofReceiver).2

theorem Expr.every_nodesAll {P : Node → Prop} {es : List Expr}
    (holds : ∀ e ∈ es, Every P e.nodes) : Every P (Expr.nodesAll es) := by
  rw [Expr.nodesAll_eq]
  exact List.forall_mem_flatMap.2 holds

/-- In what operations make the members of an object have names that differ from each other. -/
theorem Obtained.namesMembersOnce {e : Expr} (obtained : Obtained e) :
    Every Node.NamesMembersOnce e.nodes := by
  induction obtained with
  | around other literals ih =>
    intro node mem
    cases node with
    | expr l =>
      by_cases isLiteral : l.isObjectLiteral
      · -- the literal is a node of itself
        exact ih l isLiteral mem _ (l.nodes_eq false ▸ List.mem_cons_self)
      · exact Node.namesMembersOnce_of_not_isObjectLiteral (by simpa using isLiteral)
    | _ => trivial
  | result op ok _ _ ofReceiver ofOperands =>
    exact Operation.apply_namesMembersOnce ok ofReceiver (Expr.every_nodesAll ofOperands)

/-- The literal of a structured object that values are put in has one member for each key, in the
order in which the keys were first put, with the value that was put last. And the names of the
members differ in every literal of an object that operations make. -/
theorem literal_of_puts :
    (∀ puts : List Put, ∃ members,
      Expr.constructAndCall .jsonObject (puts.map Put.site) = .ok (.jsonObject members) ∧
      members.map Member.name = (puts.map Put.key).eraseDups ∧
      ∀ key, Member.named? key members =
        (puts.reverse.find? (·.key = key)).map fun put => .single key put.value) ∧
    ∀ e, Obtained e → Every Node.NamesMembersOnce e.nodes := by
  refine ⟨fun puts => ?_, fun e obtained => obtained.namesMembersOnce⟩
  refine ⟨Update.applyAll [] (puts.map Put.update),
    Expr.callAll_of_extends Put.call_jsonObject puts [], ?_, fun key => ?_⟩
  · rw [Update.names_applyAll, List.map_map]
    rfl
  · have sets : ∀ u ∈ puts.map Put.update, u.isSet := by
      rintro u mem
      obtain ⟨put, _, rfl⟩ := List.mem_map.1 mem
      rfl
    rw [Update.named?_applyAll_of_isSet sets, ← List.map_reverse, List.find?_map, Option.map_map]
    rfl

/-- A call with arguments, apart from the types. -/
def siteOf (method : String) (args : List Expr) : CallSite where
  receiverType := .void
  method := ⟨method, [], false, .void⟩
  returnType := .void
  args := args
  argTypes := []

/-- A variable. -/
def localNamed (name : String) : Expr := .identifier name .variable

theorem literal_of_puts_twice :
    (∃ members,
      Expr.constructAndCall .jsonObject [siteOf "put" [.string "a", localNamed "x"],
        siteOf "putNull" [.string "b"], siteOf "put" [.string "a", localNamed "y"]] =
          .ok (.jsonObject members) ∧
      members.map Member.name = ["a", "b"] ∧
      Member.named? "a" members = some (.single "a" (localNamed "y")) ∧
      Member.named? "b" members = some (.single "b" .null)) ∧
    ∃ e, Expr.constructAndCall .jsonObject [siteOf "put" [.string "a", localNamed "x"]] = .ok e ∧
      Every Node.NamesMembersOnce e.nodes := by
  obtain ⟨puts, operations⟩ := literal_of_puts
  constructor
  · obtain ⟨members, isLiteral, names, found⟩ := puts [
      ⟨siteOf "put" [.string "a", localNamed "x"], "a", localNamed "x", .put rfl rfl⟩,
      ⟨siteOf "putNull" [.string "b"], "b", .null, .putNull rfl rfl⟩,
      ⟨siteOf "put" [.string "a", localNamed "y"], "a", localNamed "y", .put rfl rfl⟩]
    exact ⟨members, isLiteral, names.trans (by decide), (found "a").trans rfl,
      (found "b").trans rfl⟩
  · refine ⟨.jsonObject [.single "a" (localNamed "x")], rfl, operations _ ?_⟩
    -- the arguments are leaves, and so is the class that the literal is constructed from
    have empty : Obtained (.jsonObject []) :=
      .result (.construct []) rfl (.leaf (e := .cls .jsonObject) rfl rfl) (List.forall_mem_nil _)
    refine .result (.call (siteOf "put" [.string "a", localNamed "x"])) rfl empty ?_
    exact List.forall_mem_cons.2 ⟨.leaf rfl rfl, List.forall_mem_singleton.2 (.leaf rfl rfl)⟩

/-! ### Data objects -/

/-- The calls that set a property or add to one. -/
inductive CallSite.Updates : CallSite → Update → Prop
  | set {site : CallSite} (name : String) {value : Expr}
    (isSetter : property? site.method.name "set" = some name) (args : site.args = [value]) :
    Updates site (.set name value)
  | add {site : CallSite} (name : String) {value : Expr}
    (isAdder : property? site.method.name "add" = some name) (args : site.args = [value]) :
    Updates site (.add (name ++ "s") value)

/-- A call that sets a property or adds to one. -/
structure PropertyCall where
  site : CallSite
  update : Update
  updates : site.Updates update

/-- A setter is no adder. -/
theorem property?_set_of_add {accessor name : String}
    (isAdder : property? accessor "add" = some name) : property? accessor "set" = none := by
  unfold property? at isAdder ⊢
  split at isAdder
  next isPrefix =>
    have noPrefix : "set".toList.isPrefixOf accessor.toList = false := by
      rw [Bool.eq_false_iff]
      intro other
      obtain ⟨rest, isRest⟩ := List.isPrefixOf_iff_prefix.1 isPrefix
      obtain ⟨others, isOthers⟩ := List.isPrefixOf_iff_prefix.1 other
      rw [← isRest] at isOthers
      cases (List.cons.inj isOthers).1
    rw [noPrefix]
    rfl
  next => cases isAdder

theorem PropertyCall.call_dataObject (type : ClassType) (call : PropertyCall)
    (members : List Member) :
    (Expr.dataObject type members).call call.site =
      .ok (.dataObject type (call.update.apply members)) := by
  obtain ⟨site, update, updates⟩ := call
  rw [Expr.call, Expr.callDataObject]
  cases updates with
  | set name isSetter args =>
    rw [args]
    simp only [isSetter]
    rfl
  | add name isAdder args =>
    rw [args]
    simp only [isAdder, property?_set_of_add isAdder]
    rfl

/-- The members of a data object hold the values of setters and adders that are not lost, in
order: a value is lost by a later call on its property unless both add to it. So exactly those
that a later setter replaces are lost just when a setter that an adder comes after is also followed
by a setter of the same property. -/
theorem literal_of_property_calls (type : ClassType) (calls : List PropertyCall) :
    ∃ members,
      Expr.constructAndCall (.dataObject type) (calls.map PropertyCall.site) =
        .ok (.dataObject type members) ∧
      (∀ name, Member.held name members =
        Update.left Update.IsLost name (calls.map PropertyCall.update)) ∧
      ((∀ name, Member.held name members =
          Update.left Update.IsReplaced name (calls.map PropertyCall.update)) ↔
        ∀ before u later, calls.map PropertyCall.update = before ++ u :: later → u.isSet →
          (∃ w ∈ later, w.name = u.name ∧ !w.isSet) → u.IsReplaced later) := by
  refine ⟨Update.applyAll [] (calls.map PropertyCall.update),
    Expr.callAll_of_extends (PropertyCall.call_dataObject type) calls [],
    fun name => Update.held_applyAll name _, ?_⟩
  -- for the values held under one name, and then for all names
  simp only [Update.held_applyAll, Update.left_isLost_eq_iff, ← Update.IsLost.isReplaced_iff]
  constructor
  · intro onlyReplaced before u later isSplit
    exact onlyReplaced u.name before u later isSplit rfl
  · intro onlyReplaced name before u later isSplit _
    exact onlyReplaced before u later isSplit

/-- A data object. -/
def optionsType : ClassType := ⟨"demo.Options", .dataObject⟩

theorem literal_of_property_calls_hosts : ∃ members,
    Expr.constructAndCall (.dataObject optionsType) [siteOf "setPort" [localNamed "p"],
      siteOf "addHost" [.string "a"], siteOf "addHost" [.string "b"]] =
        .ok (.dataObject optionsType members) ∧
    Member.held "port" members = [localNamed "p"] ∧
    Member.held "hosts" members = [.string "a", .string "b"] := by
  obtain ⟨members, isLiteral, held, -⟩ := literal_of_property_calls optionsType [
    ⟨siteOf "setPort" [localNamed "p"], .set "port" (localNamed "p"), .set "port" rfl rfl⟩,
    ⟨siteOf "addHost" [.string "a"], .add "hosts" (.string "a"), .add "host" rfl rfl⟩,
    ⟨siteOf "addHost" [.string "b"], .add "hosts" (.string "b"), .add "host" rfl rfl⟩]
  exact ⟨members, isLiteral, (held "port").trans rfl, (held "hosts").trans rfl⟩

/-- A list of hosts that was set is lost when another host is added. -/
theorem hosts_lost :
    Expr.constructAndCall (.dataObject optionsType)
        [siteOf "setHosts" [localNamed "hosts"], siteOf "addHost" [.string "a"]] =
      .ok (.dataObject optionsType [.sequence "hosts" [.string "a"]]) ∧
    Update.left Update.IsReplaced "hosts"
        [.set "hosts" (localNamed "hosts"), .add "hosts" (.string "a")] =
      [localNamed "hosts", .string "a"] :=
  ⟨rfl, rfl⟩

end Model

/-- The names of the members differ in every literal of an object of a compiled program. -/
theorem Source.Program.members_differ {config : Config} {program : Program} {unit : Model.Unit}
    (lowers : program.lower config = .ok unit) : Every Node.NamesMembersOnce unit.nodes :=
  every_node lowers

end Polyscript
