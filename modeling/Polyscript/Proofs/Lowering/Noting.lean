import Polyscript.Compilation
import Polyscript.Proofs.Lowering.Loop
import Polyscript.Proofs.Model.Uses

/-!
# What lowering makes

Lowering takes note of a use when it makes a node for it. If all that has been noted in
the end is of some sort, then every node of the models that were made has the properties that
nodes get as they are made: a name that a model uses can be relied on to have been noted, as far
as the tree writes calls on the enclosing instance in a way that is noted; the fragments of a
block fit its statements; and a callback keeps apart the branches of its body.

Whether a variable has a property can depend on what is bound to its symbol. Lowering keeps an
invariant of its state for that, which has to hold after every step, and a name in the tree fits
if the scopes that it can have under the invariant give the variable the property.

## Main definitions

* `Step.Notes`: a step that keeps an invariant and whose result has a property if what is noted
  in the end is of some sort.
* `Lowering.Steady`: the invariants that lowering keeps, apart from names.
* `Lowering.MakesInside`, `Lowering.Makes`: the properties that nodes get as they are made, with
  and without the variables from outside the class left to the names.
* `Lowering.NodeFits`: what is asked of a node of the tree.

## Main statements

* `Lowering.keepsTo_of_nodeFits`: a tree whose nodes fit is lowered to nodes with the property.
* `Declaration.notes_lower_of_fits`: the same of the nodes of a declaration, and its model has its
  name.
-/

namespace Polyscript

open Model (Use Every AdmitsMade made)
open Lowering Source

variable {I : Progress → Prop} {p : Use → Prop}

/-- Whether all fields and methods that have been used are of some sort. -/
def Uses.Only (p : Use → Prop) (uses : Uses) : Prop :=
  (∀ name ∈ uses.fields, p (.field name)) ∧ ∀ name ∈ uses.methods, p (.method name)

namespace Step

variable {α β : Type} {Q : α → Prop} {R : β → Prop}

/-- A step that keeps an invariant and whose result has a property if all that has been used in
the end is of some sort; all that had been used at its beginning is of that sort then. -/
def Notes (I : Progress → Prop) (p : Use → Prop) (Q : α → Prop) (x : Step α) : Prop :=
  ∀ s a t, I s → x s = (.ok a, t) → I t ∧ (t.uses.Only p → s.uses.Only p ∧ Q a)

theorem Notes.pure {a : α} (holds : Q a) : Notes I p Q (pure a) := by
  intro s b t inv ok
  obtain ⟨rfl, rfl⟩ := ok_of_pure ok
  exact ⟨inv, fun only => ⟨only, holds⟩⟩

theorem Notes.fail (cause : Unsupported) : Notes I p Q (Step.fail cause) := by
  intro s a t _ ok
  cases ok

/-- The property of a result may be assumed for the steps that follow, but only of what they
give: what they note does not depend on it. -/
theorem Notes.bind {x : Step α} {f : α → Step β} (first : Notes I p Q x)
    (next : ∀ a, Notes I p (fun b => Q a → R b) (f a)) : Notes I p R (x >>= f) := by
  intro s b t inv ok
  obtain ⟨a, s', left, right⟩ := ok_of_bind ok
  obtain ⟨inv, before⟩ := first s a s' inv left
  obtain ⟨inv, after⟩ := next a s' b t inv right
  refine ⟨inv, fun only => ?_⟩
  obtain ⟨only, holds⟩ := after only
  obtain ⟨only, given⟩ := before only
  exact ⟨only, holds given⟩

theorem Notes.lift {result : Except Unsupported α} (holds : ∀ a, result = .ok a → Q a) :
    Notes I p Q (Step.lift result) :=
  match result, holds with
  | .ok a, holds => Notes.pure (holds a rfl)
  | .error cause, _ => Notes.fail cause

theorem Notes.lift_bind {result : Except Unsupported α} {f : α → Step β}
    (next : ∀ a, result = .ok a → Notes I p R (f a)) : Notes I p R (Step.lift result >>= f) :=
  match result, next with
  | .ok a, next => next a rfl
  | .error cause, _ => Notes.fail cause

/-- A step that uses nothing. -/
theorem notes_update {f : Progress → Progress} (keeps : ∀ s, I s → I (f s))
    (uses : ∀ s, (f s).uses = s.uses) : Notes I p (fun _ => True) (update f) := by
  intro s a t inv ok
  cases ok
  exact ⟨keeps s inv, fun only => ⟨uses s ▸ only, trivial⟩⟩

theorem Notes.imp {x : Step α} {Q' : α → Prop} (notes : Notes I p Q x)
    (weaker : ∀ a, Q a → Q' a) : Notes I p Q' x := by
  intro s a t inv ok
  obtain ⟨inv, holds⟩ := notes s a t inv ok
  exact ⟨inv, fun only => (holds only).imp_right (weaker a)⟩

/-- The state may be asked for, and the invariant holds of it. -/
theorem Notes.progress {f : Progress → Step α} (next : ∀ s, I s → Notes I p Q (f s)) :
    Notes I p Q (Step.progress >>= f) :=
  fun s a t inv ok => next s inv s a t inv ok

end Step

open Step

/-- An invariant of states that is kept by what lowering a tree does to a state, apart from
lowering its names. -/
class Lowering.Steady (r : Resolver) (I : Progress → Prop) : Prop where
  noteLookup {s : Progress} (id : SymbolId) (inv : I s) :
    I { s with lookedUp := id :: s.lookedUp }
  declare {s : Progress} (id : SymbolId) {scope : Model.Scope} (type : TypeInfo)
    (isLocal : scope = .variable ∨ scope = .parameter) (inv : I s) :
    I { s with scopes := s.scopes.declare id scope type }
  useField {s : Progress} {name : String} (declared : hasField r name) (inv : I s) :
    I { s with uses := { s.uses with fields := s.uses.fields.insert name } }
  useMethod {s : Progress} (name : String) (inv : I s) :
    I { s with uses := { s.uses with methods := s.uses.methods.insert name } }

instance (r : Resolver) : Steady r fun _ => True where
  noteLookup _ inv := inv
  declare _ _ _ _ inv := inv
  useField _ inv := inv
  useMethod _ inv := inv

namespace Lowering

theorem notes_useField {name : String}
    (keeps : ∀ s, I s → I { s with uses := { s.uses with fields := s.uses.fields.insert name } }) :
    Notes I p (fun _ => p (.field name)) (useField name) := by
  intro s a t inv ok
  cases ok
  refine ⟨keeps s inv, fun only => ?_⟩
  have used : name ∈ s.uses.fields.insert name := List.mem_insert_self
  refine ⟨⟨fun other mem => ?_, only.2⟩, only.1 name used⟩
  exact only.1 other (List.mem_insert_of_mem mem)

variable (r : Resolver) [Steady r I]
include r

theorem notes_useMethod (name : String) :
    Notes I p (fun _ => p (.method name)) (useMethod name) := by
  intro s a t inv ok
  cases ok
  refine ⟨Steady.useMethod r name inv, fun only => ?_⟩
  have used : name ∈ s.uses.methods.insert name := List.mem_insert_self
  refine ⟨⟨only.1, fun other mem => ?_⟩, only.2 name used⟩
  exact only.2 other (List.mem_insert_of_mem mem)

/-- A local variable or a parameter is bound. -/
theorem notes_declare (id : SymbolId) {scope : Model.Scope} (type : TypeInfo)
    (isLocal : scope = .variable ∨ scope = .parameter) :
    Notes I p (fun _ => True) (declare id scope type) :=
  notes_update (fun _ => Steady.declare r id type isLocal) fun _ => rfl

end Lowering

/-- A property that nodes get as lowering makes them, if all uses that are noted are of some
sort, apart from variables from outside the class. -/
class Lowering.MakesInside (p : outParam (Use → Prop)) (P : Model.Node → Prop) : Prop
    extends AdmitsMade P where
  used (node : Model.Node) (use : Use) (isUse : node.use? = some use) (noted : p use) : P node
  handler (name : String) (paramType resultType : TypeInfo) (body : Model.LambdaBody) :
    P (.expr (.asyncHandler
      ⟨name, paramType, resultType, body, (split name body).1, (split name body).2⟩))
  stmt (s : Model.Stmt) : P (.stmt s)
  block (block : Model.Block) (fitting : block.IsFitting) : P (.block block)

/-- A property that nodes get as lowering makes them, if all uses that are noted are of some
sort. -/
class Lowering.Makes (p : outParam (Use → Prop)) (P : Model.Node → Prop) : Prop
    extends MakesInside p P where
  external (name : String) : P (.expr (.identifier name .global))

theorem Lowering.madeStmt (P : Model.Node → Prop) [MakesInside p P] (s : Model.Stmt) :
    P (.stmt s) :=
  MakesInside.stmt s

variable {P : Model.Node → Prop}

namespace Lowering

/-- A scope that a name can have: a field may be noted, and a variable from outside the class has
the property of nodes. -/
structure Scoped (I : Progress → Prop) (P : Model.Node → Prop) (name : String)
    (scope : Model.Scope) : Prop where
  field : scope = .field → ∀ s, I s →
    I { s with uses := { s.uses with fields := s.uses.fields.insert name } }
  global : scope = .global → P (.expr (.identifier name .global))

/-- A name whose scope, bound or looked up, is one that it can have. -/
structure NameFits (I : Progress → Prop) (P : Model.Node → Prop) (r : Resolver) (name : String)
    (id : SymbolId) : Prop where
  bound {s : Progress} {binding : Binding} (inv : I s)
    (isBound : s.scopes.lookup id = some binding) : Scoped I P name binding.scope
  found {s : Progress} {symbol : Symbol} {scope : Model.Scope} (inv : I s)
    (isFound : r.program.symbol? id = some symbol)
    (classified : s.scopes.classify symbol = .ok scope) :
    Scoped I P name scope ∧
      ∀ type t, I t → I { t with scopes := t.scopes.declare id scope type }

/-- Without an invariant, a name fits if it has the property when it is from outside. -/
theorem NameFits.of_external {r : Resolver} {name : String} {id : SymbolId}
    (external : P (.expr (.identifier name .global))) :
    NameFits (fun _ => True) P r name id where
  bound _ _ := ⟨fun _ _ _ => trivial, fun _ => external⟩
  found _ _ _ := ⟨⟨fun _ _ _ => trivial, fun _ => external⟩, fun _ _ _ => trivial⟩

theorem notes_variableOf [MakesInside p P] {name : String} {scope : Model.Scope}
    (fits : Scoped I P name scope) (type : TypeInfo) :
    Notes I p (fun e => Every P e.nodes ∧ e ≠ .this) (variableOf name scope type) := by
  have coerced {e : Model.Expr} (ok : (Model.Expr.identifier name scope).coerce type = .ok e)
      (noted : scope = .field → p (.field name)) : Every P e.nodes ∧ e ≠ .this := by
    refine ⟨Model.Expr.coerce_every rfl ok ?_, Model.Expr.coerce_ne_this rfl ok⟩
    have named : P (.expr (.identifier name scope)) := by
      cases scope with
      | field => exact MakesInside.used _ (.field name) rfl (noted rfl)
      | global => exact fits.global rfl
      | _ => exact made P _ rfl
    simpa using named
  unfold variableOf
  split
  next isField =>
    refine Notes.bind (notes_useField (fits.field isField)) fun _ =>
      Notes.lift fun e ok noted => ?_
    exact coerced ok fun _ => noted
  next notField =>
    exact Notes.lift fun e ok => coerced ok fun isField => absurd isField notField

section Steps

variable (r : Resolver) [Steady r I]

theorem notes_lookUp (id : SymbolId) :
    Notes I p (fun symbol => r.program.symbol? id = some symbol) (lookUp r id) := by
  unfold lookUp
  refine Notes.bind (notes_update (fun _ => Steady.noteLookup r id) fun _ => rfl) fun _ => ?_
  split
  next found => exact Notes.pure fun _ => found
  next => exact Notes.fail _

theorem notes_testedClass (id : SymbolId) :
    Notes I p (fun _ => True) (testedClass r id) := by
  unfold testedClass
  refine Notes.bind (notes_lookUp r id) fun symbol => ?_
  split
  · exact Notes.pure fun _ => trivial
  · exact Notes.fail _

theorem notes_bindParams (params : List (SymbolId × Ty)) :
    Notes I p (fun _ => True) (bindParams r params) := by
  induction params with
  | nil => exact Notes.pure trivial
  | cons param rest ih =>
    unfold bindParams
    refine Notes.lift_bind fun type _ =>
      Notes.bind (notes_declare r param.1 type (.inr rfl)) fun _ => ?_
    exact Notes.bind ih fun _ => Notes.pure fun _ _ => trivial

include r in
theorem notes_noteReference (name : String) (receiver : Model.Expr) :
    Notes I p (fun _ => receiver = .this → p (.method name)) (noteReference name receiver) := by
  unfold noteReference
  split
  · exact Notes.fail _
  · exact (notes_useMethod r name).imp fun _ noted _ => noted
  next notThis => exact Notes.pure fun isThis => absurd isThis notThis

end Steps

theorem every_classReference [AdmitsMade P] (r : Resolver) (name : String) :
    Every P (classReference r name).nodes ∧ classReference r name ≠ .this := by
  unfold classReference
  split
  · simp [made P]
  · split <;> simp [made P]

variable (r : Resolver) [Steady r I]

/-- A name that is looked up is not the enclosing instance. -/
theorem notes_unbound [MakesInside p P] {name : String} {id : SymbolId}
    (fits : NameFits I P r name id) :
    Notes I p (fun e => Every P e.nodes ∧ e ≠ .this) (unbound r name id) := by
  unfold unbound lookUp
  rw [bind_assoc]
  refine Notes.bind (notes_update (fun _ => Steady.noteLookup r id) fun _ => rfl) fun _ => ?_
  cases found : r.program.symbol? id with
  | none => exact Notes.fail _
  | some symbol =>
    rw [pure_bind]
    split
    · split
      · exact Notes.pure fun _ => every_classReference r _
      · exact Notes.fail _
    · refine Notes.progress fun s inv => ?_
      refine Notes.lift_bind fun scope classified => Notes.lift_bind fun type _ => ?_
      obtain ⟨fits, declares⟩ := fits.found inv found classified
      refine Notes.bind (notes_update (declares type) fun _ => rfl) fun _ => ?_
      exact (notes_variableOf fits type).imp fun e holds _ _ => holds

end Lowering

/-- A context in which symbols stand for asynchronous results only. -/
def Context.AliasesResults (ctx : Context) : Prop :=
  ∀ id e, ctx.alias? id = some e → ∃ name type, e = .asyncResult name type

theorem Context.AliasesResults.withAlias {ctx : Context} (results : ctx.AliasesResults)
    (id : SymbolId) (name : String) (type : TypeInfo) :
    (ctx.withAlias id (.asyncResult name type)).AliasesResults := by
  intro other e found
  have found : ((id, .asyncResult name type) :: ctx.aliases).lookup other = some e := found
  rw [List.lookup_cons] at found
  split at found
  · exact ⟨name, type, (Option.some.inj found).symm⟩
  · exact results other e found

/-- A name is the enclosing instance only if it is the keyword for it. -/
theorem Lowering.notes_identifier [MakesInside p P] (r : Resolver) [Steady r I] {ctx : Context}
    (results : ctx.AliasesResults) {name : String} {id : SymbolId}
    (fits : name ≠ "this" → NameFits I P r name id) :
    Notes I p (fun e => Every P e.nodes ∧ (e = .this → name = "this"))
      (identifier r ctx name id) := by
  unfold identifier
  split
  next isThis => exact Notes.pure ⟨by simp [made P], fun _ => isThis⟩
  next notThis =>
    split
    next e found =>
      obtain ⟨name, type, rfl⟩ := results id e found
      exact Notes.pure ⟨by simp [made P], fun isThis => by cases isThis⟩
    next =>
      -- bound before or looked up now, a variable is never the enclosing instance
      refine Notes.progress fun s inv => ?_
      split
      next binding isBound =>
        refine (notes_variableOf ((fits notThis).bound inv isBound) _).imp fun e holds => ?_
        exact ⟨holds.1, fun isThis => absurd isThis holds.2⟩
      next =>
        refine (notes_unbound r (fits notThis)).imp fun e holds => ?_
        exact ⟨holds.1, fun isThis => absurd isThis holds.2⟩

/-- Whether an expression is the bare keyword for the enclosing instance, without
parentheses around it. -/
def Source.Expr.isBareThis : Source.Expr → Bool
  | .ident name _ _ => name == "this"
  | .typeApply base _ _ => base.isBareThis
  | _ => false

/-- The method that a node calls or refers to on the enclosing instance: the name that is
noted, if one is, and the number of the method. A call after the keyword notes nothing. -/
def Source.Node.ownCall? : Source.Node → Option (Option String × SymbolId)
  | .expr (.call (.unqualified name) id _ _ _) => some (some name, id)
  | .expr (.call (.member target _) id _ _ _) =>
    if target.isBareThis then some (none, id) else none
  | .expr (.methodRef qualifier name _ id _) =>
    if qualifier.isBareThis then some (some name, id) else none
  | _ => none

/-- The method that a node calls or refers to on the enclosing instance is used in a way that
is noted, as far as the sort of uses in question is concerned. -/
def Lowering.NotesOwn (p : Use → Prop) (r : Resolver) (node : Source.Node) : Prop :=
  ∀ call ∈ node.ownCall?, ∀ method ∈ r.program.method? call.2,
    (∀ name ∈ call.1, p (.method name)) → p (.method method.name)

/-- Whether a callee is the enclosing instance, and then noted by a use of some sort. -/
def Source.Callee.IsOwn (p : Use → Prop) : Callee → Prop
  | .unqualified name => p (.method name)
  | .member target _ => target.isBareThis

theorem Lowering.NotesOwn.call {r : Resolver} {callee : Callee} {id : SymbolId}
    {args : List Arg} {ty : Ty} {span : Span} {method : MethodType}
    (notes : NotesOwn p r (.expr (.call callee id args ty span))) (own : callee.IsOwn p)
    (found : r.program.method? id = some method) : p (.method method.name) := by
  cases callee with
  | unqualified name => exact notes _ rfl method found fun _ mem => Option.some.inj mem ▸ own
  | member target name =>
    refine notes (none, id) ?_ method found fun _ mem => by cases mem
    exact if_pos own

theorem Lowering.NotesOwn.reference {r : Resolver} {qualifier : Source.Expr} {name : String}
    {mode : RefMode} {id : SymbolId} {span : Span} {method : MethodType}
    (notes : NotesOwn p r (.expr (.methodRef qualifier name mode id span)))
    (own : qualifier.isBareThis) (noted : p (.method name))
    (found : r.program.method? id = some method) : p (.method method.name) := by
  refine notes (some name, id) ?_ method found fun _ mem => Option.some.inj mem ▸ noted
  exact if_pos own

theorem Resolver.name_of_signature {r : Resolver} {id : SymbolId} {signature : Signature}
    (ok : r.signature id = .ok signature) :
    ∃ method, r.program.method? id = some method ∧ signature.name = method.name := by
  unfold Resolver.signature Resolver.method at ok
  cases found : r.program.method? id with
  | none =>
    rw [found] at ok
    cases ok
  | some method =>
    rw [found] at ok
    simp only [bind, Except.bind] at ok
    split at ok
    · cases ok
    · split at ok
      · cases ok
      · cases ok
        exact ⟨method, rfl, rfl⟩

/-- The nodes of the model of an expression have a property, and the model is the enclosing
instance only if the expression is the keyword for it. -/
structure Source.Expr.Keeps (P : Model.Node → Prop) (e : Source.Expr) (model : Model.Expr) :
    Prop where
  every : Every P model.nodes
  bare : model = .this → e.isBareThis

theorem Source.Expr.Keeps.of_ne_this {e : Source.Expr} {model : Model.Expr}
    (holds : Every P model.nodes) (notThis : model ≠ .this) : e.Keeps P model :=
  ⟨holds, fun isThis => absurd isThis notThis⟩

theorem Source.Expr.Keeps.of_isPlain {e : Source.Expr} {model : Model.Expr}
    (holds : Every P model.nodes) (plain : model.isPlain) : e.Keeps P model :=
  .of_ne_this holds (Model.Expr.ne_this_of_isPlain plain)

namespace Lowering

variable (I p P) in
/-- The nodes of whatever is lowered at a node have a property, if all that has been noted in the
end is of some sort. -/
def KeepsTo (r : Resolver) : Source.Node → Prop
  | .expr e => ∀ ctx, ctx.AliasesResults → Notes I p (e.Keeps P) (e.lower r ctx)
  | .stmt s => ∀ ctx, ctx.AliasesResults → Notes I p (fun m => Every P m.nodes) (s.lower r ctx)

end Lowering

section Trees

variable {r : Resolver} {ctx : Context} (results : ctx.AliasesResults)
include results

theorem Source.Expr.notes_lowerAll {es : List Source.Expr}
    (keeps : ∀ node ∈ Expr.nodesAll es, KeepsTo I p P r node) :
    Notes I p (fun ms => Every P (Model.Expr.nodesAll ms))
      (Expr.lowerAllWith (identifier r) r ctx es) := by
  induction es with
  | nil =>
    rw [Expr.lowerAllWith]
    exact Notes.pure (by simp)
  | cons e rest ih =>
    obtain ⟨first, others⟩ := List.forall_mem_append.1 keeps
    rw [Expr.lowerAllWith]
    refine Notes.bind (first _ e.mem_nodes ctx results) fun m => ?_
    refine Notes.bind (ih others) fun ms => Notes.pure fun rest own => ?_
    simp [own.every, rest]

theorem Source.Expr.notes_lowerOption {e : Option Source.Expr}
    (keeps : ∀ node ∈ Expr.nodesOption e, KeepsTo I p P r node) :
    Notes I p (fun m => Every P (Model.Expr.nodesOption m))
      (Expr.lowerOptionWith (identifier r) r ctx e) := by
  cases e with
  | none =>
    rw [Expr.lowerOptionWith]
    exact Notes.pure (by simp)
  | some e =>
    rw [Expr.lowerOptionWith]
    exact Notes.bind (keeps _ e.mem_nodes ctx results) fun m => Notes.pure fun own => own.every

/-- The receiver of a call is the enclosing instance only in a call on it. -/
theorem Source.Callee.notes_lower [MakesInside p P] [Steady r I] {callee : Callee}
    (keeps : ∀ node ∈ callee.nodes, KeepsTo I p P r node) :
    Notes I p (fun m => Every P m.nodes ∧ (m = .this → callee.IsOwn p))
      (callee.lowerWith (identifier r) r ctx) := by
  cases callee with
  | unqualified name =>
    rw [Callee.lowerWith]
    refine Notes.bind (notes_useMethod r name) fun _ => Notes.pure fun noted => ?_
    exact ⟨by simp [made P], fun _ => noted⟩
  | member target name =>
    rw [Callee.lowerWith]
    exact (keeps _ target.mem_nodes ctx results).imp fun m own => ⟨own.every, own.bare⟩

theorem Source.Arg.notes_lowerAll {args : List Arg}
    (keeps : ∀ node ∈ Arg.nodesAll args, KeepsTo I p P r node) :
    Notes I p (fun ms => Every P (Model.Expr.nodesAll ms))
      (Arg.lowerAllWith (identifier r) r ctx args) := by
  induction args with
  | nil =>
    rw [Arg.lowerAllWith]
    exact Notes.pure (by simp)
  | cons arg rest ih =>
    obtain ⟨e, ty⟩ := arg
    obtain ⟨first, others⟩ := List.forall_mem_append.1 keeps
    rw [Arg.lowerAllWith]
    refine Notes.bind (first _ e.mem_nodes ctx results) fun m => ?_
    refine Notes.bind (ih others) fun ms => Notes.pure fun rest own => ?_
    simp [own.every, rest]

theorem Source.Stmt.notes_lowerAll {stmts : List Source.Stmt}
    (keeps : ∀ node ∈ Stmt.nodesAll stmts, KeepsTo I p P r node) :
    Notes I p (fun ms => Every P (Model.Stmt.nodesAll ms))
      (Stmt.lowerAllWith (identifier r) r ctx stmts) := by
  induction stmts with
  | nil =>
    rw [Stmt.lowerAllWith]
    exact Notes.pure (by simp)
  | cons stmt rest ih =>
    obtain ⟨first, others⟩ := List.forall_mem_append.1 keeps
    rw [Stmt.lowerAllWith]
    refine Notes.bind (first _ stmt.mem_nodes ctx results) fun m => ?_
    refine Notes.bind (ih others) fun ms => Notes.pure fun rest own => ?_
    simp [own, rest]

theorem Source.Stmt.notes_lowerOption {stmt : Option Source.Stmt}
    (keeps : ∀ node ∈ Stmt.nodesOption stmt, KeepsTo I p P r node) :
    Notes I p (fun m => Every P (Model.Stmt.nodesOption m))
      (Stmt.lowerOptionWith (identifier r) r ctx stmt) := by
  cases stmt with
  | none =>
    rw [Stmt.lowerOptionWith]
    exact Notes.pure (by simp)
  | some stmt =>
    rw [Stmt.lowerOptionWith]
    exact Notes.bind (keeps _ stmt.mem_nodes ctx results) fun m => Notes.pure fun own => own

theorem Source.Block.notes_lower [MakesInside p P] {block : Source.Block}
    (keeps : ∀ node ∈ block.nodes, KeepsTo I p P r node) :
    Notes I p (fun m => Every P m.nodes) (block.lowerWith (identifier r) r ctx) := by
  obtain ⟨stmts, span⟩ := block
  rw [Block.lowerWith]
  refine Notes.bind (Stmt.notes_lowerAll results keeps) fun ms => Notes.pure fun holds => ?_
  have fitting : (withFragments r ctx span (stmts.map (·.span)) ms).IsFitting ∧
      (withFragments r ctx span (stmts.map (·.span)) ms).stmts = ms := by
    unfold withFragments Model.Block.ofStmts Model.Block.withFragments
    dsimp only
    split
    · split
      next fits => exact ⟨.inr fits, rfl⟩
      next => exact ⟨.inl rfl, rfl⟩
    · exact ⟨.inl rfl, rfl⟩
  generalize withFragments r ctx span (stmts.map (·.span)) ms = block at fitting
  obtain ⟨stmts, fragments⟩ := block
  obtain ⟨fitting, rfl⟩ := fitting
  exact Model.every_cons.2 ⟨MakesInside.block _ fitting, holds⟩

theorem Source.LambdaBody.notes_lower [MakesInside p P] {body : Source.LambdaBody}
    (keeps : ∀ node ∈ body.nodes, KeepsTo I p P r node) :
    Notes I p (fun m => Every P m.nodes) (body.lowerWith (identifier r) r ctx) := by
  cases body with
  | expr e =>
    rw [LambdaBody.lowerWith]
    exact Notes.bind (keeps _ e.mem_nodes ctx results) fun m => Notes.pure fun own => own.every
  | block b =>
    rw [LambdaBody.lowerWith]
    exact Notes.bind (b.notes_lower results keeps) fun m => Notes.pure fun holds => holds

end Trees

/-- The branches of a callback that are kept apart are branches of its body. -/
theorem Lowering.every_split (name : String) {body : Model.LambdaBody}
    (holds : Every P body.nodes) :
    Every P (Model.Stmt.nodesOption (split name body).1) ∧
      Every P (Model.Stmt.nodesOption (split name body).2) := by
  have neither : Every P (Model.Stmt.nodesOption none) ∧
      Every P (Model.Stmt.nodesOption none) := by simp
  unfold split
  split
  case h_1 cond branch otherwise fragments =>
    have branches : Every P branch.nodes ∧ Every P (Model.Stmt.nodesOption otherwise) := by
      simp only [Model.LambdaBody.nodes, Model.Block.nodes, Model.Stmt.nodesAll, Model.Stmt.nodes,
        Model.Branch.nodesAll, Model.every_cons, Model.every_append] at holds
      exact ⟨holds.2.1.2.1.2.1, holds.2.1.2.2⟩
    split
    · split
      · split
        · exact branches
        · exact branches.symm
        · exact neither
      · exact neither
    · exact neither
  case h_2 => exact neither

/-- What is asked of a node so that its model has the properties that nodes get: it notes its own
uses, and if it is a name, then its scope is one that it can have. -/
structure Lowering.NodeFits (I : Progress → Prop) (p : Use → Prop) (P : Model.Node → Prop)
    (r : Resolver) (node : Source.Node) : Prop where
  own : NotesOwn p r node
  name {name : String} {id : SymbolId} {span : Span} :
    node = .expr (.ident name id span) → name ≠ "this" → NameFits I P r name id

/-- Without an invariant, a node fits that notes its own uses. -/
theorem Lowering.NotesOwn.fits [Makes p P] {r : Resolver} {node : Source.Node}
    (own : NotesOwn p r node) : NodeFits (fun _ => True) p P r node where
  own := own
  name _ _ := .of_external (Makes.external _)

variable {r : Resolver} [Steady r I]

/-- An expression keeps to a property if its nodes below do. -/
theorem Source.Expr.keepsTo_of_below [MakesInside p P] (e : Source.Expr)
    (fits : NodeFits I p P r (.expr e))
    (below : ∀ part ∈ (Source.Node.expr e).below, KeepsTo I p P r part) :
    KeepsTo I p P r (.expr e) := by
  intro ctx results
  rw [Source.Expr.lower]
  cases e with
  | ident name id span =>
    rw [Expr.lowerWith]
    refine (notes_identifier r results (fits.name rfl)).imp fun m own => ⟨own.1, fun isThis => ?_⟩
    rw [own.2 isThis]
    rfl
  | literal value span =>
    rw [Expr.lowerWith]
    exact Notes.pure (.of_isPlain (by simp [made P]) rfl)
  | binary op lhs rhs span =>
    obtain ⟨left, right⟩ := List.forall_mem_append.1 below
    rw [Expr.lowerWith]
    refine Notes.lift_bind fun op _ => Notes.bind (left _ lhs.mem_nodes ctx results) fun l => ?_
    refine Notes.bind (right _ rhs.mem_nodes ctx results) fun r => Notes.lift fun m ok hr hl => ?_
    exact .of_isPlain (Model.Expr.applyBinary_every ok hl.every hr.every)
      (Model.Expr.isPlain_of_applyBinary ok)
  | unary op operand span =>
    rw [Expr.lowerWith]
    refine Notes.lift_bind fun op _ => ?_
    refine Notes.bind (below _ operand.mem_nodes ctx results) fun o => ?_
    exact Notes.lift fun m ok ho => .of_isPlain (Model.Expr.applyUnary_every ok ho.every)
      (Model.Expr.isPlain_of_applyUnary ok)
  | assign target value span =>
    obtain ⟨left, right⟩ := List.forall_mem_append.1 below
    rw [Expr.lowerWith]
    refine Notes.bind (left _ target.mem_nodes ctx results) fun target => ?_
    refine Notes.bind (right _ value.mem_nodes ctx results) fun value => Notes.pure fun hv ht => ?_
    exact .of_isPlain (by simp [made P, ht.every, hv.every]) rfl
  | compoundAssign op target value span =>
    rw [Expr.lowerWith]
    exact Notes.fail _
  | conditional cond yes no span =>
    obtain ⟨conds, branches⟩ := List.forall_mem_append.1 below
    obtain ⟨yeses, nos⟩ := List.forall_mem_append.1 branches
    rw [Expr.lowerWith]
    refine Notes.bind (conds _ cond.mem_nodes ctx results) fun cond => ?_
    refine Notes.bind (yeses _ yes.mem_nodes ctx results) fun yes => ?_
    refine Notes.bind (nos _ no.mem_nodes ctx results) fun no => Notes.pure fun hn hy hc => ?_
    exact .of_isPlain (by simp [made P, hc.every, hy.every, hn.every]) rfl
  | parens inner span =>
    rw [Expr.lowerWith]
    refine Notes.bind (below _ inner.mem_nodes ctx results) fun inner => Notes.pure fun hi => ?_
    exact .of_isPlain (by simp [made P, hi.every]) rfl
  | select target name ty span =>
    rw [Expr.lowerWith]
    refine Notes.lift_bind fun type _ => ?_
    split
    next isOwn =>
      have declared := ((Bool.and_eq_true _ _).mp isOwn).2
      have fits : Scoped I P name .field :=
        ⟨fun _ _ => Steady.useField declared, fun isGlobal => by cases isGlobal⟩
      exact (notes_variableOf fits type).imp fun m own => .of_ne_this own.1 own.2
    · refine Notes.bind (below _ target.mem_nodes ctx results) fun receiver => ?_
      refine Notes.lift_bind fun selected isField => Notes.lift fun m ok hr => ?_
      have plain := Model.Expr.isPlain_of_select isField
      have selected := Model.Expr.select_every isField hr.every
      exact .of_ne_this (Model.Expr.coerce_every plain ok selected)
        (Model.Expr.coerce_ne_this plain ok)
  | call callee method args ty span =>
    obtain ⟨callees, arguments⟩ := List.forall_mem_append.1 below
    rw [Expr.lowerWith]
    refine Notes.bind (callee.notes_lower results callees) fun receiver => ?_
    refine Notes.lift_bind fun argTypes _ => ?_
    refine Notes.bind (Arg.notes_lowerAll results arguments) fun args => ?_
    refine Notes.lift_bind fun returnType _ => Notes.lift_bind fun receiverType _ => ?_
    refine Notes.lift_bind fun signature signed => Notes.lift_bind fun call isCall => ?_
    refine Notes.lift fun m ok ha hr => ?_
    -- the name in the call is that of the method it is resolved to, not the one written
    have noted (isThis : receiver = .this) : p (.method signature.name) := by
      obtain ⟨found, isMethod, sameName⟩ := Resolver.name_of_signature signed
      rw [sameName]
      exact fits.own.call (hr.2 isThis) isMethod
    have noted (isThis : receiver = .this) := MakesInside.used (P := P)
      (.expr (.invocation .this ⟨receiverType, signature, returnType, args, argTypes⟩))
      (.method signature.name) rfl (noted isThis)
    have plain := Model.Expr.isPlain_of_call isCall
    have called := Model.Expr.call_every ha isCall hr.1 noted
    exact .of_ne_this (Model.Expr.coerce_every plain ok called)
      (Model.Expr.coerce_ne_this plain ok)
  | construct cls args span =>
    obtain ⟨classes, arguments⟩ := List.forall_mem_append.1 below
    rw [Expr.lowerWith]
    refine Notes.bind (classes _ cls.mem_nodes ctx results) fun cls => ?_
    refine Notes.bind (Expr.notes_lowerAll results arguments) fun args => ?_
    exact Notes.lift fun m ok ha _ => .of_isPlain (Model.Expr.constructWith_every ok ha)
      (Model.Expr.isPlain_of_constructWith ok)
  | instanceOf e cls span =>
    rw [Expr.lowerWith]
    refine Notes.bind (notes_testedClass r cls) fun cls => ?_
    refine Notes.bind (below _ e.mem_nodes ctx results) fun e => ?_
    exact Notes.lift fun m ok he _ => .of_isPlain (Model.Expr.testInstance_every ok he.every)
      (Model.Expr.isPlain_of_testInstance ok)
  | lambda params body span =>
    rw [Expr.lowerWith]
    refine Notes.lift_bind fun found _ => ?_
    cases found with
    | some callback =>
      obtain ⟨param, type, resultType⟩ := callback
      have results := results.withAlias param.sym param.name resultType
      refine Notes.bind (body.notes_lower results below) fun m => Notes.pure fun hb => ?_
      -- the branches of the body stand beside the body, so their nodes count a second time
      obtain ⟨succeeded, failed⟩ := every_split param.name hb
      refine .of_isPlain ?_ rfl
      simp only [Model.Expr.nodes, Model.AsyncHandler.nodes, Model.every_cons,
        Model.every_append]
      exact ⟨MakesInside.handler param.name type resultType m, hb, succeeded, failed⟩
    | none =>
      refine Notes.bind (notes_bindParams r _) fun types => ?_
      refine Notes.bind (body.notes_lower results below) fun m => Notes.pure fun hb _ => ?_
      exact .of_isPlain (by simp [made P, hb]) rfl
  | methodRef qualifier name mode method span =>
    rw [Expr.lowerWith]
    split
    · exact Notes.fail _
    · refine Notes.bind (below _ qualifier.mem_nodes ctx results) fun receiver => ?_
      refine Notes.bind (notes_noteReference r name receiver) fun _ => ?_
      refine Notes.lift_bind fun signature signed => Notes.lift fun m ok noted hr => ?_
      have own (isThis : receiver = .this) : p (.method signature.name) := by
        obtain ⟨found, isMethod, sameName⟩ := Resolver.name_of_signature signed
        rw [sameName]
        exact fits.own.reference (hr.bare isThis) (noted isThis) isMethod
      have own (isThis : receiver = .this) := MakesInside.used (P := P)
        (.expr (.methodReference .this signature)) (.method signature.name) rfl (own isThis)
      exact .of_isPlain (Model.Expr.refer_every ok hr.every own) (Model.Expr.isPlain_of_refer ok)
  | typeApply base args span =>
    rw [Expr.lowerWith]
    -- type arguments are left out of the model, so the keyword may stand below them
    exact (below _ base.mem_nodes ctx results).imp fun m hb => ⟨hb.every, hb.bare⟩

theorem Lowering.every_chain [MakesInside p P] {cond : Model.Expr} {body : Model.Stmt}
    {otherwise : Option Model.Stmt} (condHolds : Every P cond.nodes)
    (bodyHolds : Every P body.nodes) (rest : Every P (Model.Stmt.nodesOption otherwise)) :
    Every P (chain ⟨cond, body⟩ otherwise).nodes := by
  unfold chain
  split
  · simp only [Model.Stmt.nodesOption, Model.Stmt.nodes, Model.every_cons,
      Model.every_append] at rest
    simp [madeStmt P, condHolds, bodyHolds, rest.2]
  · simp [madeStmt P, condHolds, bodyHolds, rest]

/-- A statement keeps to a property if its nodes below do. -/
theorem Source.Stmt.keepsTo_of_below [MakesInside p P] (s : Source.Stmt)
    (below : ∀ part ∈ (Source.Node.stmt s).below, KeepsTo I p P r part) :
    KeepsTo I p P r (.stmt s) := by
  intro ctx results
  rw [Source.Stmt.lower]
  cases s with
  | block block =>
    rw [Stmt.lowerWith]
    refine Notes.bind (block.notes_lower results below) fun m => Notes.pure fun holds => ?_
    simp [madeStmt P, holds]
  | «local» decl =>
    obtain ⟨name, id, ty, init, span⟩ := decl
    rw [Stmt.lowerWith, VarDecl.lowerWith]
    refine Notes.lift_bind fun type _ => ?_
    refine Notes.bind (Expr.notes_lowerOption results below) fun init => ?_
    refine Notes.bind (notes_declare r _ _ (.inl rfl)) fun _ => Notes.pure fun _ holds => ?_
    simp [madeStmt P, holds]
  | expr e span =>
    -- an assignment that is a statement is lowered part by part, not as an expression
    have he := below _ e.mem_nodes ctx results
    cases e with
    | assign target value span =>
      obtain ⟨left, right⟩ := List.forall_mem_append.1 (List.forall_mem_cons.1 below).2
      rw [Stmt.lowerWith]
      refine Notes.bind (left _ target.mem_nodes ctx results) fun target => ?_
      refine Notes.bind (right _ value.mem_nodes ctx results) fun value => ?_
      exact Notes.pure fun hv ht => by simp [madeStmt P, ht.every, hv.every]
    | _ =>
      simp only [Stmt.lowerWith]
      exact Notes.bind he fun m => Notes.pure fun holds => by simp [madeStmt P, holds.every]
  | conditional cond yes no span =>
    obtain ⟨conds, branches⟩ := List.forall_mem_append.1 below
    obtain ⟨yeses, nos⟩ := List.forall_mem_append.1 branches
    rw [Stmt.lowerWith]
    refine Notes.bind (conds _ cond.mem_nodes ctx results) fun cond => ?_
    refine Notes.bind (yeses _ yes.mem_nodes ctx results) fun yes => ?_
    refine Notes.bind (Stmt.notes_lowerOption results nos) fun no => ?_
    exact Notes.pure fun hn hy hc => every_chain hc.every hy hn
  | loop inits cond updates body span =>
    obtain ⟨hi, rest⟩ := List.forall_mem_append.1 below
    obtain ⟨hc, rest⟩ := List.forall_mem_append.1 rest
    obtain ⟨hu, hb⟩ := List.forall_mem_append.1 rest
    rcases inits with _ | ⟨init, _ | ⟨_, _⟩⟩
    case cons.nil =>
      rcases updates with _ | ⟨update, _ | ⟨_, _⟩⟩
      case cons.nil =>
        cases cond with
        | none =>
          rw [Stmt.lowerWith]
          exact Notes.fail _
        | some cond =>
          rw [Stmt.lowerWith_loop]
          cases found : ranged? init cond update with
          | some count =>
            -- a loop over a range keeps of its head only where it starts and where it stops
            obtain ⟨start, stop, _⟩ := mem_nodes_of_ranged? found
            refine Notes.lift_bind fun type _ => ?_
            refine Notes.bind (hi _ (List.mem_append_left [] start) ctx results) fun start => ?_
            refine Notes.bind (hc _ stop ctx results) fun stop => ?_
            refine Notes.bind (notes_declare r _ _ (.inl rfl)) fun _ => ?_
            refine Notes.bind (hb _ body.mem_nodes ctx results) fun body => ?_
            refine Notes.pure fun body _ stop start => ?_
            simp [madeStmt P, start.every, stop.every, body]
          | none =>
            refine Notes.bind (hi _ (List.mem_append_left [] init.mem_nodes) ctx results)
              fun init => ?_
            refine Notes.bind (hc _ cond.mem_nodes ctx results) fun cond => ?_
            refine Notes.bind (hu _ (List.mem_append_left [] update.mem_nodes) ctx results)
              fun update => ?_
            refine Notes.bind (hb _ body.mem_nodes ctx results) fun body => ?_
            refine Notes.pure fun body update cond init => ?_
            simp [madeStmt P, init, cond.every, update.every, body]
      all_goals
        simp only [Stmt.lowerWith]
        exact Notes.fail _
    all_goals
      simp only [Stmt.lowerWith]
      exact Notes.fail _
  | forEach var iterable body span =>
    obtain ⟨_, rest⟩ := List.forall_mem_append.1 below
    obtain ⟨hi, hb⟩ := List.forall_mem_append.1 rest
    rw [Stmt.lowerWith]
    refine Notes.bind (hi _ iterable.mem_nodes ctx results) fun iterable => ?_
    refine Notes.lift_bind fun type _ => Notes.bind (notes_declare r _ _ (.inl rfl)) fun _ => ?_
    refine Notes.bind (hb _ body.mem_nodes ctx results) fun body => Notes.pure fun hb _ hi => ?_
    simp [madeStmt P, hi.every, hb]
  | whileLoop cond body span =>
    rw [Stmt.lowerWith]
    exact Notes.fail _
  | tryCatch body catches cleanup span =>
    obtain ⟨hb, rest⟩ := List.forall_mem_append.1 below
    obtain ⟨hc, _⟩ := List.forall_mem_append.1 rest
    cases cleanup with
    | some cleanup =>
      rw [Stmt.lowerWith]
      exact Notes.fail _
    | none =>
      rcases catches with _ | ⟨⟨param, handler⟩, _ | ⟨_, _⟩⟩
      case cons.nil =>
        obtain ⟨_, handlers⟩ := List.forall_mem_append.1 hc
        obtain ⟨hh, _⟩ := List.forall_mem_append.1 handlers
        rw [Stmt.lowerWith, CatchClause.lowerWith]
        refine Notes.bind (body.notes_lower results hb) fun body => ?_
        have clause : Notes I p (fun clause : String × Model.Stmt => Every P clause.2.nodes) (do
            let type ← r.resolve param.ty
            Step.declare param.sym .variable type
            let body ← handler.lowerWith (identifier r) r ctx
            return (param.name, .block body)) := by
          refine Notes.lift_bind fun type _ => ?_
          refine Notes.bind (notes_declare r _ _ (.inl rfl)) fun _ => ?_
          refine Notes.bind (handler.notes_lower results hh) fun m => Notes.pure fun holds _ => ?_
          simp [madeStmt P, holds]
        refine Notes.bind clause fun clause => ?_
        obtain ⟨name, handler⟩ := clause
        refine Notes.pure fun hh hb => ?_
        simp only [Model.Stmt.nodes, Model.every_cons, Model.every_append]
        exact ⟨madeStmt P _, ⟨madeStmt P _, hb⟩, hh⟩
      all_goals
        simp only [Stmt.lowerWith]
        exact Notes.fail _
  | throw e span =>
    rw [Stmt.lowerWith]
    refine Notes.bind (below _ e.mem_nodes ctx results) fun m => ?_
    split
    · refine Notes.pure fun he => ?_
      have holds := he.every
      simp only [Model.Expr.nodes, Model.every_cons] at holds
      simp [madeStmt P, holds.2]
    · exact Notes.fail _
  | «return» e span =>
    rw [Stmt.lowerWith]
    refine Notes.bind (Expr.notes_lowerOption results below) fun m => Notes.pure fun holds => ?_
    simp [madeStmt P, holds]
  | «break» span =>
    rw [Stmt.lowerWith]
    exact Notes.fail _
  | «continue» span =>
    rw [Stmt.lowerWith]
    exact Notes.fail _

/-- In a tree whose nodes note their own uses, every node keeps to a property that nodes get as
they are made. -/
theorem Lowering.keepsTo_of_nodeFits [MakesInside p P] (node : Source.Node)
    (fits : NodeFits I p P r node) (below : ∀ part ∈ node.below, KeepsTo I p P r part) :
    KeepsTo I p P r node := by
  cases node with
  | expr e => exact e.keepsTo_of_below fits below
  | stmt s => exact s.keepsTo_of_below below

/-- The model of a declaration has the name of the declaration. -/
def Declaration.Names : Declaration → Lowered → Prop
  | .field decl, .field model => model.name = decl.name
  | .method decl, .method model => model.signature.name = decl.name
  | _, _ => False

/-- The nodes of a declaration. -/
def Declaration.nodes : Declaration → List Source.Node
  | .field decl => decl.nodes
  | .method decl => decl.nodes

/-- The nodes of the model of a declaration. -/
def Lowered.nodes : Lowered → List Model.Node
  | .field model => model.nodes
  | .method model => model.nodes

variable {ctx : Context} (results : ctx.AliasesResults)
include results

theorem Source.MethodDecl.notes_lower_of_fits [MakesInside p P] {decl : MethodDecl}
    (fits : ∀ node ∈ decl.nodes, NodeFits I p P r node) :
    Notes I p (fun m => Every P m.nodes ∧ m.signature.name = decl.name)
      (decl.lower r ctx) := by
  have keeps := decl.body.forall_nodes (keepsTo_of_nodeFits (P := P)) fits
  unfold MethodDecl.lower MethodDecl.lowerWith
  refine Notes.bind (notes_bindParams r _) fun params => Notes.lift_bind fun ret _ => ?_
  exact Notes.bind (decl.body.notes_lower results keeps) fun body =>
    Notes.pure fun holds _ => ⟨holds, rfl⟩

theorem Source.FieldDecl.notes_lower_of_fits [MakesInside p P] {decl : FieldDecl}
    (declares : ∀ type s, I s → I { s with scopes := s.scopes.declare decl.sym .field type })
    (fits : ∀ node ∈ decl.nodes, NodeFits I p P r node) :
    Notes I p (fun m => Every P m.nodes ∧ m.name = decl.name) (decl.lower r ctx) := by
  have keeps := Expr.forall_nodesOption (keepsTo_of_nodeFits (P := P)) decl.init fits
  unfold FieldDecl.lower FieldDecl.lowerWith
  refine Notes.lift_bind fun type _ =>
    Notes.bind (notes_update (declares type) fun _ => rfl) fun _ => ?_
  exact Notes.bind (Expr.notes_lowerOption results keeps) fun init =>
    Notes.pure fun holds _ => ⟨holds, rfl⟩

/-- The declaration of a field, if it is one, binds its symbol with an invariant kept. -/
def Declaration.Binds (I : Progress → Prop) : Declaration → Prop
  | .field decl =>
    ∀ type s, I s → I { s with scopes := s.scopes.declare decl.sym .field type }
  | .method _ => True

theorem Declaration.notes_lower_of_fits [MakesInside p P] {d : Declaration} (binds : d.Binds I)
    (fits : ∀ node ∈ d.nodes, NodeFits I p P r node) :
    Notes I p (fun m => Every P m.nodes ∧ d.Names m) (d.lower r ctx) := by
  cases d with
  | field decl =>
    exact Notes.bind (decl.notes_lower_of_fits results binds fits) fun m =>
      Notes.pure fun given => given
  | method decl =>
    exact Notes.bind (decl.notes_lower_of_fits results fits) fun m =>
      Notes.pure fun given => given

omit [Steady r I] in
/-- If all that has been used after a method is of some sort, then so is what had been used
before it, and the nodes of its model have what nodes get as they are made. -/
theorem Source.MethodDecl.notes_lower [Makes p P] {decl : MethodDecl}
    (own : ∀ node ∈ decl.nodes, NotesOwn p r node) (s : Progress) (m : Model.Method)
    (t : Progress) (ok : decl.lower r ctx s = (.ok m, t)) (only : t.uses.Only p) :
    s.uses.Only p ∧ Every P m.nodes ∧ m.signature.name = decl.name :=
  (decl.notes_lower_of_fits results (fun node mem => (own node mem).fits) s m t trivial ok).2 only

end Polyscript
