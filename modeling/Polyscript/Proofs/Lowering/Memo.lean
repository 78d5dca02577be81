import Polyscript.Compilation
import Polyscript.Proofs.Lowering.Congruence

/-!
# Bound symbols as a memo

A symbol that is bound is not looked up again, so the bindings are a memo of what the
program's tables say of symbols. They are no more than that as long as declarations and
tables agree: lowering then gives the same results and notes the same uses as a lowering
that forgets every binding before it lowers a name.
-/

namespace Polyscript

open Lowering Source

/-- The program's tables have a symbol whose kind has the scope of a binding and whose type
is resolved to the type of the binding. -/
def Resolver.Records (r : Resolver) (id : SymbolId) (binding : Binding) : Prop :=
  ∃ symbol, r.program.symbol? id = some symbol ∧
    (Scopes.ofUnit r.program.unit).classify symbol = .ok binding.scope ∧
    r.resolve symbol.ty = .ok binding.type

/-- The program's tables say of a declared variable what its declaration says. -/
def Source.Binder.Matches (r : Resolver) (binder : Binder) : Prop :=
  ∀ type, r.resolve binder.ty = .ok type → r.Records binder.sym ⟨binder.scope, type⟩

/-- Forget every binding. -/
def Step.forget : Step Unit :=
  update fun s => { s with scopes := { s.scopes with bindings := [] } }

/-- Names lowered without a memo: every binding is forgotten before a name is lowered. -/
def Lowering.identifierAfresh (r : Resolver) : Naming := fun ctx name id => do
  Step.forget
  identifier r ctx name id

/-- A state whose bindings say what the program's tables say, and another one with the same
uses and whatever bindings. -/
structure Progress.SameUses (r : Resolver) (s t : Progress) : Prop where
  uses : s.uses = t.uses
  fields : s.scopes.fields = (Scopes.ofUnit r.program.unit).fields
  otherFields : t.scopes.fields = (Scopes.ofUnit r.program.unit).fields
  recorded : ∀ id binding, s.scopes.lookup id = some binding → r.Records id binding

/-- Steps that give the same results and keep the uses the same, of which the first also
keeps its bindings in agreement with the program's tables. -/
def Step.Simulates (r : Resolver) {α : Type} (x y : Step α) : Prop :=
  ∀ s t, s.SameUses r t → (x s).1 = (y t).1 ∧ (x s).2.SameUses r (y t).2

namespace Step

variable {r : Resolver} {α β : Type}

theorem Simulates.bind {x y : Step α} {f g : α → Step β} (first : x.Simulates r y)
    (next : ∀ a, (f a).Simulates r (g a)) : (x >>= f).Simulates r (y >>= g) := by
  intro s t same
  obtain ⟨result, same⟩ := first s t same
  cases left : x s with
  | mk outcome s' =>
    cases right : y t with
    | mk outcome' t' =>
      rw [left, right] at result same
      obtain rfl : outcome = outcome' := result
      cases outcome with
      | ok a =>
        rw [bind_of_ok left, bind_of_ok right]
        exact next a s' t' same
      | error cause =>
        rw [bind_of_error left, bind_of_error right]
        exact ⟨rfl, same⟩

/-- Steps may ask for the state if what they make of it on either side is simulated. -/
theorem Simulates.progress {f g : Progress → Step α}
    (next : ∀ s t, s.SameUses r t → (f s).Simulates r (g t)) :
    (Step.progress >>= f).Simulates r (Step.progress >>= g) :=
  fun s t same => next s t same s t same

/-- Changes of the uses that are the same change on both sides. -/
theorem simulates_update {f : Progress → Progress}
    (uses : ∀ {s t : Progress}, s.uses = t.uses → (f s).uses = (f t).uses)
    (scopes : ∀ s, (f s).scopes = s.scopes) : (update f).Simulates r (update f) := by
  intro s t same
  refine ⟨rfl, uses same.uses, ?_, ?_, ?_⟩
  · exact (congrArg Scopes.fields (scopes s)).trans same.fields
  · exact (congrArg Scopes.fields (scopes t)).trans same.otherFields
  · intro id binding found
    have found : (f s).scopes.lookup id = some binding := found
    rw [scopes s] at found
    exact same.recorded id binding found

/-- Steps put together from simulated ones are simulated. -/
theorem simulates_congruence (r : Resolver) : Step.Congruence fun x y => x.Simulates r y where
  pure _ := fun _ _ same => ⟨rfl, same⟩
  fail _ := fun _ _ same => ⟨rfl, same⟩
  bind := Simulates.bind
  useMethod _ := simulates_update (fun same => by rw [same]) fun _ => rfl
  noteLookup _ := simulates_update (fun same => same) fun _ => rfl

theorem simulates_useField (name : String) : (useField name).Simulates r (useField name) :=
  simulates_update (fun same => by rw [same]) fun _ => rfl

/-- A binding that says what the program's tables say may be added to the memo. -/
theorem simulates_declare {id : SymbolId} {scope : Model.Scope} {type : TypeInfo}
    (recorded : r.Records id ⟨scope, type⟩) :
    (declare id scope type).Simulates r (declare id scope type) := by
  intro s t same
  refine ⟨rfl, same.uses, same.fields, same.otherFields, fun id' binding found => ?_⟩
  have found : ((id, ⟨scope, type⟩) :: s.scopes.bindings).lookup id' = some binding := found
  rw [List.lookup_cons] at found
  by_cases isNew : id' = id
  · subst isNew
    rw [beq_self_eq_true] at found
    obtain rfl := Option.some.inj found
    exact recorded
  · rw [beq_eq_false_iff_ne.2 isNew] at found
    exact same.recorded id' binding found

end Step

open Step

variable {r : Resolver}

theorem Scopes.classify_congr {scopes others : Scopes} (fields : scopes.fields = others.fields)
    (symbol : Symbol) : scopes.classify symbol = others.classify symbol := by
  unfold Scopes.classify
  rw [fields]

/-- The symbol of a recorded binding is a variable. -/
theorem Scopes.kind_ne_type {scopes : Scopes} {symbol : Symbol} {scope : Model.Scope}
    (classified : scopes.classify symbol = .ok scope) : symbol.kind ≠ .type := by
  intro isType
  rw [Scopes.classify, isType] at classified
  cases classified

/-- Looking up a name whose symbol is a variable of a resolved type binds the symbol and gives
the variable. -/
theorem Lowering.unbound_apply {id : SymbolId} {symbol : Symbol} {scope : Model.Scope}
    {type : TypeInfo} {t : Progress} (found : r.program.symbol? id = some symbol)
    (classified : t.scopes.classify symbol = .ok scope)
    (resolved : r.resolve symbol.ty = .ok type) (name : String) :
    unbound r name id t = variableOf name scope type
      { t with scopes := t.scopes.declare id scope type, lookedUp := id :: t.lookedUp } := by
  have looked : lookUp r id t = (.ok symbol, { t with lookedUp := id :: t.lookedUp }) := by
    unfold lookUp
    rw [found]
    rfl
  rw [unbound, bind_of_ok looked, if_neg (Scopes.kind_ne_type classified)]
  change ((lift (t.scopes.classify symbol) >>= fun scope => _) : Step Model.Expr) _ = _
  rw [classified]
  change ((lift (r.resolve symbol.ty) >>= fun type => _) : Step Model.Expr) _ = _
  rw [resolved]
  rfl

/-- Looking up a recorded name gives the variable of its binding. -/
theorem Lowering.unbound_of_records {id : SymbolId} {binding : Binding}
    (recorded : r.Records id binding) (name : String) {t : Progress}
    (fields : t.scopes.fields = (Scopes.ofUnit r.program.unit).fields) :
    unbound r name id t = variableOf name binding.scope binding.type
      { t with
        scopes := t.scopes.declare id binding.scope binding.type
        lookedUp := id :: t.lookedUp } := by
  obtain ⟨symbol, found, classified, resolved⟩ := recorded
  -- a symbol is classified by the fields of the class alone, whatever is bound
  have classified : t.scopes.classify symbol = .ok binding.scope :=
    (Scopes.classify_congr fields symbol).trans classified
  exact unbound_apply found classified resolved name

/-- Looking up a name gives the same on both sides, and what it binds is recorded. -/
theorem Lowering.simulates_unbound (name : String) (id : SymbolId) :
    (unbound r name id).Simulates r (unbound r name id) := by
  have congr := simulates_congruence r
  unfold unbound lookUp
  rw [bind_assoc]
  refine congr.bind (congr.noteLookup id) fun _ => ?_
  cases found : r.program.symbol? id with
  | none => exact congr.fail _
  | some symbol =>
    rw [pure_bind]
    split
    · split
      · exact congr.pure _
      · exact congr.fail _
    · refine Simulates.progress fun s t same => ?_
      -- both sides classify by the class's fields, which no step changes
      rw [Scopes.classify_congr same.fields, Scopes.classify_congr same.otherFields]
      refine congr.lift_bind fun scope classified => congr.lift_bind fun type resolved => ?_
      exact congr.bind (simulates_declare ⟨symbol, found, classified, resolved⟩) fun _ =>
        congr.variableOf (fun _ => simulates_useField name) type

/-- A name that is bound has been bound to what looking it up would give; any other name is
looked up on both sides. -/
theorem Lowering.simulates_identifier (ctx : Context) (name : String) (id : SymbolId) :
    (identifier r ctx name id).Simulates r (identifierAfresh r ctx name id) := by
  intro s t same
  -- the state in which the other side lowers the name has no bindings at all
  let fresh : Progress := { t with scopes := { t.scopes with bindings := [] } }
  have same : s.SameUses r fresh := ⟨same.uses, same.fields, same.otherFields, same.recorded⟩
  change (identifier r ctx name id s).1 = (identifier r ctx name id fresh).1 ∧
    (identifier r ctx name id s).2.SameUses r (identifier r ctx name id fresh).2
  rw [identifier_apply, identifier_apply]
  by_cases isThis : name = "this"
  · rw [if_pos isThis, if_pos isThis]
    exact ⟨rfl, same⟩
  rw [if_neg isThis, if_neg isThis]
  cases ctx.alias? id with
  | some e => exact ⟨rfl, same⟩
  | none =>
    have noBinding : fresh.scopes.lookup id = none := rfl
    rw [noBinding]
    cases found : s.scopes.lookup id with
    | none => exact simulates_unbound name id s fresh same
    | some binding =>
      -- one side reads the memo, the other looks the symbol up and declares it again
      have recorded := same.recorded id binding found
      dsimp only
      rw [unbound_of_records recorded name same.otherFields]
      refine (simulates_congruence r).variableOf (fun _ => simulates_useField name) binding.type
        _ _ ?_
      exact ⟨same.uses, same.fields, same.otherFields, same.recorded⟩

theorem Lowering.fits_simulates {node : Source.Node}
    (consistent : ∀ binder ∈ node.binders, binder.Matches r) :
    Fits (fun x y => x.Simulates r y) (identifier r) (identifierAfresh r) r r.program.unit
      node where
  name _ ctx := simulates_identifier ctx _ _
  own _ _ _ _ otherwise := (simulates_congruence r).ownField (simulates_useField _) _ otherwise
  binder mem _ resolved := simulates_declare (consistent _ mem _ resolved)

/-- A tree that is lowered by itself. -/
inductive Source.Piece where
  | method (decl : MethodDecl)
  | field (decl : FieldDecl)
  | block (block : Source.Block)
  | stmt (stmt : Source.Stmt)
  | expr (expr : Source.Expr)

/-- The model of a tree that is lowered by itself. -/
inductive Model.Piece where
  | method (model : Model.Method)
  | field (model : Model.Field)
  | block (block : Model.Block)
  | stmt (stmt : Model.Stmt)
  | expr (expr : Model.Expr)

namespace Source.Piece

/-- The nodes of a tree. -/
def nodes : Piece → List Node
  | .method decl => decl.nodes
  | .field decl => decl.nodes
  | .block b => b.nodes
  | .stmt s => s.nodes
  | .expr e => e.nodes

/-- The variables that are declared in a tree. -/
def binders : Piece → List Binder
  | .method decl => decl.params.map Param.binder ++ decl.nodes.flatMap Node.binders
  | .field decl => decl.binder :: decl.nodes.flatMap Node.binders
  | p => p.nodes.flatMap Node.binders

/-- Lower a tree. -/
def lowerWith (n : Naming) (r : Resolver) (ctx : Context) : Piece → Step Model.Piece
  | .method decl => do return .method (← decl.lowerWith n r ctx)
  | .field decl => do return .field (← decl.lowerWith n r ctx)
  | .block b => do return .block (← b.lowerWith n r ctx)
  | .stmt s => do return .stmt (← s.lowerWith n r ctx)
  | .expr e => do return .expr (← e.lowerWith n r ctx)

/-- A tree whose declarations agree with the program's tables is lowered to the same with
and without a memo. -/
theorem simulates_lowerWith (piece : Piece) (ctx : Context)
    (consistent : ∀ binder ∈ piece.binders, binder.Matches r) :
    (piece.lowerWith (identifier r) r ctx).Simulates r
      (piece.lowerWith (identifierAfresh r) r ctx) := by
  have congr := simulates_congruence r
  have fits {nodes : List Node} (of : ∀ binder ∈ nodes.flatMap Node.binders, binder.Matches r) :
      ∀ node ∈ nodes, Fits (fun x y => x.Simulates r y) (identifier r) (identifierAfresh r) r
        r.program.unit node := fun node mem =>
    fits_simulates fun binder declared => of binder (List.mem_flatMap.2 ⟨node, mem, declared⟩)
  cases piece with
  | method decl =>
    obtain ⟨params, body⟩ := List.forall_mem_append.1 consistent
    refine congr.bind (decl.lowerWith_congr congr ctx (fun param mem type resolved => ?_)
      (fits body)) fun _ => congr.pure _
    exact simulates_declare (params _ (List.mem_map_of_mem mem) type resolved)
  | field decl =>
    obtain ⟨own, init⟩ := List.forall_mem_cons.1 consistent
    refine congr.bind (decl.lowerWith_congr congr ctx (fun {type} resolved => ?_) (fits init))
      fun _ => congr.pure _
    exact simulates_declare (own type resolved)
  | block b =>
    exact congr.bind (b.lowerWith_congr congr ctx (fits consistent)) fun _ => congr.pure _
  | stmt s =>
    exact congr.bind (s.lowerWith_congr congr ctx (fits consistent)) fun _ => congr.pure _
  | expr e =>
    exact congr.bind (e.lowerWith_congr congr ctx (fits consistent)) fun _ => congr.pure _

end Source.Piece

/-- Lower trees one after the other, each in its context and in the state that the one
before has left, whether that one was lowered or failed. Of each, the result and the uses
noted until then are given. -/
def Lowering.session (n : Naming) (r : Resolver) :
    List (Context × Piece) → Progress → List (Except Unsupported Model.Piece × Uses)
  | [], _ => []
  | (ctx, piece) :: rest, s =>
    let (result, t) := piece.lowerWith n r ctx s
    (result, t.uses) :: session n r rest t

theorem Lowering.session_of_sameUses {tasks : List (Context × Piece)}
    (consistent : ∀ task ∈ tasks, ∀ binder ∈ task.2.binders, binder.Matches r)
    {s t : Progress} (same : s.SameUses r t) :
    session (identifier r) r tasks s = session (identifierAfresh r) r tasks t := by
  induction tasks generalizing s t with
  | nil => rfl
  | cons task rest ih =>
    obtain ⟨first, others⟩ := List.forall_mem_cons.1 consistent
    obtain ⟨result, after⟩ := task.2.simulates_lowerWith task.1 first s t same
    rw [session, session]
    dsimp only
    rw [result, after.uses, ih others after]

theorem Source.Program.start_sameUses (config : Config) (program : Program) :
    program.start.SameUses (program.resolver config) program.start where
  uses := rfl
  fields := rfl
  otherFields := rfl
  recorded _ _ found := by cases found

/-- The memo is transparent: whatever trees are lowered one after the other, in whatever
contexts, each gives the same result and leaves the same uses as without the memo, if the
variables declared in the trees agree with the program's tables. -/
theorem Source.Program.session_eq_session_afresh (config : Config) (program : Program)
    (tasks : List (Context × Piece))
    (consistent : ∀ task ∈ tasks, ∀ binder ∈ task.2.binders,
      binder.Matches (program.resolver config)) :
    session (identifier (program.resolver config)) (program.resolver config) tasks
        program.start =
      session (identifierAfresh (program.resolver config)) (program.resolver config) tasks
        program.start :=
  session_of_sameUses consistent (program.start_sameUses config)

/-- A class with the field `count`, of which a method copies the field to `x` and tests it. -/
def Source.Program.counting : Program where
  unit := { name := "Counting", fields := [⟨"count", 1, .primitive .int, none⟩] }
  symbols := .ofList [
    (0, ⟨"x", .localVariable, .primitive .int, none⟩),
    (1, ⟨"count", .field, .primitive .int, none⟩)]

/-- A declaration that is read in a later step, a step that fails after it has declared a
variable, and a field that is read before and after its own declaration. -/
def Source.Program.countingTasks : List (Context × Piece) :=
  let ctx : Context := { options := ⟨true, true⟩ }
  let x : Source.Expr := .ident "x" 0
  let count : Source.Expr := .ident "count" 1
  [(ctx, .expr count),
    (ctx, .block ⟨[.local ⟨"x", 0, .primitive .int, some count, {}⟩, .break], {}⟩),
    (ctx, .field ⟨"count", 1, .primitive .int, none⟩),
    (ctx, .expr (.binary .lessThan x count))]

theorem Source.Program.session_countingTasks :
    (∀ task ∈ countingTasks, ∀ binder ∈ task.2.binders,
      binder.Matches (counting.resolver {})) ∧
    session (identifier (counting.resolver {})) (counting.resolver {}) countingTasks
        counting.start =
      session (identifierAfresh (counting.resolver {})) (counting.resolver {}) countingTasks
        counting.start := by
  have consistent : ∀ task ∈ countingTasks, ∀ binder ∈ task.2.binders,
      binder.Matches (counting.resolver {}) := by
    have binders : countingTasks.flatMap (·.2.binders) =
        [⟨0, .variable, .primitive .int⟩, ⟨1, .field, .primitive .int⟩] := rfl
    intro task mem binder declared type resolved
    have isOne : binder ∈ countingTasks.flatMap (·.2.binders) :=
      List.mem_flatMap.2 ⟨task, mem, declared⟩
    rw [binders] at isOne
    rw [List.mem_cons, List.mem_singleton] at isOne
    rcases isOne with rfl | rfl
    · cases resolved
      exact ⟨_, rfl, rfl, rfl⟩
    · cases resolved
      exact ⟨_, rfl, rfl, rfl⟩
  exact ⟨consistent, session_eq_session_afresh {} counting countingTasks consistent⟩

end Polyscript
