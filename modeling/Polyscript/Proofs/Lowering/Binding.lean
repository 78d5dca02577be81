import Polyscript.Proofs.Lowering.Log

/-!
# Bound symbols stay bound

A symbol that has been declared, or that has been resolved to a variable once, is bound ever after
and is not looked up again for the sake of a name; and no use of a field or method is forgotten.
This holds between any two moments of lowering trees one after the other, within a tree as well as
from one tree to another, and whether or not the trees could be lowered: what is declared before a
tree fails is bound after it.

## Main definitions

* `Progress.KnownIn`: what one state knows another one knows still.
* `Act.Introduces`: what declares a symbol or resolves it to a variable.
* `Lowering.inTurn`, `Lowering.logInTurn`: the state after trees have been lowered one after the
  other, and the log of all of them.

## Main statements

* `Act.knownIn_after`: one thing that is done forgets neither a bound symbol nor a use.
* `Source.Program.bound_stays_bound`: nor does all that is done for trees lowered in turn.
-/

namespace Polyscript

open Lowering Source

/-- Whether a symbol is bound. -/
def Progress.Binds (s : Progress) (id : SymbolId) : Prop := (s.scopes.lookup id).isSome

/-- What one state knows another one knows still: the symbols that are bound, and the uses. -/
structure Progress.KnownIn (s t : Progress) : Prop where
  binds : ∀ id, s.Binds id → t.Binds id
  fields : s.uses.fields ⊆ t.uses.fields
  methods : s.uses.methods ⊆ t.uses.methods

namespace Progress

variable {s t u : Progress}

theorem KnownIn.refl (s : Progress) : s.KnownIn s where
  binds _ bound := bound
  fields := List.Subset.refl _
  methods := List.Subset.refl _

theorem KnownIn.trans (first : s.KnownIn t) (second : t.KnownIn u) : s.KnownIn u where
  binds id bound := second.binds id (first.binds id bound)
  fields := List.Subset.trans first.fields second.fields
  methods := List.Subset.trans first.methods second.methods

/-! ### Primitive steps -/

variable (s)

theorem knownIn_noteLookup (id : SymbolId) : s.KnownIn (Step.noteLookup id s).2 where
  binds _ bound := bound
  fields := List.Subset.refl _
  methods := List.Subset.refl _

theorem knownIn_useField (name : String) : s.KnownIn (Step.useField name s).2 where
  binds _ bound := bound
  fields _ mem := List.mem_insert_of_mem mem
  methods := List.Subset.refl _

theorem knownIn_useMethod (name : String) : s.KnownIn (Step.useMethod name s).2 where
  binds _ bound := bound
  fields := List.Subset.refl _
  methods _ mem := List.mem_insert_of_mem mem

theorem knownIn_declare (id : SymbolId) (scope : Model.Scope) (type : TypeInfo) :
    s.KnownIn (Step.declare id scope type s).2 where
  binds other bound := by
    change ((s.scopes.declare id scope type).lookup other).isSome
    rw [Scopes.lookup_declare]
    by_cases same : other = id
    · rw [if_pos same]
      rfl
    · rw [if_neg same]
      exact bound
  fields := List.Subset.refl _
  methods := List.Subset.refl _

theorem binds_declare (id : SymbolId) (scope : Model.Scope) (type : TypeInfo) :
    (Step.declare id scope type s).2.Binds id := by
  change ((s.scopes.declare id scope type).lookup id).isSome
  rw [Scopes.lookup_declare, if_pos rfl]
  rfl

end Progress

/-! ### Names -/

namespace Lowering

variable (r : Resolver) (s : Progress)

/-- Of a variable whose scope is known at most the use of a field is noted. -/
theorem variableOf_state (name : String) (scope : Model.Scope) (type : TypeInfo) :
    (variableOf name scope type s).2 = if scope = .field then (Step.useField name s).2 else s := by
  unfold variableOf
  split <;> rfl

theorem knownIn_variableOf (name : String) (scope : Model.Scope) (type : TypeInfo) :
    s.KnownIn (variableOf name scope type s).2 := by
  rw [variableOf_state]
  split
  · exact s.knownIn_useField name
  · exact .refl s

theorem lookedUp_variableOf (name : String) (scope : Model.Scope) (type : TypeInfo) :
    (variableOf name scope type s).2.lookedUp = s.lookedUp := by
  rw [variableOf_state]
  split <;> rfl

/-- A name that is looked up gives no variable and binds nothing, or its symbol is bound before
anything else is made of it. -/
theorem unbound_cases (name : String) (id : SymbolId) :
    (∃ result, unbound r name id s = (result, (Step.noteLookup id s).2) ∧
      ∀ e, result = .ok e → e.isClass) ∨
    ∃ scope type, unbound r name id s =
      variableOf name scope type (Step.declare id scope type (Step.noteLookup id s).2).2 := by
  cases found : r.program.symbol? id with
  | none =>
    left
    refine ⟨.error (.unresolvedSymbol id), ?_, fun e ok => by cases ok⟩
    unfold unbound lookUp
    rw [found]
    rfl
  | some symbol =>
    have looked : lookUp r id s = (.ok symbol, (Step.noteLookup id s).2) := by
      unfold lookUp
      rw [found]
      rfl
    by_cases isType : symbol.kind = .type
    · left
      rw [unbound, Step.bind_of_ok looked, if_pos isType]
      cases symbol.ty.qualifiedName? with
      | none => exact ⟨_, rfl, fun e ok => by cases ok⟩
      | some qualified =>
        refine ⟨_, rfl, fun e ok => ?_⟩
        obtain rfl := Except.ok.inj ok
        unfold classReference
        split
        · rfl
        · split <;> rfl
    -- a variable needs a scope and a type, and nothing is bound if it has not both
    · cases classified : s.scopes.classify symbol with
      | error cause =>
        left
        refine ⟨.error cause, ?_, fun e ok => by cases ok⟩
        rw [unbound, Step.bind_of_ok looked, if_neg isType]
        change ((Step.lift (s.scopes.classify symbol) >>= fun scope => _) : Step Model.Expr) _ = _
        rw [classified]
        rfl
      | ok scope =>
        cases resolved : r.resolve symbol.ty with
        | error cause =>
          left
          refine ⟨.error cause, ?_, fun e ok => by cases ok⟩
          rw [unbound, Step.bind_of_ok looked, if_neg isType]
          change ((Step.lift (s.scopes.classify symbol) >>= fun scope => _) : Step Model.Expr) _ = _
          rw [classified]
          change ((Step.lift (r.resolve symbol.ty) >>= fun type => _) : Step Model.Expr) _ = _
          rw [resolved]
          rfl
        | ok type => exact .inr ⟨scope, type, unbound_apply found classified resolved name⟩

theorem knownIn_unbound (name : String) (id : SymbolId) : s.KnownIn (unbound r name id s).2 := by
  have noted := s.knownIn_noteLookup id
  obtain ⟨result, outcome, _⟩ | ⟨scope, type, outcome⟩ := unbound_cases r s name id
  · rw [outcome]
    exact noted
  · rw [outcome]
    exact (noted.trans (Progress.knownIn_declare _ id scope type)).trans
      (knownIn_variableOf _ name scope type)

/-- Lowering a name forgets nothing. -/
theorem knownIn_identifier (ctx : Context) (name : String) (id : SymbolId) :
    s.KnownIn (identifier r ctx name id s).2 := by
  rw [identifier_apply]
  by_cases isThis : name = "this"
  · rw [if_pos isThis]
    exact .refl s
  · rw [if_neg isThis]
    cases ctx.alias? id with
    | some e => exact .refl s
    | none =>
      cases s.scopes.lookup id with
      | some binding => exact knownIn_variableOf s name binding.scope binding.type
      | none => exact knownIn_unbound r s name id

/-- A name whose symbol is bound is not looked up, whatever the name and the context are. -/
theorem lookedUp_identifier {id : SymbolId} (bound : s.Binds id) (ctx : Context) (name : String) :
    (identifier r ctx name id s).2.lookedUp = s.lookedUp := by
  rw [identifier_apply]
  by_cases isThis : name = "this"
  · rw [if_pos isThis]
  · rw [if_neg isThis]
    cases ctx.alias? id with
    -- a result of a callback stands for itself, bound or not
    | some e => rfl
    | none =>
      obtain ⟨binding, isBinding⟩ := Option.isSome_iff_exists.1 bound
      rw [isBinding]
      exact lookedUp_variableOf s name binding.scope binding.type

/-- A name that neither is `this` nor stands for a result leaves its symbol bound if it gives a
variable. -/
theorem binds_identifier {ctx : Context} {name : String} {id : SymbolId} {e : Model.Expr}
    {t : Progress} (notThis : name ≠ "this") (notAlias : ctx.alias? id = none)
    (ok : identifier r ctx name id s = (.ok e, t)) (isVariable : e.isClass = false) :
    t.Binds id := by
  rw [identifier_apply, if_neg notThis, notAlias] at ok
  cases bound : s.scopes.lookup id with
  | some binding =>
    have known := knownIn_variableOf s name binding.scope binding.type
    rw [bound] at ok
    dsimp only at ok
    rw [ok] at known
    refine known.binds id ?_
    rw [Progress.Binds, bound]
    rfl
  | none =>
    rw [bound] at ok
    dsimp only at ok
    -- the symbol is looked up, and only as a variable is it bound
    obtain ⟨result, outcome, isClass⟩ | ⟨scope, type, outcome⟩ := unbound_cases r s name id
    · rw [outcome] at ok
      have isClass := isClass e (Prod.mk.inj ok).1
      rw [isVariable] at isClass
      cases isClass
    · rw [outcome] at ok
      have known := knownIn_variableOf
        (Step.declare id scope type (Step.noteLookup id s).2).2 name scope type
      rw [ok] at known
      exact known.binds id (Progress.binds_declare _ id scope type)

end Lowering

/-! ### Acts -/

/-- Whether something declares a symbol, or resolves it to a variable by its name. -/
def Act.Introduces (r : Resolver) (s : Progress) (id : SymbolId) : Act → Prop
  | .declare binder _ => binder.sym = id
  | .name ctx word sym =>
    sym = id ∧ word ≠ "this" ∧ ctx.alias? id = none ∧
      ∃ e t, identifier r ctx word id s = (.ok e, t) ∧ e.isClass = false
  | .test _ | .useField _ | .useMethod _ => False

variable {r : Resolver}

/-- One thing that is done forgets nothing. -/
theorem Act.knownIn_after (act : Act) (s : Progress) : s.KnownIn (act.after r s) := by
  cases act with
  | name ctx word id => exact knownIn_identifier r s ctx word id
  | declare binder type => exact s.knownIn_declare binder.sym binder.scope type
  | test id => exact s.knownIn_noteLookup id
  | useField name => exact s.knownIn_useField name
  | useMethod name => exact s.knownIn_useMethod name

/-- A symbol is bound once it has been introduced. -/
theorem Act.Introduces.binds {act : Act} {s : Progress} {id : SymbolId}
    (introduces : act.Introduces r s id) : (act.after r s).Binds id := by
  cases act with
  | name ctx word sym =>
    obtain ⟨rfl, notThis, notAlias, e, t, ok, isVariable⟩ := introduces
    have bound := binds_identifier r s notThis notAlias ok isVariable
    change (identifier r ctx word sym s).2.Binds sym
    rwa [ok]
  | declare binder type =>
    obtain rfl := introduces
    exact s.binds_declare binder.sym binder.scope type
  | test | useField | useMethod => exact introduces.elim

/-- Nothing is forgotten at any later moment, however much is done until then. -/
theorem Chained.knownIn {s t : Progress} {log : List Moment} (chained : Chained r s log t) :
    ∀ u ∈ log.map Moment.state ++ [t], s.KnownIn u := by
  induction chained with
  | nil s =>
    intro u mem
    obtain rfl := List.mem_singleton.1 mem
    exact .refl u
  | @cons s t act rest next ih =>
    intro u mem
    rcases List.mem_cons.1 mem with rfl | later
    · exact .refl u
    · exact (act.knownIn_after s).trans (ih u later)

/-- After any of the moments the rest of them leads to the last state. -/
theorem Chained.rest {s t : Progress} {before rest : List Moment} {m : Moment}
    (chained : Chained r s (before ++ m :: rest) t) :
    Chained r (m.act.after r m.state) rest t := by
  induction before generalizing s with
  | nil =>
    cases chained with
    | cons act next => exact next
  | cons first others ih =>
    cases chained with
    | cons act next => exact ih next

/-- What is known after any of the moments is known in the last state. -/
theorem Chained.knownIn_of_mem {s t : Progress} {log : List Moment} {m : Moment}
    (chained : Chained r s log t) (mem : m ∈ log) : (m.act.after r m.state).KnownIn t := by
  obtain ⟨before, rest, rfl⟩ := List.append_of_mem mem
  exact chained.rest.knownIn t (List.mem_append_right _ (List.mem_singleton_self t))

/-! ### Trees in turn -/

/-- The state after trees have been lowered one after the other, whether they were lowered or
failed. -/
def Lowering.inTurn (r : Resolver) : List (Context × Piece) → Progress → Progress
  | [], s => s
  | (ctx, piece) :: rest, s => inTurn r rest (piece.lowerWith (identifier r) r ctx s).2

/-- The log of trees that are lowered one after the other: a tree that fails is followed by the
next one. -/
def Lowering.logInTurn (r : Resolver) : List (Context × Piece) → Log
  | [], _ => []
  | (ctx, piece) :: rest, s =>
    piece.log r ctx s ++ logInTurn r rest (piece.lowerWith (identifier r) r ctx s).2

theorem Lowering.chained_logInTurn (tasks : List (Context × Piece)) (s : Progress) :
    Chained r s (logInTurn r tasks s) (inTurn r tasks s) := by
  induction tasks generalizing s with
  | nil => exact .nil s
  | cons task rest ih =>
    obtain ⟨ctx, piece⟩ := task
    exact (piece.logs ctx s).append (ih (piece.lowerWith (identifier r) r ctx s).2)

/-- Whatever trees are lowered one after the other, in whatever contexts, their log tells what is
done, up to the last state, whether the trees are lowered or fail. From any moment of the log on, no
use is forgotten; and a symbol that is declared or resolved to a variable at that moment is bound at
every later one and in the last state, so that no name with it is looked up. -/
theorem Source.Program.bound_stays_bound (config : Config) (program : Program)
    (tasks : List (Context × Piece)) :
    let r := program.resolver config
    let last := inTurn r tasks program.start
    Chained r program.start (logInTurn r tasks program.start) last ∧
      ∀ before moment rest, logInTurn r tasks program.start = before ++ moment :: rest →
        ∀ t ∈ rest.map Moment.state ++ [last],
          moment.state.uses.fields ⊆ t.uses.fields ∧
            moment.state.uses.methods ⊆ t.uses.methods ∧
            ∀ id, moment.act.Introduces r moment.state id → t.Binds id ∧
              ∀ ctx name, (identifier r ctx name id t).2.lookedUp = t.lookedUp := by
  intro r last
  have chained : Chained r program.start (logInTurn r tasks program.start) last :=
    chained_logInTurn tasks program.start
  refine ⟨chained, ?_⟩
  intro before moment rest isLog t isLater
  -- the states of the log are those that lowering goes through
  rw [isLog] at chained
  have later := chained.rest.knownIn t isLater
  have known := (moment.act.knownIn_after moment.state).trans later
  refine ⟨known.fields, known.methods, fun id introduces => ?_⟩
  have bound := later.binds id introduces.binds
  exact ⟨bound, fun ctx name => lookedUp_identifier r t bound ctx name⟩

/-- A variable that is declared in a block that fails is bound after the block, and a later name
for it is not looked up; of all the names only the first one for the field is. -/
theorem Source.Program.bound_stays_bound_countingTasks :
    let r := counting.resolver {}
    let x : Binder := ⟨0, .variable, .primitive .int⟩
    (session (identifier r) r countingTasks counting.start).map (·.1.toBool) =
        [true, false, true, true] ∧
      (inTurn r countingTasks counting.start).lookedUp = [1] ∧
      ∃ before s rest t ctx,
        logInTurn r countingTasks counting.start =
          before ++ ⟨s, .declare x (.primitive .int)⟩ :: rest ∧
        ⟨t, .name ctx "x" 0⟩ ∈ rest ∧ t.Binds 0 ∧
        (identifier r ctx "x" 0 t).2.lookedUp = t.lookedUp := by
  intro r x
  obtain ⟨-, later⟩ := bound_stays_bound {} counting countingTasks
  refine ⟨rfl, rfl, ?_⟩
  -- the field is read twice, `x` is declared, the field is declared, and both are read
  refine ⟨[_, _], _, [_, _, _], _, _, rfl, .tail _ (.head _), ?_⟩
  have known := later [_, _] _ [_, _, _] rfl _ (.tail _ (.head _))
  obtain ⟨bound, same⟩ := known.2.2 0 rfl
  exact ⟨bound, same _ _⟩

end Polyscript
