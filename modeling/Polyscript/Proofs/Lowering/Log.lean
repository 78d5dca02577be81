import Polyscript.Proofs.Lowering.Memo

/-!
# Logs of lowering

What is done to the state when a tree is lowered can be told from the tree: the names, the
declarations and the tests of classes stand there in the order in which they are lowered, and so
do the calls by which a use is noted. A tree is lowered part by part, and a part that fails ends
it. So the log of a tree is that of its first part, followed by the log of what comes next if the
first part gives a result. What has been done before a failure is in the log.

Each entry of a log has the state in which something is done. The states of a log lead from one to
the next, and from the last one to the state in which lowering ends, also where it ends in a
failure.

## Main definitions

* `Act`, `Act.after`: what is done in lowering, and the state after it.
* `Moment`, `Log`: something that is done in a state, and what is done from a state on.
* `Source.Piece.log`: the log of a tree.
* `Chained`: moments that lead from one state to another.

## Main statement

* `Source.Piece.logs`: the log of a tree leads to the state in which lowering it ends.
-/

namespace Polyscript

open Lowering Source

/-- Something that is done to the state when trees are lowered. -/
inductive Act where
  /-- A name is lowered. -/
  | name (ctx : Context) (name : String) (id : SymbolId)
  /-- A declared variable is bound. -/
  | declare (binder : Binder) (type : TypeInfo)
  /-- The class that an `instanceof` tests for is looked up. -/
  | test (id : SymbolId)
  /-- A use of a field is noted. -/
  | useField (name : String)
  /-- A use of a method is noted. -/
  | useMethod (name : String)

/-- The state after something has been done. -/
def Act.after (r : Resolver) (s : Progress) : Act → Progress
  | .name ctx word id => (identifier r ctx word id s).2
  | .declare binder type => (Step.declare binder.sym binder.scope type s).2
  | .test id => (Step.noteLookup id s).2
  | .useField field => (Step.useField field s).2
  | .useMethod method => (Step.useMethod method s).2

/-- Something that is done, with the state in which it is done. -/
structure Moment where
  state : Progress
  act : Act

/-- What is done from a state on. -/
def Log : Type := Progress → List Moment

namespace Log

variable {α : Type}

/-- Nothing is done. -/
def nothing : Log := fun _ => []

/-- One thing is done. -/
def one (act : Act) : Log := fun s => [⟨s, act⟩]

/-- What a step does, and then what follows its result. A step that fails is followed by
nothing. -/
def andThen (step : Step α) (log : Log) (next : α → Log) : Log := fun s =>
  log s ++ match step s with
    | (.ok a, t) => next a t
    | (.error _, _) => []

/-- What follows the result of a computation that does nothing by itself. -/
def given (result : Except Unsupported α) (next : α → Log) : Log :=
  match result with
  | .ok a => next a
  | .error _ => nothing

/-- A variable is bound before anything else is done. -/
def declare (binder : Binder) (type : TypeInfo) (next : Log) : Log :=
  andThen (Step.declare binder.sym binder.scope type) (one (.declare binder type)) fun _ => next

/-- Variables are bound one after the other. -/
def declareAll (r : Resolver) : List Binder → Log
  | [] => nothing
  | binder :: rest =>
    given (r.resolve binder.ty) fun type => declare binder type (declareAll r rest)

end Log

/-! ### Logs of trees -/

mutual

/-- The log of an expression. Of a field of the enclosing instance nothing else is lowered, and
the parameter of a callback is not bound but stands for its result. -/
def Source.Expr.log (r : Resolver) (ctx : Context) : Source.Expr → Log
  | .ident name id _ => .one (.name ctx name id)
  | .literal .. | .compoundAssign .. => .nothing
  | .binary kind lhs rhs _ =>
    .given (binaryOp kind) fun _ =>
      .andThen (lhs.lower r ctx) (lhs.log r ctx) fun _ => rhs.log r ctx
  | .unary kind operand _ => .given (unaryOp kind) fun _ => operand.log r ctx
  | .assign target value _ =>
    .andThen (target.lower r ctx) (target.log r ctx) fun _ => value.log r ctx
  | .conditional cond yes no _ =>
    .andThen (cond.lower r ctx) (cond.log r ctx) fun _ =>
      .andThen (yes.lower r ctx) (yes.log r ctx) fun _ => no.log r ctx
  | .parens inner _ => inner.log r ctx
  | .select target name ty _ =>
    .given (r.resolve ty) fun _ =>
      if target.stripParens.isThis && hasField r name then .one (.useField name)
      else target.log r ctx
  | .call callee _ args _ _ =>
    .andThen (callee.lowerWith (identifier r) r ctx) (callee.log r ctx) fun _ =>
      .given (argTypes r args) fun _ => Arg.logAll r ctx args
  | .construct cls args _ =>
    .andThen (cls.lower r ctx) (cls.log r ctx) fun _ => Expr.logAll r ctx args
  | .instanceOf e cls _ =>
    .andThen (testedClass r cls) (.one (.test cls)) fun _ => e.log r ctx
  | .lambda params body _ =>
    .given (asyncParam r ctx params) fun
      | some (param, _, resultType) =>
        body.log r (ctx.withAlias param.sym (.asyncResult param.name resultType))
      | none =>
        .andThen (bindParams r (params.map fun param => (param.sym, param.ty)))
          (.declareAll r (params.map LambdaParam.binder)) fun _ => body.log r ctx
  | .methodRef qualifier name mode _ _ =>
    if mode = .new then .nothing
    else .andThen (qualifier.lower r ctx) (qualifier.log r ctx) fun receiver =>
      if receiver.isThis then .one (.useMethod name) else .nothing
  | .typeApply base _ _ => base.log r ctx

/-- The log of expressions. -/
def Source.Expr.logAll (r : Resolver) (ctx : Context) : List Source.Expr → Log
  | [] => .nothing
  | e :: rest => .andThen (e.lower r ctx) (e.log r ctx) fun _ => Expr.logAll r ctx rest

/-- The log of an expression that may be missing. -/
def Source.Expr.logOption (r : Resolver) (ctx : Context) : Option Source.Expr → Log
  | none => .nothing
  | some e => e.log r ctx

/-- The log of a receiver. -/
def Source.Callee.log (r : Resolver) (ctx : Context) : Callee → Log
  | .unqualified name => .one (.useMethod name)
  | .member target _ => target.log r ctx

/-- The log of arguments. -/
def Source.Arg.logAll (r : Resolver) (ctx : Context) : List Arg → Log
  | [] => .nothing
  | ⟨e, _⟩ :: rest => .andThen (e.lower r ctx) (e.log r ctx) fun _ => Arg.logAll r ctx rest

/-- The log of a lambda's body. -/
def Source.LambdaBody.log (r : Resolver) (ctx : Context) : Source.LambdaBody → Log
  | .expr body => body.log r ctx
  | .block body => body.log r ctx

/-- The log of a block. -/
def Source.Block.log (r : Resolver) (ctx : Context) : Source.Block → Log
  | ⟨stmts, _⟩ => Stmt.logAll r ctx stmts

/-- The log of a catch clause, whose parameter is bound before its body is lowered. -/
def Source.CatchClause.log (r : Resolver) (ctx : Context) : CatchClause → Log
  | ⟨⟨_, id, ty, _, _⟩, body⟩ =>
    .given (r.resolve ty) fun type => .declare ⟨id, .variable, ty⟩ type (body.log r ctx)

/-- The log of a statement. A local variable is bound after its initial value has been lowered,
the variable of a loop that counts after both of its bounds, and the variable of a for-each loop
before the body. -/
def Source.Stmt.log (r : Resolver) (ctx : Context) : Source.Stmt → Log
  | .block block => block.log r ctx
  | .local ⟨_, id, ty, init, _⟩ =>
    .given (r.resolve ty) fun type =>
      .andThen (Expr.lowerOptionWith (identifier r) r ctx init) (Expr.logOption r ctx init) fun _ =>
        .one (.declare ⟨id, .variable, ty⟩ type)
  | .expr e _ => e.log r ctx
  | .conditional cond yes no _ =>
    .andThen (cond.lower r ctx) (cond.log r ctx) fun _ =>
      .andThen (yes.lower r ctx) (yes.log r ctx) fun _ => Stmt.logOption r ctx no
  | .loop [init] (some cond) [update] body _ =>
    let inOrder : Log :=
      .andThen (init.lower r ctx) (init.log r ctx) fun _ =>
        .andThen (cond.lower r ctx) (cond.log r ctx) fun _ =>
          .andThen (update.lower r ctx) (update.log r ctx) fun _ => body.log r ctx
    match init, cond, update with
    | .local ⟨name, id, ty, some start, _⟩, .binary .lessThan (.ident tested _ _) stop _,
        .unary .postfixIncrement (.ident stepped _ _) _ =>
      if tested = name ∧ stepped = name then
        .given (r.resolve ty) fun type =>
          .andThen (start.lower r ctx) (start.log r ctx) fun _ =>
            .andThen (stop.lower r ctx) (stop.log r ctx) fun _ =>
              .declare ⟨id, .variable, ty⟩ type (body.log r ctx)
      else inOrder
    | _, _, _ => inOrder
  | .forEach ⟨_, id, ty, _, _⟩ iterable body _ =>
    .andThen (iterable.lower r ctx) (iterable.log r ctx) fun _ =>
      .given (r.resolve ty) fun type => .declare ⟨id, .variable, ty⟩ type (body.log r ctx)
  | .tryCatch body [clause] none _ =>
    .andThen (body.lower r ctx) (body.log r ctx) fun _ => clause.log r ctx
  | .throw e _ => e.log r ctx
  | .return e _ => Expr.logOption r ctx e
  | .loop .. | .whileLoop .. | .tryCatch .. | .break _ | .continue _ => .nothing

/-- The log of a statement that may be missing. -/
def Source.Stmt.logOption (r : Resolver) (ctx : Context) : Option Source.Stmt → Log
  | none => .nothing
  | some s => s.log r ctx

/-- The log of statements. -/
def Source.Stmt.logAll (r : Resolver) (ctx : Context) : List Source.Stmt → Log
  | [] => .nothing
  | s :: rest => .andThen (s.lower r ctx) (s.log r ctx) fun _ => Stmt.logAll r ctx rest

end

/-- The log of a tree that is lowered by itself. The parameters of a method are bound before its
body is lowered, and a field before its initial value. -/
def Source.Piece.log (r : Resolver) (ctx : Context) : Piece → Log
  | .method decl =>
    .andThen (bindParams r (decl.params.map fun param => (param.sym, param.ty)))
      (.declareAll r (decl.params.map Param.binder)) fun _ =>
        .given (r.resolve decl.ret) fun _ => decl.body.log r ctx
  | .field decl =>
    .given (r.resolve decl.ty) fun type =>
      .declare decl.binder type (Expr.logOption r ctx decl.init)
  | .block b => b.log r ctx
  | .stmt s => s.log r ctx
  | .expr e => e.log r ctx

/-- A loop that counts has a log of its own. -/
theorem Source.Stmt.log_loop (r : Resolver) (ctx : Context) (init : Source.Stmt)
    (cond update : Source.Expr) (body : Source.Stmt) (span : Span) :
    (Source.Stmt.loop [init] (some cond) [update] body span).log r ctx =
      match ranged? init cond update with
      | some count =>
        .given (r.resolve count.ty) fun type =>
          .andThen (count.start.lower r ctx) (count.start.log r ctx) fun _ =>
            .andThen (count.stop.lower r ctx) (count.stop.log r ctx) fun _ =>
              .declare ⟨count.sym, .variable, count.ty⟩ type (body.log r ctx)
      | none =>
        .andThen (init.lower r ctx) (init.log r ctx) fun _ =>
          .andThen (cond.lower r ctx) (cond.log r ctx) fun _ =>
            .andThen (update.lower r ctx) (update.log r ctx) fun _ => body.log r ctx := by
  unfold ranged?
  split
  next found =>
    split at found
    next =>
      split at found
      next same =>
        obtain rfl := Option.some.inj found
        rw [Source.Stmt.log, if_pos same]
      next => cases found
    next => cases found
  next none =>
    split at none
    next =>
      split at none
      next => cases none
      next other => simp only [Source.Stmt.log, if_neg other]
    next other =>
      rw [Source.Stmt.log]
      exact other

/-! ### Steps that are logged -/

/-- Moments that lead from one state to another: each begins in the state that the one before has
left. -/
inductive Chained (r : Resolver) : Progress → List Moment → Progress → Prop
  | nil (s : Progress) : Chained r s [] s
  | cons {s t : Progress} (act : Act) {rest : List Moment}
    (next : Chained r (act.after r s) rest t) : Chained r s (⟨s, act⟩ :: rest) t

variable {r : Resolver}

theorem Chained.append {s t u : Progress} {log rest : List Moment} (first : Chained r s log t)
    (next : Chained r t rest u) : Chained r s (log ++ rest) u := by
  induction first with
  | nil s => exact next
  | cons act _ ih => exact .cons act (ih next)

namespace Step

variable {α β : Type} {log : Log}

/-- Whether a log tells all that a step does, whether the step gives a result or fails. -/
def Logs (r : Resolver) (x : Step α) (log : Log) : Prop := ∀ s, Chained r s (log s) (x s).2

theorem Logs.pure (a : α) : (pure a : Step α).Logs r .nothing := fun s => .nil s

theorem Logs.lift (result : Except Unsupported α) : (lift result).Logs r .nothing := fun s => .nil s

theorem Logs.fail (cause : Unsupported) : (fail cause : Step α).Logs r .nothing := fun s => .nil s

/-- A step that does one thing. -/
theorem Logs.one {x : Step α} {act : Act} (does : ∀ s, (x s).2 = act.after r s) :
    x.Logs r (.one act) := by
  intro s
  rw [does s]
  exact .cons act (.nil _)

/-- What a failed step has done stays done, and nothing follows it. -/
theorem Logs.bind {x : Step α} {f : α → Step β} {next : α → Log} (first : x.Logs r log)
    (rest : ∀ a, (f a).Logs r (next a)) : (x >>= f).Logs r (.andThen x log next) := by
  intro s
  have done := first s
  unfold Log.andThen
  cases outcome : x s with
  | mk result t =>
    rw [outcome] at done
    cases result with
    | ok a =>
      rw [bind_of_ok outcome]
      exact done.append (rest a t)
    | error cause =>
      rw [bind_of_error outcome]
      exact done.append (.nil t)

/-- What does nothing adds nothing to the log. -/
theorem Logs.bind_last {x : Step α} {f : α → Step β} (first : x.Logs r log)
    (last : ∀ a, (f a).Logs r .nothing) : (x >>= f).Logs r log := by
  intro s
  have done := first.bind last s
  unfold Log.andThen at done
  cases outcome : x s with
  | mk result t =>
    rw [outcome] at done
    cases result with
    | ok a =>
      change Chained r s (log s ++ []) _ at done
      rwa [List.append_nil] at done
    | error cause => rwa [List.append_nil] at done

/-- Only a computation that succeeds is followed by anything. -/
theorem Logs.lift_bind (result : Except Unsupported α) {f : α → Step β} {next : α → Log}
    (rest : ∀ a, (f a).Logs r (next a)) :
    (Step.lift result >>= f).Logs r (.given result next) := by
  cases result with
  | ok a => exact rest a
  | error cause => exact .fail cause

/-- A computation before what does nothing does nothing either. -/
theorem Logs.lift_last {result : Except Unsupported α} {f : α → Step β}
    (last : ∀ a, (f a).Logs r .nothing) : (Step.lift result >>= f).Logs r .nothing :=
  (Logs.lift result).bind_last last

theorem Logs.name (ctx : Context) (name : String) (id : SymbolId) :
    (identifier r ctx name id).Logs r (.one (.name ctx name id)) :=
  .one fun _ => rfl

theorem Logs.declare (binder : Binder) (type : TypeInfo) :
    (Step.declare binder.sym binder.scope type).Logs r (.one (.declare binder type)) :=
  .one fun _ => rfl

theorem Logs.declare_bind (binder : Binder) (type : TypeInfo) {f : PUnit → Step β}
    (next : ∀ a, (f a).Logs r log) :
    (Step.declare binder.sym binder.scope type >>= f).Logs r (.declare binder type log) :=
  (Logs.declare binder type).bind next

theorem Logs.useMethod (name : String) :
    (Step.useMethod name).Logs r (.one (.useMethod name)) :=
  .one fun _ => rfl

theorem Logs.ownField (name : String) (type : TypeInfo) :
    (variableOf name .field type).Logs r (.one (.useField name)) := by
  have noted : (Step.useField name).Logs r (.one (.useField name)) := .one fun _ => rfl
  exact noted.bind_last fun _ => .lift _

theorem Logs.testedClass (id : SymbolId) :
    (Lowering.testedClass r id).Logs r (.one (.test id)) := by
  have noted : (Step.noteLookup id).Logs r (.one (.test id)) := .one fun _ => rfl
  unfold Lowering.testedClass lookUp
  refine Logs.bind_last (noted.bind_last fun _ => ?_) fun symbol => ?_
  · split
    · exact .pure _
    · exact .fail _
  · split
    · exact .pure _
    · exact .fail _

/-- Only a reference on the enclosing instance is noted. -/
theorem Logs.noteReference (name : String) (receiver : Model.Expr) :
    (Lowering.noteReference name receiver).Logs r
      (if receiver.isThis then .one (.useMethod name) else .nothing) := by
  cases receiver with
  | cls => exact .fail _
  | this => exact .useMethod name
  | _ => exact .pure _

theorem Logs.bindParams (binders : List Binder)
    (parameters : ∀ b ∈ binders, b.scope = .parameter) :
    (Lowering.bindParams r (binders.map fun b => (b.sym, b.ty))).Logs r
      (.declareAll r binders) := by
  induction binders with
  | nil => exact .pure []
  | cons binder rest ih =>
    obtain ⟨isParameter, others⟩ := List.forall_mem_cons.1 parameters
    refine .lift_bind _ fun type => ?_
    have bound := Logs.declare (r := r) binder type
    rw [isParameter] at bound
    unfold Log.declare
    rw [isParameter]
    exact bound.bind fun _ => (ih others).bind_last fun _ => .pure _

end Step

open Step

/-- A node whose lowering is told by its log in every context. -/
def Lowering.IsLogged (r : Resolver) : Source.Node → Prop
  | .expr e => ∀ ctx, (e.lower r ctx).Logs r (e.log r ctx)
  | .stmt s => ∀ ctx, (s.lower r ctx).Logs r (s.log r ctx)

section Parts

variable (ctx : Context)

theorem Source.Expr.logsAll {es : List Source.Expr}
    (logged : ∀ node ∈ Expr.nodesAll es, IsLogged r node) :
    (Expr.lowerAllWith (identifier r) r ctx es).Logs r (Expr.logAll r ctx es) := by
  induction es with
  | nil =>
    rw [Expr.lowerAllWith, Expr.logAll]
    exact .pure []
  | cons e rest ih =>
    obtain ⟨first, others⟩ := List.forall_mem_append.1 logged
    rw [Expr.lowerAllWith, Expr.logAll]
    exact (first _ e.mem_nodes ctx).bind fun _ => (ih others).bind_last fun _ => .pure _

theorem Source.Expr.logsOption {e : Option Source.Expr}
    (logged : ∀ node ∈ Expr.nodesOption e, IsLogged r node) :
    (Expr.lowerOptionWith (identifier r) r ctx e).Logs r (Expr.logOption r ctx e) := by
  cases e with
  | none =>
    rw [Expr.lowerOptionWith, Expr.logOption]
    exact .pure none
  | some e =>
    rw [Expr.lowerOptionWith, Expr.logOption]
    exact (logged _ e.mem_nodes ctx).bind_last fun _ => .pure _

theorem Source.Callee.logs {callee : Callee}
    (logged : ∀ node ∈ callee.nodes, IsLogged r node) :
    (callee.lowerWith (identifier r) r ctx).Logs r (callee.log r ctx) := by
  cases callee with
  | unqualified name =>
    rw [Callee.lowerWith, Callee.log]
    exact (Logs.useMethod name).bind_last fun _ => .pure _
  | member target name =>
    rw [Callee.lowerWith, Callee.log]
    exact logged _ target.mem_nodes ctx

theorem Source.Arg.logsAll {args : List Arg}
    (logged : ∀ node ∈ Arg.nodesAll args, IsLogged r node) :
    (Arg.lowerAllWith (identifier r) r ctx args).Logs r (Arg.logAll r ctx args) := by
  induction args with
  | nil =>
    rw [Arg.lowerAllWith, Arg.logAll]
    exact .pure []
  | cons arg rest ih =>
    obtain ⟨e, ty⟩ := arg
    obtain ⟨first, others⟩ := List.forall_mem_append.1 logged
    rw [Arg.lowerAllWith, Arg.logAll]
    exact (first _ e.mem_nodes ctx).bind fun _ => (ih others).bind_last fun _ => .pure _

theorem Source.Stmt.logsAll {stmts : List Source.Stmt}
    (logged : ∀ node ∈ Stmt.nodesAll stmts, IsLogged r node) :
    (Stmt.lowerAllWith (identifier r) r ctx stmts).Logs r (Stmt.logAll r ctx stmts) := by
  induction stmts with
  | nil =>
    rw [Stmt.lowerAllWith, Stmt.logAll]
    exact .pure []
  | cons s rest ih =>
    obtain ⟨first, others⟩ := List.forall_mem_append.1 logged
    rw [Stmt.lowerAllWith, Stmt.logAll]
    exact (first _ s.mem_nodes ctx).bind fun _ => (ih others).bind_last fun _ => .pure _

theorem Source.Stmt.logsOption {s : Option Source.Stmt}
    (logged : ∀ node ∈ Stmt.nodesOption s, IsLogged r node) :
    (Stmt.lowerOptionWith (identifier r) r ctx s).Logs r (Stmt.logOption r ctx s) := by
  cases s with
  | none =>
    rw [Stmt.lowerOptionWith, Stmt.logOption]
    exact .pure none
  | some s =>
    rw [Stmt.lowerOptionWith, Stmt.logOption]
    exact (logged _ s.mem_nodes ctx).bind_last fun _ => .pure _

theorem Source.Block.logs_of_nodes {block : Source.Block}
    (logged : ∀ node ∈ block.nodes, IsLogged r node) :
    (block.lower r ctx).Logs r (block.log r ctx) := by
  obtain ⟨stmts, span⟩ := block
  rw [Block.lower, Block.lowerWith, Block.log]
  exact (Stmt.logsAll ctx logged).bind_last fun _ => .pure _

theorem Source.LambdaBody.logs {body : Source.LambdaBody}
    (logged : ∀ node ∈ body.nodes, IsLogged r node) :
    (body.lowerWith (identifier r) r ctx).Logs r (body.log r ctx) := by
  cases body with
  | expr e =>
    rw [LambdaBody.lowerWith, LambdaBody.log]
    exact (logged _ e.mem_nodes ctx).bind_last fun _ => .pure _
  | block b =>
    rw [LambdaBody.lowerWith, LambdaBody.log]
    exact (b.logs_of_nodes ctx logged).bind_last fun _ => .pure _

end Parts

/-- An expression is told by its log if all nodes below it are. -/
theorem Source.Expr.logs_of_below (e : Source.Expr)
    (below : ∀ part ∈ (Source.Node.expr e).below, IsLogged r part) : IsLogged r (.expr e) := by
  intro ctx
  rw [Source.Expr.lower]
  cases e with
  | ident name id span =>
    rw [Expr.lowerWith, Expr.log]
    exact .name ctx name id
  | literal value span =>
    rw [Expr.lowerWith, Expr.log]
    exact .pure _
  | binary op lhs rhs span =>
    obtain ⟨left, right⟩ := List.forall_mem_append.1 below
    rw [Expr.lowerWith, Expr.log]
    exact .lift_bind _ fun op => (left _ lhs.mem_nodes ctx).bind fun _ =>
      (right _ rhs.mem_nodes ctx).bind_last fun _ => .lift _
  | unary op operand span =>
    rw [Expr.lowerWith, Expr.log]
    exact .lift_bind _ fun op => (below _ operand.mem_nodes ctx).bind_last fun _ => .lift _
  | assign target value span =>
    obtain ⟨left, right⟩ := List.forall_mem_append.1 below
    rw [Expr.lowerWith, Expr.log]
    exact (left _ target.mem_nodes ctx).bind fun _ =>
      (right _ value.mem_nodes ctx).bind_last fun _ => .pure _
  | compoundAssign op target value span =>
    rw [Expr.lowerWith, Expr.log]
    exact .fail _
  | conditional cond yes no span =>
    obtain ⟨conds, branches⟩ := List.forall_mem_append.1 below
    obtain ⟨yeses, nos⟩ := List.forall_mem_append.1 branches
    rw [Expr.lowerWith, Expr.log]
    exact (conds _ cond.mem_nodes ctx).bind fun _ => (yeses _ yes.mem_nodes ctx).bind fun _ =>
      (nos _ no.mem_nodes ctx).bind_last fun _ => .pure _
  | parens inner span =>
    rw [Expr.lowerWith, Expr.log]
    exact (below _ inner.mem_nodes ctx).bind_last fun _ => .pure _
  | select target name ty span =>
    rw [Expr.lowerWith, Expr.log]
    refine .lift_bind _ fun type => ?_
    split
    next => exact .ownField name type
    next =>
      exact (below _ target.mem_nodes ctx).bind_last fun _ => .lift_last fun _ => .lift _
  | call callee method args ty span =>
    obtain ⟨callees, arguments⟩ := List.forall_mem_append.1 below
    rw [Expr.lowerWith, Expr.log]
    exact (callee.logs ctx callees).bind fun _ => .lift_bind _ fun _ =>
      (Arg.logsAll ctx arguments).bind_last fun _ => .lift_last fun _ => .lift_last fun _ =>
        .lift_last fun _ => .lift_last fun _ => .lift _
  | construct cls args span =>
    obtain ⟨classes, arguments⟩ := List.forall_mem_append.1 below
    rw [Expr.lowerWith, Expr.log]
    exact (classes _ cls.mem_nodes ctx).bind fun _ =>
      (Expr.logsAll ctx arguments).bind_last fun _ => .lift _
  | instanceOf e cls span =>
    rw [Expr.lowerWith, Expr.log]
    exact (Logs.testedClass cls).bind fun _ =>
      (below _ e.mem_nodes ctx).bind_last fun _ => .lift _
  | lambda params body span =>
    rw [Expr.lowerWith, Expr.log]
    refine .lift_bind _ fun found => ?_
    cases found with
    | some callback =>
      -- the body of a callback is lowered in a context of its own, in which nothing is bound
      exact (body.logs _ below).bind_last fun _ => .pure _
    | none =>
      have bound := Logs.bindParams (r := r) (params.map LambdaParam.binder) fun b mem => by
        obtain ⟨param, _, rfl⟩ := List.mem_map.1 mem
        rfl
      rw [List.map_map] at bound
      exact bound.bind fun _ => (body.logs ctx below).bind_last fun _ => .pure _
  | methodRef qualifier name mode method span =>
    rw [Expr.lowerWith, Expr.log]
    split
    · exact .fail _
    · exact (below _ qualifier.mem_nodes ctx).bind fun receiver =>
        (Logs.noteReference name receiver).bind_last fun _ => .lift_last fun _ => .lift _
  | typeApply base args span =>
    rw [Expr.lowerWith, Expr.log]
    exact below _ base.mem_nodes ctx

/-- A statement is told by its log if all nodes below it are. -/
theorem Source.Stmt.logs_of_below (s : Source.Stmt)
    (below : ∀ part ∈ (Source.Node.stmt s).below, IsLogged r part) : IsLogged r (.stmt s) := by
  intro ctx
  rw [Source.Stmt.lower]
  cases s with
  | block block =>
    rw [Stmt.lowerWith, Stmt.log]
    exact (block.logs_of_nodes ctx below).bind_last fun _ => .pure _
  | «local» decl =>
    obtain ⟨name, id, ty, init, span⟩ := decl
    rw [Stmt.lowerWith, VarDecl.lowerWith, Stmt.log]
    exact .lift_bind _ fun type => (Expr.logsOption ctx below).bind fun _ =>
      (Logs.declare ⟨id, .variable, ty⟩ type).bind_last fun _ => .pure _
  | expr e span =>
    have whole := below _ e.mem_nodes ctx
    rw [Stmt.log]
    cases e with
    | assign target value place =>
      -- an assignment that is a statement is lowered part by part, with the same log
      obtain ⟨left, right⟩ := List.forall_mem_append.1 (List.forall_mem_cons.1 below).2
      rw [Stmt.lowerWith, Expr.log]
      exact (left _ target.mem_nodes ctx).bind fun _ =>
        (right _ value.mem_nodes ctx).bind_last fun _ => .pure _
    | _ =>
      simp only [Stmt.lowerWith]
      exact whole.bind_last fun _ => .pure _
  | conditional cond yes no span =>
    obtain ⟨conds, branches⟩ := List.forall_mem_append.1 below
    obtain ⟨yeses, nos⟩ := List.forall_mem_append.1 branches
    rw [Stmt.lowerWith, Stmt.log]
    exact (conds _ cond.mem_nodes ctx).bind fun _ => (yeses _ yes.mem_nodes ctx).bind fun _ =>
      (Stmt.logsOption ctx nos).bind_last fun _ => .pure _
  | loop inits cond updates body span =>
    obtain ⟨hi, rest⟩ := List.forall_mem_append.1 below
    obtain ⟨hc, rest⟩ := List.forall_mem_append.1 rest
    obtain ⟨hu, hb⟩ := List.forall_mem_append.1 rest
    -- of the loops with a head only those with one statement in each place are lowered
    rcases inits with _ | ⟨init, _ | _⟩
    case cons.nil =>
      rcases updates with _ | ⟨update, _ | _⟩
      case cons.nil =>
        cases cond with
        | none =>
          simp only [Stmt.lowerWith, Stmt.log]
          exact .fail _
        | some cond =>
          have inBody := hb _ body.mem_nodes ctx
          rw [Source.Stmt.lowerWith_loop, Source.Stmt.log_loop]
          cases isRanged : ranged? init cond update with
          | some count =>
            -- neither the test nor the step is lowered, only the bounds in them
            obtain ⟨start, stop, _⟩ := mem_nodes_of_ranged? isRanged
            exact .lift_bind _ fun type =>
              (hi _ (List.mem_append_left [] start) ctx).bind fun _ =>
                (hc _ stop ctx).bind fun _ =>
                  .declare_bind ⟨count.sym, .variable, count.ty⟩ type fun _ =>
                    inBody.bind_last fun _ => .pure _
          | none =>
            exact (hi _ (List.mem_append_left [] init.mem_nodes) ctx).bind fun _ =>
              (hc _ cond.mem_nodes ctx).bind fun _ =>
                (hu _ (List.mem_append_left [] update.mem_nodes) ctx).bind fun _ =>
                  inBody.bind_last fun _ => .pure _
      all_goals
        simp only [Stmt.lowerWith, Stmt.log]
        exact .fail _
    all_goals
      simp only [Stmt.lowerWith, Stmt.log]
      exact .fail _
  | forEach var iterable body span =>
    obtain ⟨name, id, ty, init, varSpan⟩ := var
    obtain ⟨_, rest⟩ := List.forall_mem_append.1 below
    obtain ⟨hi, hb⟩ := List.forall_mem_append.1 rest
    rw [Stmt.lowerWith, Stmt.log]
    exact (hi _ iterable.mem_nodes ctx).bind fun _ => .lift_bind _ fun type =>
      .declare_bind ⟨id, .variable, ty⟩ type fun _ =>
        (hb _ body.mem_nodes ctx).bind_last fun _ => .pure _
  | whileLoop cond body span =>
    rw [Stmt.lowerWith, Stmt.log]
    exact .fail _
  | tryCatch body clauses cleanup span =>
    obtain ⟨hb, rest⟩ := List.forall_mem_append.1 below
    obtain ⟨hc, _⟩ := List.forall_mem_append.1 rest
    cases cleanup with
    | some cleanup =>
      simp only [Stmt.lowerWith, Stmt.log]
      exact .fail _
    | none =>
      rcases clauses with _ | ⟨⟨⟨name, id, ty, init, paramSpan⟩, handler⟩, _ | _⟩
      case cons.nil =>
        obtain ⟨_, handlers⟩ := List.forall_mem_append.1 hc
        obtain ⟨hh, _⟩ := List.forall_mem_append.1 handlers
        rw [Stmt.lowerWith, CatchClause.lowerWith, Stmt.log, CatchClause.log]
        have clause := Logs.lift_bind (r.resolve ty) fun type =>
          Logs.declare_bind (r := r) ⟨id, .variable, ty⟩ type fun _ =>
            (handler.logs_of_nodes ctx hh).bind_last fun handler =>
              Logs.pure (name, Model.Stmt.block handler)
        exact (body.logs_of_nodes ctx hb).bind fun _ => clause.bind_last fun _ => .pure _
      all_goals
        simp only [Stmt.lowerWith, Stmt.log]
        exact .fail _
  | throw e span =>
    rw [Stmt.lowerWith, Stmt.log]
    refine (below _ e.mem_nodes ctx).bind_last fun thrown => ?_
    split
    · exact .pure _
    · exact .fail _
  | «return» e span =>
    rw [Stmt.lowerWith, Stmt.log]
    exact (Expr.logsOption ctx below).bind_last fun _ => .pure _
  | «break» span =>
    rw [Stmt.lowerWith, Stmt.log]
    exact .fail _
  | «continue» span =>
    rw [Stmt.lowerWith, Stmt.log]
    exact .fail _

theorem Lowering.isLogged_of_below (node : Source.Node)
    (below : ∀ part ∈ node.below, IsLogged r part) : IsLogged r node := by
  cases node with
  | expr e => exact e.logs_of_below below
  | stmt s => exact s.logs_of_below below

/-- The log of a tree tells all that is done when it is lowered, whether it is lowered or fails. -/
theorem Source.Piece.logs (ctx : Context) (piece : Piece) :
    (piece.lowerWith (identifier r) r ctx).Logs r (piece.log r ctx) := by
  -- the induction over the nodes of a tree needs nothing of the nodes
  have step (node : Source.Node) (_ : True) (below : ∀ part ∈ node.below, IsLogged r part) :=
    isLogged_of_below node below
  cases piece with
  | method decl =>
    have bound := Logs.bindParams (r := r) (decl.params.map Param.binder) fun b mem => by
      obtain ⟨param, _, rfl⟩ := List.mem_map.1 mem
      rfl
    rw [List.map_map] at bound
    have body := decl.body.logs_of_nodes ctx
      (decl.body.forall_nodes step fun _ _ => trivial)
    refine Logs.bind_last ?_ fun _ => .pure _
    exact bound.bind fun _ => .lift_bind _ fun _ => body.bind_last fun _ => .pure _
  | field decl =>
    have init := Expr.logsOption ctx
      (Expr.forall_nodesOption step decl.init fun _ _ => trivial)
    refine Logs.bind_last ?_ fun _ => .pure _
    exact .lift_bind _ fun type => .declare_bind decl.binder type fun _ =>
      init.bind_last fun _ => .pure _
  | block b =>
    have logged := b.forall_nodes step fun _ _ => trivial
    exact (b.logs_of_nodes ctx logged).bind_last fun _ => .pure _
  | stmt s =>
    have logged := s.forall_nodes step fun _ _ => trivial
    exact (logged _ s.mem_nodes ctx).bind_last fun _ => .pure _
  | expr e =>
    have logged := e.forall_nodes step fun _ _ => trivial
    exact (logged _ e.mem_nodes ctx).bind_last fun _ => .pure _

end Polyscript
