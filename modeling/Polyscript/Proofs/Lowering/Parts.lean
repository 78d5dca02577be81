import Mathlib.Logic.Relation
import Polyscript.Proofs.Lowering.Binding
import Polyscript.Proofs.Lowering.Noting

/-!
# What is lowered with a tree

A tree is lowered together with the trees right below it, and these with the ones below them.
Lowering leaves out little: the initial value of a variable that a for-each loop or a catch clause
binds, the test and the step of a loop that counts, and the instance before a field.

If a tree is lowered, then so is each part of it, and what is done for the part stands in the log of
the tree. A call that writes the name of a method alone, however deep it stands, is noted in this
way.

## Main definitions

* `Source.Node.loweredParts`, `Source.Node.LowersWith`: the nodes that a node is lowered with, one
  level down and at any depth.
* `Step.Includes`: what is done for some nodes is in the log of a step.
* `Declaration.NotesCall`: a declaration that is lowered with a call or reference that is noted.

## Main statements

* `Source.Expr.includes_loweredParts`, `Source.Stmt.includes_loweredParts`: the log of a node
  includes what is done for its parts.
* `Declaration.NotesCall.mem_methods`: the method is used once the declaration is lowered.
-/

namespace Polyscript

open Lowering

namespace Source

/-! ### Parts -/

/-- The parts of a receiver. -/
def Callee.loweredParts : Callee → List Node
  | .unqualified _ => []
  | .member target _ => [.expr target]

/-- The parts of a lambda's body. -/
def LambdaBody.loweredParts : LambdaBody → List Node
  | .expr body => [.expr body]
  | .block body => body.stmts.map .stmt

/-- The expressions and statements right below an expression that are lowered with it. -/
def Expr.loweredParts : Expr → List Node
  | .ident .. | .literal .. | .compoundAssign .. => []
  | .binary _ lhs rhs _ => [.expr lhs, .expr rhs]
  | .unary _ operand _ => [.expr operand]
  | .assign target value _ => [.expr target, .expr value]
  | .conditional cond yes no _ => [.expr cond, .expr yes, .expr no]
  | .parens inner _ => [.expr inner]
  | .select target .. => if target.stripParens.isThis then [] else [.expr target]
  | .call callee _ args _ _ => callee.loweredParts ++ args.map fun arg => .expr arg.expr
  | .construct cls args _ => .expr cls :: args.map .expr
  | .instanceOf e _ _ => [.expr e]
  | .lambda _ body _ => body.loweredParts
  | .methodRef qualifier .. => [.expr qualifier]
  | .typeApply base _ _ => [.expr base]

/-- The expressions and statements right below a statement that are lowered with it. Of a loop
that counts these are its bounds and its body. -/
def Stmt.loweredParts : Stmt → List Node
  | .block b => b.stmts.map .stmt
  | .local decl => decl.init.toList.map .expr
  | .expr e _ => [.expr e]
  | .conditional cond yes no _ => .expr cond :: .stmt yes :: no.toList.map .stmt
  | .loop [init] (some cond) [update] body _ =>
    match ranged? init cond update with
    | some count => [.expr count.start, .expr count.stop, .stmt body]
    | none => [.stmt init, .expr cond, .expr update, .stmt body]
  | .forEach _ iterable body _ => [.expr iterable, .stmt body]
  | .tryCatch body [clause] none _ => body.stmts.map .stmt ++ clause.body.stmts.map .stmt
  | .throw e _ => [.expr e]
  | .return e _ => e.toList.map .expr
  | .loop .. | .whileLoop .. | .tryCatch .. | .break _ | .continue _ => []

/-- The nodes right below a node that are lowered with it. -/
def Node.loweredParts : Node → List Node
  | .expr e => e.loweredParts
  | .stmt s => s.loweredParts

/-- Whether a node is lowered with another one, whatever stands between them. -/
def Node.LowersWith : Node → Node → Prop :=
  Relation.ReflTransGen fun node part => part ∈ node.loweredParts

/-- Whether a node has been lowered, and all that was done for it stands in a log. -/
def Node.LoweredIn (r : Resolver) (log : List Moment) : Node → Prop
  | .expr e => ∃ ctx s a t, e.lower r ctx s = (.ok a, t) ∧ e.log r ctx s ⊆ log
  | .stmt st => ∃ ctx s a t, st.lower r ctx s = (.ok a, t) ∧ st.log r ctx s ⊆ log

theorem Node.LoweredIn.mono {r : Resolver} {node : Node} {log more : List Moment}
    (lowered : node.LoweredIn r log) (sub : log ⊆ more) : node.LoweredIn r more := by
  cases node with
  | expr e =>
    obtain ⟨ctx, s, a, t, ok, within⟩ := lowered
    exact ⟨ctx, s, a, t, ok, List.Subset.trans within sub⟩
  | stmt st =>
    obtain ⟨ctx, s, a, t, ok, within⟩ := lowered
    exact ⟨ctx, s, a, t, ok, List.Subset.trans within sub⟩

end Source

open Source

/-! ### Steps that lower nodes -/

variable {r : Resolver}

namespace Step

variable {α β : Type} {x : Step α} {f : α → Step β} {log : Log} {nodes others : List Source.Node}

/-- Whether nodes have been lowered when a step gives a result, and what was done for them stands
in a log of the step. -/
def Includes (r : Resolver) (x : Step α) (log : Log) (nodes : List Source.Node) : Prop :=
  ∀ s a t, x s = (.ok a, t) → ∀ node ∈ nodes, node.LoweredIn r (log s)

theorem Includes.nil : x.Includes r log [] := fun _ _ _ _ => List.forall_mem_nil _

theorem Includes.bind {next : α → Log} (first : x.Includes r log nodes)
    (rest : ∀ a, (f a).Includes r (next a) others) :
    (x >>= f).Includes r (.andThen x log next) (nodes ++ others) := by
  intro s b t ok
  obtain ⟨a, s', left, right⟩ := ok_of_bind ok
  have whole : Log.andThen x log next s = log s ++ next a s' := by rw [Log.andThen, left]
  rw [whole]
  refine List.forall_mem_append.2 ⟨fun node mem => ?_, fun node mem => ?_⟩
  · exact (first s a s' left node mem).mono (List.subset_append_left _ _)
  · exact (rest a s' b t right node mem).mono (List.subset_append_right _ _)

/-- What follows may do anything, and what it does may stand in the log. -/
theorem Includes.bind_first {next : α → Log} (first : x.Includes r log nodes) :
    (x >>= f).Includes r (.andThen x log next) nodes := by
  have both : (x >>= f).Includes r (.andThen x log next) (nodes ++ []) :=
    first.bind fun _ => .nil
  rwa [List.append_nil] at both

/-- Nor has it to stand there. -/
theorem Includes.bind_last (first : x.Includes r log nodes) :
    (x >>= f).Includes r log nodes := by
  intro s b t ok
  obtain ⟨a, s', left, _⟩ := ok_of_bind ok
  exact first s a s' left

theorem Includes.lift_bind (result : Except Unsupported α) {next : α → Log}
    (rest : ∀ a, (f a).Includes r (next a) nodes) :
    (Step.lift result >>= f).Includes r (.given result next) nodes := by
  cases result with
  | ok a => exact rest a
  | error cause =>
    intro s b t ok
    cases ok

theorem Includes.fail (cause : Unsupported) : (fail cause : Step α).Includes r log nodes := by
  intro s a t ok
  cases ok

theorem Includes.declare_bind (binder : Binder) (type : TypeInfo) {f : PUnit → Step β}
    (next : ∀ a, (f a).Includes r log nodes) :
    (Step.declare binder.sym binder.scope type >>= f).Includes r (.declare binder type log) nodes :=
  nil.bind next

variable (ctx : Context)

theorem Includes.expr (e : Source.Expr) :
    (e.lowerWith (identifier r) r ctx).Includes r (e.log r ctx) [.expr e] := by
  intro s a t ok
  exact List.forall_mem_singleton.2 ⟨ctx, s, a, t, ok, List.Subset.refl _⟩

theorem Includes.stmt (st : Source.Stmt) :
    (st.lowerWith (identifier r) r ctx).Includes r (st.log r ctx) [.stmt st] := by
  intro s a t ok
  exact List.forall_mem_singleton.2 ⟨ctx, s, a, t, ok, List.Subset.refl _⟩

theorem Includes.exprs (es : List Source.Expr) :
    (Source.Expr.lowerAllWith (identifier r) r ctx es).Includes r (Source.Expr.logAll r ctx es)
      (es.map .expr) := by
  induction es with
  | nil => exact .nil
  | cons e rest ih =>
    rw [Source.Expr.lowerAllWith, Source.Expr.logAll]
    exact (Includes.expr ctx e).bind fun _ => ih.bind_last

theorem Includes.args (args : List Arg) :
    (Arg.lowerAllWith (identifier r) r ctx args).Includes r (Arg.logAll r ctx args)
      (args.map fun arg => .expr arg.expr) := by
  induction args with
  | nil => exact .nil
  | cons arg rest ih =>
    obtain ⟨e, ty⟩ := arg
    rw [Arg.lowerAllWith, Arg.logAll]
    exact (Includes.expr ctx e).bind fun _ => ih.bind_last

theorem Includes.stmts (stmts : List Source.Stmt) :
    (Source.Stmt.lowerAllWith (identifier r) r ctx stmts).Includes r
      (Source.Stmt.logAll r ctx stmts) (stmts.map .stmt) := by
  induction stmts with
  | nil => exact .nil
  | cons st rest ih =>
    rw [Source.Stmt.lowerAllWith, Source.Stmt.logAll]
    exact (Includes.stmt ctx st).bind fun _ => ih.bind_last

theorem Includes.optionalExpr (e : Option Source.Expr) :
    (Source.Expr.lowerOptionWith (identifier r) r ctx e).Includes r
      (Source.Expr.logOption r ctx e) (e.toList.map .expr) := by
  cases e with
  | none => exact .nil
  | some e =>
    rw [Source.Expr.lowerOptionWith, Source.Expr.logOption]
    exact (Includes.expr ctx e).bind_last

theorem Includes.optionalStmt (st : Option Source.Stmt) :
    (Source.Stmt.lowerOptionWith (identifier r) r ctx st).Includes r
      (Source.Stmt.logOption r ctx st) (st.toList.map .stmt) := by
  cases st with
  | none => exact .nil
  | some st =>
    rw [Source.Stmt.lowerOptionWith, Source.Stmt.logOption]
    exact (Includes.stmt ctx st).bind_last

theorem Includes.block (block : Source.Block) :
    (block.lowerWith (identifier r) r ctx).Includes r (block.log r ctx)
      (block.stmts.map .stmt) := by
  obtain ⟨stmts, span⟩ := block
  rw [Source.Block.lowerWith, Source.Block.log]
  exact (Includes.stmts ctx stmts).bind_last

theorem Includes.lambdaBody (body : Source.LambdaBody) :
    (body.lowerWith (identifier r) r ctx).Includes r (body.log r ctx) body.loweredParts := by
  cases body with
  | expr e =>
    rw [Source.LambdaBody.lowerWith, Source.LambdaBody.log]
    exact (Includes.expr ctx e).bind_last
  | block b =>
    rw [Source.LambdaBody.lowerWith, Source.LambdaBody.log]
    exact (Includes.block ctx b).bind_last

theorem Includes.callee (callee : Callee) :
    (callee.lowerWith (identifier r) r ctx).Includes r (callee.log r ctx) callee.loweredParts := by
  cases callee with
  | unqualified name => exact .nil
  | member target name =>
    rw [Callee.lowerWith, Callee.log]
    exact .expr ctx target

end Step

open Step

variable (ctx : Context)

/-- The log of an expression includes what is done for its parts. -/
theorem Source.Expr.includes_loweredParts (e : Source.Expr) :
    (e.lower r ctx).Includes r (e.log r ctx) e.loweredParts := by
  rw [Source.Expr.lower]
  cases e with
  | ident name id span => exact .nil
  | literal value span => exact .nil
  | binary op lhs rhs span =>
    rw [Expr.lowerWith, Expr.log]
    exact .lift_bind _ fun _ => (Includes.expr ctx lhs).bind fun _ =>
      (Includes.expr ctx rhs).bind_last
  | unary op operand span =>
    rw [Expr.lowerWith, Expr.log]
    exact .lift_bind _ fun _ => (Includes.expr ctx operand).bind_last
  | assign target value span =>
    rw [Expr.lowerWith, Expr.log]
    exact (Includes.expr ctx target).bind fun _ => (Includes.expr ctx value).bind_last
  | compoundAssign op target value span => exact .nil
  | conditional cond yes no span =>
    rw [Expr.lowerWith, Expr.log]
    exact (Includes.expr ctx cond).bind fun _ => (Includes.expr ctx yes).bind fun _ =>
      (Includes.expr ctx no).bind_last
  | parens inner span =>
    rw [Expr.lowerWith, Expr.log]
    exact (Includes.expr ctx inner).bind_last
  | select target name ty span =>
    rw [Expr.lowerWith, Expr.log, Expr.loweredParts]
    -- the instance before a field need not be lowered, and has no parts to speak of
    cases target.stripParens.isThis with
    | true => exact .nil
    | false => exact .lift_bind _ fun _ => (Includes.expr ctx target).bind_last
  | call callee method args ty span =>
    rw [Expr.lowerWith, Expr.log]
    exact (Includes.callee ctx callee).bind fun _ => .lift_bind _ fun _ =>
      (Includes.args ctx args).bind_last
  | construct cls args span =>
    rw [Expr.lowerWith, Expr.log]
    exact (Includes.expr ctx cls).bind fun _ => (Includes.exprs ctx args).bind_last
  | instanceOf e cls span =>
    rw [Expr.lowerWith, Expr.log]
    exact Includes.nil.bind fun _ => (Includes.expr ctx e).bind_last
  | lambda params body span =>
    rw [Expr.lowerWith, Expr.log]
    refine .lift_bind _ fun found => ?_
    cases found with
    | some callback => exact (Includes.lambdaBody _ body).bind_last
    | none => exact Includes.nil.bind fun _ => (Includes.lambdaBody ctx body).bind_last
  | methodRef qualifier name mode method span =>
    rw [Expr.lowerWith, Expr.log]
    split
    · exact .fail _
    · exact (Includes.expr ctx qualifier).bind_first
  | typeApply base args span =>
    rw [Expr.lowerWith, Expr.log]
    exact .expr ctx base

/-- The log of a statement includes what is done for its parts. -/
theorem Source.Stmt.includes_loweredParts (st : Source.Stmt) :
    (st.lower r ctx).Includes r (st.log r ctx) st.loweredParts := by
  rw [Source.Stmt.lower]
  cases st with
  | block block =>
    rw [Stmt.lowerWith, Stmt.log]
    exact (Includes.block ctx block).bind_last
  | «local» decl =>
    obtain ⟨name, id, ty, init, span⟩ := decl
    rw [Stmt.lowerWith, VarDecl.lowerWith, Stmt.log]
    exact .lift_bind _ fun _ => (Includes.optionalExpr ctx init).bind_first
  | expr e span =>
    rw [Stmt.log]
    cases e with
    | assign target value place =>
      -- the assignment is lowered part by part, as it is where it is an expression
      intro s a t ok
      rw [Stmt.lowerWith] at ok
      obtain ⟨target', s', left, ok⟩ := ok_of_bind ok
      obtain ⟨value', s'', right, _⟩ := ok_of_bind ok
      have whole : (Source.Expr.assign target value place).lower r ctx s =
          (.ok (.assign target' value'), s'') := by
        rw [Source.Expr.lower, Expr.lowerWith, bind_of_ok left, bind_of_ok right]
        rfl
      exact List.forall_mem_singleton.2 ⟨ctx, s, _, _, whole, List.Subset.refl _⟩
    | _ =>
      simp only [Stmt.lowerWith]
      exact (Includes.expr ctx _).bind_last
  | conditional cond yes no span =>
    rw [Stmt.lowerWith, Stmt.log]
    exact (Includes.expr ctx cond).bind fun _ => (Includes.stmt ctx yes).bind fun _ =>
      (Includes.optionalStmt ctx no).bind_last
  | loop inits cond updates body span =>
    rcases inits with _ | ⟨init, _ | _⟩
    case cons.nil =>
      rcases updates with _ | ⟨update, _ | _⟩
      case cons.nil =>
        cases cond with
        | none => exact .nil
        | some cond =>
          rw [Source.Stmt.lowerWith_loop, Source.Stmt.log_loop, Stmt.loweredParts]
          cases ranged? init cond update with
          | some count =>
            exact .lift_bind _ fun type => (Includes.expr ctx count.start).bind fun _ =>
              (Includes.expr ctx count.stop).bind fun _ =>
                .declare_bind ⟨count.sym, .variable, count.ty⟩ type fun _ =>
                  (Includes.stmt ctx body).bind_last
          | none =>
            exact (Includes.stmt ctx init).bind fun _ => (Includes.expr ctx cond).bind fun _ =>
              (Includes.expr ctx update).bind fun _ => (Includes.stmt ctx body).bind_last
      all_goals
        simp only [Stmt.lowerWith]
        exact .fail _
    all_goals exact .nil
  | forEach var iterable body span =>
    obtain ⟨name, id, ty, init, varSpan⟩ := var
    rw [Stmt.lowerWith, Stmt.log]
    exact (Includes.expr ctx iterable).bind fun _ => .lift_bind _ fun type =>
      .declare_bind ⟨id, .variable, ty⟩ type fun _ => (Includes.stmt ctx body).bind_last
  | whileLoop cond body span => exact .nil
  | tryCatch body clauses cleanup span =>
    cases cleanup with
    | some cleanup =>
      simp only [Stmt.lowerWith]
      exact .fail _
    | none =>
      rcases clauses with _ | ⟨⟨⟨name, id, ty, init, paramSpan⟩, handler⟩, _ | _⟩
      case cons.nil =>
        rw [Stmt.lowerWith, CatchClause.lowerWith, Stmt.log, CatchClause.log]
        have clause := Includes.lift_bind (r := r) (r.resolve ty) fun type =>
          Includes.declare_bind ⟨id, .variable, ty⟩ type fun _ =>
            (Includes.block ctx handler).bind_last (f := fun handler =>
              pure (name, Model.Stmt.block handler))
        exact (Includes.block ctx body).bind fun _ => clause.bind_last
      all_goals exact .nil
  | throw e span =>
    rw [Stmt.lowerWith, Stmt.log]
    exact (Includes.expr ctx e).bind_last
  | «return» e span =>
    rw [Stmt.lowerWith, Stmt.log]
    exact (Includes.optionalExpr ctx e).bind_last
  | «break» span => exact .nil
  | «continue» span => exact .nil

/-! ### Calls that are noted -/

/-- A part of a lowered node is lowered. -/
theorem Source.Node.LoweredIn.part {node part : Source.Node} {log : List Moment}
    (lowered : node.LoweredIn r log) (isPart : part ∈ node.loweredParts) :
    part.LoweredIn r log := by
  cases node with
  | expr e =>
    obtain ⟨ctx, s, a, t, ok, within⟩ := lowered
    exact (e.includes_loweredParts ctx s a t ok part isPart).mono within
  | stmt st =>
    obtain ⟨ctx, s, a, t, ok, within⟩ := lowered
    exact (st.includes_loweredParts ctx s a t ok part isPart).mono within

/-- Whatever is lowered with a lowered node is lowered. -/
theorem Source.Node.LowersWith.loweredIn {node inner : Source.Node} {log : List Moment}
    (inside : node.LowersWith inner) (lowered : node.LoweredIn r log) :
    inner.LoweredIn r log := by
  induction inside with
  | refl => exact lowered
  | tail _ isPart ih => exact ih.part isPart

/-- The enclosing instance is lowered to itself. -/
theorem Source.Expr.lower_of_isBareThis (s : Progress) :
    ∀ {e : Source.Expr}, e.isBareThis = true → e.lower r ctx s = (.ok .this, s)
  | .ident name id span, isThis => by
    rw [Source.Expr.lower, Expr.lowerWith, identifier_apply, if_pos (beq_iff_eq.1 isThis)]
  | .typeApply base args span, isThis => by
    rw [Source.Expr.lower, Expr.lowerWith]
    exact base.lower_of_isBareThis s isThis

/-- A lowered call or reference is noted under the name that it writes. -/
theorem Source.Node.LoweredIn.noted {node : Source.Node} {log : List Moment} {name : String}
    {id : SymbolId} (lowered : node.LoweredIn r log)
    (isCall : node.ownCall? = some (some name, id)) : ∃ s, ⟨s, .useMethod name⟩ ∈ log := by
  unfold ownCall? at isCall
  split at isCall
  next word method args ty span =>
    obtain ⟨isWord, -⟩ := Prod.mk.inj (Option.some.inj isCall)
    obtain rfl := Option.some.inj isWord
    obtain ⟨ctx, s, a, t, -, within⟩ := lowered
    refine ⟨s, within ?_⟩
    rw [Expr.log, Callee.log]
    exact List.mem_append_left _ (List.mem_singleton_self _)
  next target called method args ty span =>
    split at isCall
    · cases isCall
    · cases isCall
  next qualifier word mode method span =>
    split at isCall
    next isThis =>
      obtain ⟨isWord, -⟩ := Prod.mk.inj (Option.some.inj isCall)
      obtain rfl := Option.some.inj isWord
      obtain ⟨ctx, s, a, t, ok, within⟩ := lowered
      have receiver := Source.Expr.lower_of_isBareThis (r := r) ctx s isThis
      refine ⟨s, within ?_⟩
      rw [Source.Expr.lower, Expr.lowerWith] at ok
      rw [Expr.log]
      split at ok
      next => cases ok
      next isMethod =>
        rw [if_neg isMethod, Log.andThen, receiver]
        exact List.mem_append_right _ (List.mem_singleton_self _)
    next => cases isCall
  next => cases isCall

/-! ### Declarations -/

namespace Declaration

/-- The nodes that a declaration is lowered with. -/
def loweredParts : Declaration → List Source.Node
  | .field decl => decl.init.toList.map .expr
  | .method decl => decl.body.stmts.map .stmt

/-- Whether a declaration is lowered with a call or reference on the enclosing instance that is
noted under a name. -/
def NotesCall (name : String) (d : Declaration) : Prop :=
  ∃ part ∈ d.loweredParts, ∃ node, part.LowersWith node ∧ ∃ id, node.ownCall? = some (some name, id)

/-- The tree of a declaration. -/
def piece : Declaration → Piece
  | .field decl => .field decl
  | .method decl => .method decl

variable {d : Declaration} {s t : Progress} {model : Lowered}

/-- A declaration is told by the log of its tree. -/
theorem chained_log (ok : d.lower r ctx s = (.ok model, t)) :
    Chained r s (d.piece.log r ctx s) t := by
  have ends : (d.piece.lowerWith (identifier r) r ctx s).2 = t := by
    cases d with
    | field decl =>
      obtain ⟨field, s', lowers, last⟩ := ok_of_bind ok
      obtain ⟨-, rfl⟩ := ok_of_pure last
      exact congrArg Prod.snd (bind_of_ok lowers fun model => pure (Model.Piece.field model))
    | method decl =>
      obtain ⟨method, s', lowers, last⟩ := ok_of_bind ok
      obtain ⟨-, rfl⟩ := ok_of_pure last
      exact congrArg Prod.snd (bind_of_ok lowers fun model => pure (Model.Piece.method model))
  rw [← ends]
  exact d.piece.logs ctx s

/-- Lowering a declaration forgets nothing. -/
theorem knownIn_lower (ok : d.lower r ctx s = (.ok model, t)) : s.KnownIn t :=
  (chained_log ctx ok).knownIn t (List.mem_append_right _ (List.mem_singleton_self t))

theorem includes_loweredParts (d : Declaration) :
    (d.lower r ctx).Includes r (d.piece.log r ctx) d.loweredParts := by
  cases d with
  | field decl =>
    refine Includes.bind_last ?_
    exact .lift_bind _ fun type => .declare_bind decl.binder type fun _ =>
      (Includes.optionalExpr ctx decl.init).bind_last
  | method decl =>
    refine Includes.bind_last ?_
    exact Includes.nil.bind fun _ => .lift_bind _ fun _ =>
      (Includes.block ctx decl.body).bind_last

/-- A method is used once a declaration with a call or reference that is noted under its name has
been lowered. -/
theorem NotesCall.mem_methods {name : String} (notes : d.NotesCall name)
    (ok : d.lower r ctx s = (.ok model, t)) : name ∈ t.uses.methods := by
  obtain ⟨part, isPart, node, inside, id, isCall⟩ := notes
  have lowered := d.includes_loweredParts ctx s model t ok part isPart
  obtain ⟨s', isMoment⟩ := (inside.loweredIn lowered).noted isCall
  exact ((chained_log ctx ok).knownIn_of_mem isMoment).methods List.mem_insert_self

end Declaration

end Polyscript
