import Polyscript.Proofs.Model.Bare
import Polyscript.Proofs.Source.Unspanned

/-!
# Lowering does not read formatting

Source text, places and the wish to keep fragments have no say in what a tree is lowered
to, but for the fragments of its blocks: leaving all formatting out before the tree is
lowered comes to the same as leaving the fragments out of its model.
-/

namespace Polyscript

open Lowering

/-- Looking up a key and changing what is found come to the same in either order. -/
private theorem lookup_map_snd {α β γ : Type} [BEq α] (f : β → γ) (key : α)
    (entries : List (α × β)) :
    (entries.map (Prod.map id f)).lookup key = (entries.lookup key).map f := by
  induction entries with
  | nil => rfl
  | cons entry rest ih =>
    obtain ⟨other, value⟩ := entry
    rw [List.map_cons, Prod.map, List.lookup_cons, List.lookup_cons]
    by_cases isOther : key == other
    · simp [isOther]
    · simpa [isOther] using ih

/-- A context in which no fragments are kept and no alias has any. -/
def Context.bare (ctx : Context) : Context where
  options := { ctx.options with keepFragments := false }
  aliases := ctx.aliases.map (Prod.map id Model.Expr.bare)

theorem Context.alias?_bare (ctx : Context) (id : SymbolId) :
    ctx.bare.alias? id = (ctx.alias? id).map Model.Expr.bare :=
  lookup_map_snd Model.Expr.bare id ctx.aliases

theorem Context.withAlias_bare (ctx : Context) (id : SymbolId) (e : Model.Expr) :
    (ctx.withAlias id e).bare = ctx.bare.withAlias id e.bare := rfl

theorem Step.map_lift {α β : Type} (f : α → β) (result : Except Unsupported α) :
    f <$> (liftM result : Step α) = liftM (result.map f) := by
  cases result <;> rfl

theorem Step.lift_map_bind {α β γ : Type} (f : α → β) (result : Except Unsupported α)
    (next : β → Step γ) :
    (liftM (result.map f) : Step β) >>= next = (liftM result : Step α) >>= fun a => next (f a) := by
  cases result <;> rfl

theorem Step.fst_map_apply {α β : Type} (f : α → β) (step : Step α) (s : Progress) :
    ((f <$> step) s).1 = (step s).1.map f := by
  change (Step.bind step (fun a => Step.pure (f a)) s).1 = _
  unfold Step.bind
  cases step s with
  | mk outcome t => cases outcome <;> rfl

theorem Step.map_fail {α β : Type} (f : α → β) (cause : Unsupported) :
    f <$> (Step.fail cause : Step α) = Step.fail cause := rfl

namespace Lowering

theorem map_bare_variableOf (name : String) (scope : Model.Scope) (type : TypeInfo) :
    Model.Expr.bare <$> variableOf name scope type = variableOf name scope type := by
  unfold variableOf
  split <;> simp only [map_bind, Step.map_lift, ← Model.Expr.coerce_bare, Model.Expr.bare]

theorem classReference_bare (r : Resolver) (name : String) :
    (classReference r name).bare = classReference r name := by
  unfold classReference
  split
  · rfl
  · split <;> rfl

theorem map_bare_unbound (r : Resolver) (name : String) (id : SymbolId) :
    Model.Expr.bare <$> unbound r name id = unbound r name id := by
  unfold unbound
  rw [map_bind]
  refine congrArg _ (funext fun symbol => ?_)
  split
  · split
    · simp only [map_pure, classReference_bare]
    · rfl
  · simp only [map_bind, map_bare_variableOf]

theorem withFragments_bare (r : Resolver) (ctx : Context) (block : Source.Span)
    (spans : List Source.Span) (stmts : List Model.Stmt) :
    (withFragments r ctx block spans stmts).bare = ⟨Model.Stmt.bareAll stmts, []⟩ := by
  unfold withFragments
  split
  · exact Model.Block.withFragments_bare _ _
  · rfl

theorem split_bare (name : String) (body : Model.LambdaBody) :
    split name body.bare =
      (Model.Stmt.bareOption (split name body).1, Model.Stmt.bareOption (split name body).2) := by
  cases body with
  | expr body => rfl
  | block body =>
    obtain ⟨stmts, fragments⟩ := body
    rcases stmts with _ | ⟨stmt, _ | ⟨next, rest⟩⟩
    · rfl
    · cases stmt with
      | conditionals branches otherwise =>
        rcases branches with _ | ⟨⟨cond, body⟩, _ | ⟨⟨cond', body'⟩, others⟩⟩
        · rfl
        · simp only [Model.LambdaBody.bare, Model.Block.bare, Model.Stmt.bareAll, Model.Stmt.bare,
            Model.Branch.bareAll, split, Model.Expr.stripParens_bare, Model.Expr.untyped_bare]
          -- the test is seen through parentheses and types, which fragments are not part of
          cases cond.stripParens.untyped with
          | asyncCall target resultType op =>
            simp only [Model.Expr.bare]
            split
            · cases op <;> rfl
            · rfl
          | _ => rfl
        · rfl
      | _ => rfl
    · simp [split]

theorem chain_bare (cond : Model.Expr) (body : Model.Stmt) (otherwise : Option Model.Stmt) :
    chain ⟨cond.bare, body.bare⟩ (Model.Stmt.bareOption otherwise) =
      (chain ⟨cond, body⟩ otherwise).bare := by
  cases otherwise with
  | none => rfl
  | some otherwise => cases otherwise <;> rfl

theorem noteReference_bare (name : String) (receiver : Model.Expr) :
    noteReference name receiver.bare = noteReference name receiver := by
  cases receiver <;> rfl

theorem asyncParam_unspanned (r : Resolver) (ctx : Context) (params : List Source.LambdaParam) :
    asyncParam r.unspanned ctx.bare params = asyncParam r ctx params := by
  simp only [asyncParam, Context.bare, Resolver.resolve_unspanned]

end Lowering

open Source

section Trees

variable {n n' : Naming} (r : Resolver)

/-- A loop with one part of each kind is lowered without formatting if its parts are. -/
theorem Source.Stmt.loop_unspanned (ctx : Context) {init body : Source.Stmt}
    {cond update : Source.Expr} {span : Span}
    (hi : init.unspanned.lowerWith n' r.unspanned ctx.bare =
      Model.Stmt.bare <$> init.lowerWith n r ctx)
    (hc : cond.unspanned.lowerWith n' r.unspanned ctx.bare =
      Model.Expr.bare <$> cond.lowerWith n r ctx)
    (hu : update.unspanned.lowerWith n' r.unspanned ctx.bare =
      Model.Expr.bare <$> update.lowerWith n r ctx)
    (hb : body.unspanned.lowerWith n' r.unspanned ctx.bare =
      Model.Stmt.bare <$> body.lowerWith n r ctx)
    (bounds : ∀ count, ranged? init cond update = some count →
      count.start.unspanned.lowerWith n' r.unspanned ctx.bare =
          Model.Expr.bare <$> count.start.lowerWith n r ctx ∧
        count.stop.unspanned.lowerWith n' r.unspanned ctx.bare =
          Model.Expr.bare <$> count.stop.lowerWith n r ctx) :
    (Stmt.loop [init] (some cond) [update] body span).unspanned.lowerWith n' r.unspanned ctx.bare =
      Model.Stmt.bare <$> (Stmt.loop [init] (some cond) [update] body span).lowerWith n r ctx := by
  rw [Stmt.unspanned, Stmt.unspannedAll, Stmt.unspannedAll, Expr.unspannedOption,
    Expr.unspannedAll, Expr.unspannedAll, Stmt.lowerWith_loop, Stmt.lowerWith_loop,
    ranged?_unspanned]
  cases found : ranged? init cond update with
  | some count =>
    obtain ⟨start, stop⟩ := bounds count found
    simp only [Option.map_some, RangedLoop.unspanned, Resolver.resolve_unspanned, start, stop, hb,
      map_bind, bind_map_left, map_pure, Model.Stmt.bare]
  | none =>
    simp only [Option.map_none, hi, hc, hu, hb, map_bind, bind_map_left, map_pure,
      Model.Stmt.bare]

/-- Whether one way to lower names gives, in a context without formatting, what another one gives
without fragments. -/
abbrev Lowering.NamesBare (n n' : Naming) : Prop :=
  ∀ ctx name id, n' ctx.bare name id = Model.Expr.bare <$> n ctx name id

mutual

/-- An expression is lowered without formatting to its model without fragments. -/
theorem Source.Expr.lowerWith_unspanned (naming : NamesBare n n') (ctx : Context)
    (e : Source.Expr) :
    e.unspanned.lowerWith n' r.unspanned ctx.bare = Model.Expr.bare <$> e.lowerWith n r ctx := by
  cases e with
  | ident name id span =>
    rw [Expr.unspanned, Expr.lowerWith, Expr.lowerWith]
    exact naming ctx name id
  | literal value span =>
    rw [Expr.unspanned, Expr.lowerWith, Expr.lowerWith]
    rfl
  | binary op lhs rhs span =>
    simp only [Expr.unspanned, Expr.lowerWith, Expr.lowerWith_unspanned naming ctx lhs,
      Expr.lowerWith_unspanned naming ctx rhs, map_bind, bind_map_left, Step.map_lift,
      Model.Expr.applyBinary_bare]
  | unary op operand span =>
    simp only [Expr.unspanned, Expr.lowerWith, Expr.lowerWith_unspanned naming ctx operand,
      map_bind, bind_map_left, Step.map_lift, Model.Expr.applyUnary_bare]
  | assign target value span =>
    simp only [Expr.unspanned, Expr.lowerWith, Expr.lowerWith_unspanned naming ctx target,
      Expr.lowerWith_unspanned naming ctx value, map_bind, bind_map_left, map_pure, Model.Expr.bare]
  | compoundAssign op target value span =>
    rw [Expr.unspanned, Expr.lowerWith, Expr.lowerWith]
    rfl
  | conditional cond yes no span =>
    simp only [Expr.unspanned, Expr.lowerWith, Expr.lowerWith_unspanned naming ctx cond,
      Expr.lowerWith_unspanned naming ctx yes, Expr.lowerWith_unspanned naming ctx no, map_bind,
      bind_map_left, map_pure, Model.Expr.bare]
  | parens inner span =>
    simp only [Expr.unspanned, Expr.lowerWith, Expr.lowerWith_unspanned naming ctx inner, map_bind,
      bind_map_left, map_pure, Model.Expr.bare]
  | select target name ty span =>
    simp only [Expr.unspanned, Expr.lowerWith, Expr.lowerWith_unspanned naming ctx target, map_bind,
      bind_map_left, Resolver.resolve_unspanned, hasField_unspanned, Expr.stripParens_unspanned,
      Expr.isThis_unspanned]
    refine congrArg _ (funext fun type => ?_)
    split
    · rw [map_bare_variableOf]
    · simp only [map_bind, Step.lift_map_bind, Step.map_lift, Model.Expr.select_bare,
        Model.Expr.coerce_bare]
  | call callee method args ty span =>
    -- the call site is written out here, as lowering builds it from its parts
    have call_bare (receiver : Model.Expr) (receiverType : TypeInfo) (signature : Signature)
        (returnType : TypeInfo) (args : List Model.Expr) (argTypes : List (Option TypeInfo)) :=
      Model.Expr.call_bare ⟨receiverType, signature, returnType, args, argTypes⟩ receiver
    simp only [Model.CallSite.bare] at call_bare
    simp only [Expr.unspanned, Expr.lowerWith, Callee.lowerWith_unspanned naming ctx callee,
      Arg.lowerAllWith_unspanned naming ctx args, map_bind, bind_map_left, argTypes_unspanned,
      Resolver.resolve_unspanned, Resolver.owner_unspanned, Resolver.signature_unspanned,
      call_bare, Step.lift_map_bind, Step.map_lift,
      Model.Expr.coerce_bare]
  | construct cls args span =>
    simp only [Expr.unspanned, Expr.lowerWith, Expr.lowerWith_unspanned naming ctx cls,
      Expr.lowerAllWith_unspanned naming ctx args, map_bind, bind_map_left, Step.map_lift,
      Model.Expr.constructWith_bare]
  | instanceOf e cls span =>
    simp only [Expr.unspanned, Expr.lowerWith, Expr.lowerWith_unspanned naming ctx e, map_bind,
      bind_map_left, Step.map_lift, testedClass_unspanned, Model.Expr.testInstance_bare]
  | lambda params body span =>
    simp only [Expr.unspanned, Expr.lowerWith, map_bind, asyncParam_unspanned]
    refine congrArg _ (funext fun found => ?_)
    cases found with
    | some callback =>
      obtain ⟨param, type, resultType⟩ := callback
      -- the result of the callback is an alias in its body, which has no fragments itself
      have body := LambdaBody.lowerWith_unspanned naming
        (ctx.withAlias param.sym (.asyncResult param.name resultType)) body
      rw [Context.withAlias_bare, Model.Expr.bare] at body
      simp only [body, map_bind, bind_map_left, map_pure, split_bare, Model.Expr.bare,
        Model.AsyncHandler.bare]
    | none =>
      simp only [LambdaBody.lowerWith_unspanned naming ctx body, bindParams_unspanned, map_bind,
        bind_map_left, map_pure, Model.Expr.bare, Model.Lambda.bare]
  | methodRef qualifier name mode method span =>
    simp only [Expr.unspanned, Expr.lowerWith, Expr.lowerWith_unspanned naming ctx qualifier]
    split
    · rfl
    · simp only [map_bind, bind_map_left, Step.map_lift, noteReference_bare,
        Resolver.signature_unspanned, Model.Expr.refer_bare]
  | typeApply base args span =>
    rw [Expr.unspanned, Expr.lowerWith, Expr.lowerWith]
    exact Expr.lowerWith_unspanned naming ctx base

theorem Source.Expr.lowerAllWith_unspanned (naming : NamesBare n n') (ctx : Context)
    (es : List Source.Expr) :
    Expr.lowerAllWith n' r.unspanned ctx.bare (Expr.unspannedAll es) =
      Model.Expr.bareAll <$> Expr.lowerAllWith n r ctx es := by
  cases es with
  | nil =>
    rw [Expr.unspannedAll, Expr.lowerAllWith, Expr.lowerAllWith]
    rfl
  | cons e rest =>
    simp only [Expr.unspannedAll, Expr.lowerAllWith, Expr.lowerWith_unspanned naming ctx e,
      Expr.lowerAllWith_unspanned naming ctx rest, map_bind, bind_map_left, map_pure,
      Model.Expr.bareAll]

theorem Source.Callee.lowerWith_unspanned (naming : NamesBare n n') (ctx : Context)
    (callee : Source.Callee) :
    callee.unspanned.lowerWith n' r.unspanned ctx.bare =
      Model.Expr.bare <$> callee.lowerWith n r ctx := by
  cases callee with
  | unqualified name =>
    simp only [Callee.unspanned, Callee.lowerWith, map_bind, map_pure, Model.Expr.bare]
  | member target name =>
    rw [Callee.unspanned, Callee.lowerWith, Callee.lowerWith]
    exact Expr.lowerWith_unspanned naming ctx target

theorem Source.Arg.lowerAllWith_unspanned (naming : NamesBare n n') (ctx : Context)
    (args : List Source.Arg) :
    Arg.lowerAllWith n' r.unspanned ctx.bare (Arg.unspannedAll args) =
      Model.Expr.bareAll <$> Arg.lowerAllWith n r ctx args := by
  cases args with
  | nil =>
    rw [Arg.unspannedAll, Arg.lowerAllWith, Arg.lowerAllWith]
    rfl
  | cons arg rest =>
    obtain ⟨e, ty⟩ := arg
    simp only [Arg.unspannedAll, Arg.lowerAllWith, Expr.lowerWith_unspanned naming ctx e,
      Arg.lowerAllWith_unspanned naming ctx rest, map_bind, bind_map_left, map_pure,
      Model.Expr.bareAll]

theorem Source.Expr.lowerOptionWith_unspanned (naming : NamesBare n n') (ctx : Context)
    (e : Option Source.Expr) :
    Expr.lowerOptionWith n' r.unspanned ctx.bare (Expr.unspannedOption e) =
      Model.Expr.bareOption <$> Expr.lowerOptionWith n r ctx e := by
  cases e with
  | none =>
    rw [Expr.unspannedOption, Expr.lowerOptionWith, Expr.lowerOptionWith]
    rfl
  | some e =>
    simp only [Expr.unspannedOption, Expr.lowerOptionWith, Expr.lowerWith_unspanned naming ctx e,
      map_bind, bind_map_left, map_pure, Model.Expr.bareOption]

theorem Source.LambdaBody.lowerWith_unspanned (naming : NamesBare n n') (ctx : Context)
    (body : Source.LambdaBody) :
    body.unspanned.lowerWith n' r.unspanned ctx.bare =
      Model.LambdaBody.bare <$> body.lowerWith n r ctx := by
  cases body with
  | expr body =>
    simp only [LambdaBody.unspanned, LambdaBody.lowerWith, Expr.lowerWith_unspanned naming ctx body,
      map_bind, bind_map_left, map_pure, Model.LambdaBody.bare]
  | block body =>
    simp only [LambdaBody.unspanned, LambdaBody.lowerWith,
      Block.lowerWith_unspanned naming ctx body, map_bind, bind_map_left, map_pure,
      Model.LambdaBody.bare]

theorem Source.Block.lowerWith_unspanned (naming : NamesBare n n') (ctx : Context)
    (block : Source.Block) :
    block.unspanned.lowerWith n' r.unspanned ctx.bare =
      Model.Block.bare <$> block.lowerWith n r ctx := by
  obtain ⟨stmts, span⟩ := block
  simp only [Block.unspanned, Block.lowerWith, Stmt.lowerAllWith_unspanned naming ctx stmts,
    map_bind, bind_map_left, map_pure, withFragments_bare]
  rfl

theorem Source.VarDecl.lowerWith_unspanned (naming : NamesBare n n') (ctx : Context)
    (decl : Source.VarDecl) :
    decl.unspanned.lowerWith n' r.unspanned ctx.bare =
      Model.Stmt.bare <$> decl.lowerWith n r ctx := by
  obtain ⟨name, id, ty, init, span⟩ := decl
  simp only [VarDecl.unspanned, VarDecl.lowerWith, Expr.lowerOptionWith_unspanned naming ctx init,
    Resolver.resolve_unspanned, map_bind, bind_map_left, map_pure, Model.Stmt.bare]

theorem Source.Stmt.lowerWith_unspanned (naming : NamesBare n n') (ctx : Context)
    (stmt : Source.Stmt) :
    stmt.unspanned.lowerWith n' r.unspanned ctx.bare =
      Model.Stmt.bare <$> stmt.lowerWith n r ctx := by
  cases stmt with
  | block block =>
    simp only [Stmt.unspanned, Stmt.lowerWith, Block.lowerWith_unspanned naming ctx block, map_bind,
      bind_map_left, map_pure, Model.Stmt.bare]
  | «local» decl =>
    rw [Stmt.unspanned, Stmt.lowerWith, Stmt.lowerWith]
    exact VarDecl.lowerWith_unspanned naming ctx decl
  | expr e span =>
    -- an assignment that is a statement is lowered part by part, not as an expression
    have lowered := Expr.lowerWith_unspanned naming ctx e
    cases e with
    | assign target value span =>
      simp only [Stmt.unspanned, Expr.unspanned, Stmt.lowerWith,
        Expr.lowerWith_unspanned naming ctx target, Expr.lowerWith_unspanned naming ctx value,
        map_bind, bind_map_left, map_pure, Model.Stmt.bare]
    | _ =>
      simp only [Expr.unspanned] at lowered
      simp only [Stmt.unspanned, Expr.unspanned, Stmt.lowerWith, lowered, map_bind,
        bind_map_left, map_pure, Model.Stmt.bare]
  | conditional cond yes no span =>
    simp only [Stmt.unspanned, Stmt.lowerWith, Expr.lowerWith_unspanned naming ctx cond,
      Stmt.lowerWith_unspanned naming ctx yes, Stmt.lowerOptionWith_unspanned naming ctx no,
      map_bind, bind_map_left, map_pure, chain_bare]
  | loop inits cond updates body span =>
    rcases inits with _ | ⟨init, _ | ⟨other, more⟩⟩
    case cons.nil =>
      rcases updates with _ | ⟨update, _ | ⟨other, more⟩⟩
      case cons.nil =>
        cases cond with
        | some cond =>
          refine Stmt.loop_unspanned r ctx (Stmt.lowerWith_unspanned naming ctx init)
            (Expr.lowerWith_unspanned naming ctx cond) (Expr.lowerWith_unspanned naming ctx update)
            (Stmt.lowerWith_unspanned naming ctx body) fun count found => ?_
          -- the bounds are parts of the initial statement and of the condition
          cases init with
          | «local» decl =>
            obtain ⟨name, sym, ty, start, span⟩ := decl
            cases start with
            | none => cases found
            | some start =>
              cases cond with
              | binary op tested stop span =>
                obtain ⟨isStart, isStop⟩ : count.start = start ∧ count.stop = stop := by
                  unfold ranged? at found
                  grind
                rw [isStart, isStop]
                exact ⟨Expr.lowerWith_unspanned naming ctx start,
                  Expr.lowerWith_unspanned naming ctx stop⟩
              | _ => cases found
          | _ => cases found
        | none =>
          simp only [Stmt.unspanned, Stmt.unspannedAll, Expr.unspannedAll, Expr.unspannedOption,
            Stmt.lowerWith]
          rfl
      all_goals
        cases cond <;>
          simp only [Stmt.unspanned, Stmt.unspannedAll, Expr.unspannedAll, Expr.unspannedOption,
            Stmt.lowerWith, Expr.length_unspannedAll, List.length_cons, Step.map_fail]
    all_goals
      simp only [Stmt.unspanned, Stmt.unspannedAll, Stmt.lowerWith, Stmt.length_unspannedAll,
        Expr.length_unspannedAll, List.length_cons]
      rfl
  | forEach var iterable body span =>
    obtain ⟨name, sym, ty, init, varSpan⟩ := var
    simp only [Stmt.unspanned, VarDecl.unspanned, Stmt.lowerWith,
      Expr.lowerWith_unspanned naming ctx iterable, Stmt.lowerWith_unspanned naming ctx body,
      Resolver.resolve_unspanned, map_bind, bind_map_left, map_pure, Model.Stmt.bare]
  | whileLoop cond body span =>
    rw [Stmt.unspanned, Stmt.lowerWith, Stmt.lowerWith]
    rfl
  | tryCatch body clauses cleanup span =>
    cases cleanup with
    | some cleanup =>
      simp only [Stmt.unspanned, Block.unspannedOption, Stmt.lowerWith]
      rfl
    | none =>
      rcases clauses with _ | ⟨⟨param, handler⟩, _ | ⟨⟨otherParam, otherHandler⟩, more⟩⟩
      case cons.nil =>
        obtain ⟨name, sym, ty, init, paramSpan⟩ := param
        simp only [Stmt.unspanned, CatchClause.unspannedAll, VarDecl.unspanned,
          Block.unspannedOption, Stmt.lowerWith, CatchClause.lowerWith,
          Block.lowerWith_unspanned naming ctx body, Block.lowerWith_unspanned naming ctx handler,
          Resolver.resolve_unspanned, map_bind, bind_map_left, bind_assoc, pure_bind, map_pure,
          Model.Stmt.bare]
      all_goals
        simp only [Stmt.unspanned, Block.unspannedOption, CatchClause.unspannedAll,
          Stmt.lowerWith, CatchClause.length_unspannedAll, List.length_cons]
        rfl
  | throw e span =>
    simp only [Stmt.unspanned, Stmt.lowerWith, Expr.lowerWith_unspanned naming ctx e, map_bind,
      bind_map_left]
    refine congrArg _ (funext fun thrown => ?_)
    cases thrown <;> rfl
  | «return» e span =>
    simp only [Stmt.unspanned, Stmt.lowerWith, Expr.lowerOptionWith_unspanned naming ctx e,
      map_bind, bind_map_left, map_pure, Model.Stmt.bare]
  | «break» span =>
    rw [Stmt.unspanned, Stmt.lowerWith, Stmt.lowerWith]
    rfl
  | «continue» span =>
    rw [Stmt.unspanned, Stmt.lowerWith, Stmt.lowerWith]
    rfl

theorem Source.Stmt.lowerAllWith_unspanned (naming : NamesBare n n') (ctx : Context)
    (stmts : List Source.Stmt) :
    Stmt.lowerAllWith n' r.unspanned ctx.bare (Stmt.unspannedAll stmts) =
      Model.Stmt.bareAll <$> Stmt.lowerAllWith n r ctx stmts := by
  cases stmts with
  | nil =>
    rw [Stmt.unspannedAll, Stmt.lowerAllWith, Stmt.lowerAllWith]
    rfl
  | cons stmt rest =>
    simp only [Stmt.unspannedAll, Stmt.lowerAllWith, Stmt.lowerWith_unspanned naming ctx stmt,
      Stmt.lowerAllWith_unspanned naming ctx rest, map_bind, bind_map_left, map_pure,
      Model.Stmt.bareAll]

theorem Source.Stmt.lowerOptionWith_unspanned (naming : NamesBare n n') (ctx : Context)
    (stmt : Option Source.Stmt) :
    Stmt.lowerOptionWith n' r.unspanned ctx.bare (Stmt.unspannedOption stmt) =
      Model.Stmt.bareOption <$> Stmt.lowerOptionWith n r ctx stmt := by
  cases stmt with
  | none =>
    rw [Stmt.unspannedOption, Stmt.lowerOptionWith, Stmt.lowerOptionWith]
    rfl
  | some stmt =>
    simp only [Stmt.unspannedOption, Stmt.lowerOptionWith, Stmt.lowerWith_unspanned naming ctx stmt,
      map_bind, bind_map_left, map_pure, Model.Stmt.bareOption]

end

theorem Source.MethodDecl.lowerWith_unspanned (naming : NamesBare n n') (ctx : Context)
    (decl : MethodDecl) :
    decl.unspanned.lowerWith n' r.unspanned ctx.bare =
      Model.Method.bare <$> decl.lowerWith n r ctx := by
  simp only [MethodDecl.unspanned, MethodDecl.lowerWith, bindParams_unspanned,
    Resolver.resolve_unspanned, Block.lowerWith_unspanned r naming ctx decl.body, map_bind,
    bind_map_left, map_pure, Model.Method.bare]

theorem Source.FieldDecl.lowerWith_unspanned (naming : NamesBare n n') (ctx : Context)
    (decl : FieldDecl) :
    decl.unspanned.lowerWith n' r.unspanned ctx.bare =
      Model.Field.bare <$> decl.lowerWith n r ctx := by
  simp only [FieldDecl.unspanned, FieldDecl.lowerWith, Resolver.resolve_unspanned,
    Expr.lowerOptionWith_unspanned r naming ctx decl.init, map_bind, bind_map_left, map_pure,
    Model.Field.bare]

end Trees

/-- Names are lowered without formatting to their expressions without fragments. -/
theorem Lowering.identifier_unspanned (r : Resolver) (ctx : Context) (name : String)
    (id : SymbolId) :
    identifier r.unspanned ctx.bare name id = Model.Expr.bare <$> identifier r ctx name id := by
  unfold identifier
  split
  · rfl
  rw [Context.alias?_bare]
  cases ctx.alias? id with
  | some e => rfl
  | none =>
    simp only [Option.map_none, map_bind]
    refine congrArg _ (funext fun s => ?_)
    cases s.scopes.lookup id with
    | some binding => exact (map_bare_variableOf name binding.scope binding.type).symm
    | none => exact (unbound_unspanned r name id).trans (map_bare_unbound r name id).symm

/-- A declaration without its places. -/
def Declaration.unspanned : Declaration → Declaration
  | .field decl => .field decl.unspanned
  | .method decl => .method decl.unspanned

/-- The model of a field or a method without fragments. -/
def Lowered.bare : Lowered → Lowered
  | .field model => .field model.bare
  | .method model => .method model.bare

theorem Lowered.field?_bare (lowered : Lowered) :
    lowered.bare.field? = lowered.field?.map Model.Field.bare := by
  cases lowered <;> rfl

theorem Lowered.method?_bare (lowered : Lowered) :
    lowered.bare.method? = lowered.method?.map Model.Method.bare := by
  cases lowered <;> rfl

section Programs

variable (r : Resolver) (ctx : Context)

theorem Declaration.isUsed_unspanned (uses : Uses) (decl : Declaration) :
    decl.unspanned.isUsed uses = decl.isUsed uses := by
  cases decl <;> rfl

theorem Declaration.lower_unspanned (decl : Declaration) :
    decl.unspanned.lower r.unspanned ctx.bare = Lowered.bare <$> decl.lower r ctx := by
  cases decl with
  | field decl =>
    simp only [unspanned, lower, FieldDecl.lower, map_bind, bind_map_left, map_pure, Lowered.bare,
      FieldDecl.lowerWith_unspanned r (identifier_unspanned r) ctx decl]
  | method decl =>
    simp only [unspanned, lower, MethodDecl.lower, map_bind, bind_map_left, map_pure, Lowered.bare,
      MethodDecl.lowerWith_unspanned r (identifier_unspanned r) ctx decl]

namespace Lowering

theorem used_unspanned (uses : Uses) (waiting : List (Placed Declaration)) :
    used uses (waiting.map (Prod.map id Declaration.unspanned)) =
      (used uses waiting).map (Prod.map id Declaration.unspanned) := by
  simp only [used, List.filter_map, Function.comp_def, Prod.map_snd, Declaration.isUsed_unspanned]

theorem unused_unspanned (uses : Uses) (waiting : List (Placed Declaration)) :
    unused uses (waiting.map (Prod.map id Declaration.unspanned)) =
      (unused uses waiting).map (Prod.map id Declaration.unspanned) := by
  simp only [unused, List.filter_map, Function.comp_def, Prod.map_snd,
    Declaration.isUsed_unspanned]

theorem lowerPlaced_unspanned (decls : List (Placed Declaration)) :
    lowerPlaced r.unspanned ctx.bare (decls.map (Prod.map id Declaration.unspanned)) =
      List.map (Prod.map id Lowered.bare) <$> lowerPlaced r ctx decls := by
  induction decls with
  | nil => rfl
  | cons placed rest ih =>
    obtain ⟨place, decl⟩ := placed
    simp only [List.map_cons, Prod.map, id_eq, lowerPlaced, Declaration.lower_unspanned, ih,
      map_bind, bind_map_left, map_pure]

/-- The rounds of lowering are the same without formatting. -/
theorem lowerUsed_unspanned (waiting : List (Placed Declaration)) :
    lowerUsed r.unspanned ctx.bare (waiting.map (Prod.map id Declaration.unspanned)) =
      List.map (Prod.map id Lowered.bare) <$> lowerUsed r ctx waiting := by
  induction waiting using lowerUsed.induct with
  | case1 waiting ih =>
    rw [lowerUsed, lowerUsed, map_bind]
    refine congrArg _ (funext fun s => ?_)
    -- what is used is a matter of names, so each round has the same declarations
    simp only [used_unspanned, unused_unspanned, lowerPlaced_unspanned, List.isEmpty_map]
    split
    next => rfl
    next some_used =>
      simp only [ih s some_used, map_bind, bind_map_left, map_pure, List.map_append]

theorem inOrder_bare (count : Nat) (lowered : List (Placed Lowered)) :
    inOrder count (lowered.map (Prod.map id Lowered.bare)) =
      (inOrder count lowered).map Lowered.bare := by
  simp only [inOrder, lookup_map_snd, List.map_filterMap]

theorem entry?_unspanned (name : String) (placed : Placed Declaration) :
    entry? name (Prod.map id Declaration.unspanned placed) =
      (Option.map (Prod.map id MethodDecl.unspanned) <| entry? name placed) := by
  obtain ⟨place, decl⟩ := placed
  cases decl with
  | field decl => rfl
  | method decl =>
    simp only [Prod.map, Declaration.unspanned, entry?, apply_ite (Option.map _)]
    rfl

end Lowering

namespace Source

theorem ClassUnit.declarations_unspanned (unit : ClassUnit) :
    unit.unspanned.declarations =
      unit.declarations.map (Prod.map id Declaration.unspanned) := by
  have places (decls : List Declaration) : placed (decls.map Declaration.unspanned) =
      (placed decls).map (Prod.map id Declaration.unspanned) := by
    simp [placed, List.zipIdx_map]
  rw [declarations, declarations, ← places]
  simp only [unspanned, List.map_append, List.map_map]
  rfl

theorem ClassUnit.entry?_unspanned (unit : ClassUnit) (name : String) :
    unit.unspanned.entry? name =
      (Option.map (Prod.map id MethodDecl.unspanned) <| unit.entry? name) := by
  simp only [declarations_unspanned, entry?, List.findSome?_map, List.map_findSome?,
    Function.comp_def, Lowering.entry?_unspanned]

theorem ClassUnit.helpers_unspanned (unit : ClassUnit) (entryPlace : Nat) :
    unit.unspanned.helpers entryPlace =
      (unit.helpers entryPlace).map (Prod.map id Declaration.unspanned) := by
  simp only [helpers, declarations_unspanned, List.filter_map, Function.comp_def, Prod.map_fst,
    id_eq]

theorem Program.start_unspanned (p : Program) : p.unspanned.start = p.start := by
  simp only [Program.start, Program.unspanned, Scopes.ofUnit, ClassUnit.unspanned, List.map_map,
    Function.comp_def, FieldDecl.unspanned]

/-- Lowering a program without its formatting gives its model without fragments, or the same
cause why it has none. -/
theorem Program.lower_unspanned (config : Config) (p : Program) :
    p.unspanned.lower { config with keepFragments := false } =
      (p.lower config).map Model.Unit.bare := by
  simp only [Program.lower, Program.start_unspanned]
  rw [show p.unspanned.unit = p.unit.unspanned from rfl, ClassUnit.entry?_unspanned]
  cases p.unit.entry? config.entryMethod with
  | none => rfl
  | some entry =>
    obtain ⟨entryPlace, entryDecl⟩ := entry
    simp only [Option.map_some, Prod.map, id_eq]
    rw [show p.unspanned.resolver { config with keepFragments := false } =
        (p.resolver config).unspanned from rfl,
      show Config.context { config with keepFragments := false } = config.context.bare from rfl,
      MethodDecl.lower, MethodDecl.lowerWith_unspanned _ (identifier_unspanned _),
      ClassUnit.helpers_unspanned, lowerUsed_unspanned, ← Step.fst_map_apply]
    simp only [MethodDecl.lower, map_bind, bind_map_left, map_pure, inOrder_bare,
      ClassUnit.declarations_unspanned, List.length_map, List.filterMap_map, Function.comp_def,
      Lowered.field?_bare, Lowered.method?_bare, Model.Unit.bare, List.map_filterMap]
    rfl

end Source

end Programs

end Polyscript
