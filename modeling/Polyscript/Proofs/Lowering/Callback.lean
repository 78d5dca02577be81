import Polyscript.Compilation
import Polyscript.Proofs.Layout.Alike
import Polyscript.Proofs.Model.Execution

/-!
# Callbacks for asynchronous results

A callback whose body is nothing but a test for success or failure has the branches of the
test kept apart, and the branches are joined again into one test when the callback is
written. The test that is written may be the opposite of the one that was translated. As long
as a result has failed exactly if it has not succeeded, that makes no difference: both bodies
perform the same statements.
-/

namespace Polyscript

open Lowering

namespace Model

namespace AsyncHandler

/-- The test into which the branches that are kept apart are joined again. -/
def rejoined? (handler : AsyncHandler) : Option Stmt :=
  let check (op : AsyncOp) : Expr := .asyncCall handler.name handler.resultType op
  match handler.succeeded, handler.failed with
  | some success, failure => some (.conditionals [⟨check .succeeded, success⟩] failure)
  | none, some failure => some (.conditionals [⟨check .failed, failure⟩] none)
  | none, none => none

/-- The body with which a callback is written. -/
def written (handler : AsyncHandler) : LambdaBody :=
  match handler.rejoined? with
  | some test => .block (.ofStmts [test])
  | none => handler.body

/-- A callback is written as the lambda that has this body. -/
theorem draft_alike (handler : AsyncHandler) (t : Target) (insideJson : Bool) :
    (handler.draft t insideJson).Alike
      (t.lambda (t.handlerParams handler.name) (handler.written.draft t insideJson false)) := by
  -- as a line of a block a test has an empty text for its terminator
  have line (test : Draft) :
      (test ++ "\n").Alike (Draft.empty ++ (test ++ "" ++ "\n") ++ Draft.empty) := by
    rw [Draft.empty_append, Draft.append_empty]
    exact (Draft.alike_append_blank test).symm.append (.refl _)
  obtain ⟨name, type, result, body, succeeded, failed⟩ := handler
  rw [AsyncHandler.draft]
  rcases succeeded with _ | success <;> rcases failed with _ | failure
  case none.none => exact .refl _
  all_goals exact t.alike_lambda _ (line _)

end AsyncHandler

/-- Whether a body is nothing but a test whether the asynchronous result of a name is a
success or a failure. Parentheses and then kinds may stand around the check. -/
def LambdaBody.IsCheckOf (body : LambdaBody) (name : String) : Prop :=
  ∃ cond branch otherwise fragments type op,
    body = .block ⟨[.conditionals [⟨cond, branch⟩] otherwise], fragments⟩ ∧
    cond.stripParens.untyped = .asyncCall name type op ∧ (op = .succeeded ∨ op = .failed)

end Model

open Model

namespace Lowering

/-- The callback that a translated body becomes. -/
def handlerOf (name : String) (type result : TypeInfo) (body : LambdaBody) : AsyncHandler :=
  ⟨name, type, result, body, (split name body).1, (split name body).2⟩

variable {name : String} {type result : TypeInfo} {body : LambdaBody}

/-- The branches of a body are kept apart only if the body is a check. -/
theorem isCheckOf_of_split (kept : split name body ≠ (none, none)) : body.IsCheckOf name := by
  unfold split at kept
  split at kept
  next cond branch otherwise fragments =>
    split at kept
    next target type op isCheck =>
      split at kept
      next sameName =>
        subst sameName
        cases op with
        | succeeded => exact ⟨cond, branch, otherwise, fragments, type, _, rfl, isCheck, .inl rfl⟩
        | failed => exact ⟨cond, branch, otherwise, fragments, type, _, rfl, isCheck, .inr rfl⟩
        | _ => exact absurd rfl kept
      next => exact absurd rfl kept
    next => exact absurd rfl kept
  next => exact absurd rfl kept

/-- The branches of a check are kept apart by what they are for. -/
theorem split_check {cond : Expr} {op : AsyncOp}
    (isCheck : cond.stripParens.untyped = .asyncCall name type op) (branch : Stmt)
    (otherwise : Option Stmt) (fragments : List String) :
    split name (.block ⟨[.conditionals [⟨cond, branch⟩] otherwise], fragments⟩) =
      match op with
      | .succeeded => (some branch, otherwise)
      | .failed => (otherwise, some branch)
      | _ => (none, none) := by
  rw [split]
  cases op <;> simp only [isCheck, if_true]

theorem handlerOf_isSplit : (handlerOf name type result body).isSplit ↔ body.IsCheckOf name := by
  constructor
  · intro isSplit
    apply isCheckOf_of_split
    intro apart
    rw [AsyncHandler.isSplit, handlerOf, apart] at isSplit
    cases isSplit
  · rintro ⟨cond, branch, otherwise, fragments, _, op, rfl, isCheck, rfl | rfl⟩ <;>
      simp [AsyncHandler.isSplit, handlerOf, split_check isCheck]

/-- A check is written as it stands or, if it asks for failure and there is something to be
done otherwise, as the opposite check with its branches exchanged. -/
theorem written_check {cond : Expr} {branch : Stmt} {otherwise : Option Stmt}
    {fragments : List String} {checked : TypeInfo} {op : AsyncOp}
    (isCheck : cond.stripParens.untyped = .asyncCall name checked op)
    (asks : op = .succeeded ∨ op = .failed) :
    ∃ op' branch' otherwise',
      (handlerOf name type result
        (.block ⟨[.conditionals [⟨cond, branch⟩] otherwise], fragments⟩)).written =
          .block ⟨[.conditionals [⟨.asyncCall name result op', branch'⟩] otherwise'], []⟩ ∧
      (op' = op ∧ branch' = branch ∧ otherwise' = otherwise ∨
        op = .failed ∧ op' = .succeeded ∧ otherwise = some branch' ∧
          otherwise' = some branch) := by
  have parts := split_check isCheck branch otherwise fragments
  rcases asks with rfl | rfl
  · refine ⟨.succeeded, branch, otherwise, ?_, .inl ⟨rfl, rfl, rfl⟩⟩
    simp [AsyncHandler.written, AsyncHandler.rejoined?, handlerOf, parts, Block.ofStmts]
  · -- a check for failure stays one only if there is nothing to be done on success
    cases otherwise with
    | none =>
      refine ⟨.failed, branch, none, ?_, .inl ⟨rfl, rfl, rfl⟩⟩
      simp [AsyncHandler.written, AsyncHandler.rejoined?, handlerOf, parts, Block.ofStmts]
    | some other =>
      refine ⟨.succeeded, other, some branch, ?_, .inr ⟨rfl, rfl, rfl, rfl⟩⟩
      simp [AsyncHandler.written, AsyncHandler.rejoined?, handlerOf, parts, Block.ofStmts]

/-- A body that is not a check is written as it has been translated. -/
theorem written_handlerOf (other : ¬body.IsCheckOf name) :
    (handlerOf name type result body).written = body := by
  have apart : split name body = (none, none) := by
    by_contra kept
    exact other (isCheckOf_of_split kept)
  simp [AsyncHandler.written, AsyncHandler.rejoined?, handlerOf, apart]

end Lowering

section

variable {State : Type} {env : Environment State}

/-- Two steps into a test, the branch that has been chosen is all that remains. -/
theorem Model.LambdaBody.after_two_start (branches : List Branch) (otherwise : Option Stmt)
    (fragments : List String) (s : State) :
    Machine.after env 2 (LambdaBody.start (.block ⟨[.conditionals branches otherwise],
        fragments⟩) s) =
      match env.select branches otherwise s with
      | (some chosen, state) => ⟨chosen.toList.map .stmt, state, [], false⟩
      | (none, state) => ⟨[], state, [], true⟩ := by
  change Machine.begin env ⟨_, s, [], false⟩ [] (.conditionals branches otherwise) = _
  rw [Machine.begin]
  rcases env.select branches otherwise s with ⟨_ | chosen, state⟩
  · rfl
  · simp

/-- Tests that choose the same show the same all along. -/
theorem Model.LambdaBody.agrees_of_select {branches branches' : List Branch}
    {otherwise otherwise' : Option Stmt} {s : State}
    (same : env.select branches otherwise s = env.select branches' otherwise' s)
    (fragments fragments' : List String) (n : Nat) :
    (Machine.after env n (LambdaBody.start (.block ⟨[.conditionals branches otherwise],
        fragments⟩) s)).Agrees
      (Machine.after env n (LambdaBody.start (.block ⟨[.conditionals branches' otherwise'],
        fragments'⟩) s)) := by
  refine Machine.agrees_after (k := 2) (fun n early => ?_) ?_ n
  · -- the block is opened, and then the test is begun
    have isFirst : n = 0 ∨ n = 1 := by omega
    rcases isFirst with rfl | rfl
    · exact ⟨rfl, rfl, rfl, by simp [Machine.after, LambdaBody.start]⟩
    · exact ⟨rfl, rfl, rfl, by simp [Machine.after, Machine.step, Machine.begin, LambdaBody.start]⟩
  · rw [after_two_start, after_two_start, same]

/-- The body with which a callback is written performs the same statements as the one that
has been translated, step by step. -/
theorem Lowering.agrees_written (coherent : env.Coherent) (name : String)
    (type result : TypeInfo) (body : LambdaBody) (s : State) (n : Nat) :
    (Machine.after env n ((handlerOf name type result body).written.start s)).Agrees
      (Machine.after env n (body.start s)) := by
  by_cases check : body.IsCheckOf name
  · obtain ⟨cond, branch, otherwise, fragments, checked, op, rfl, isCheck, asks⟩ := check
    -- the kinds and parentheses that are not written again mean nothing
    have tests : env.test cond s = env.test (.asyncCall name checked op) s := by
      rw [← isCheck, env.test_untyped, env.test_stripParens]
    obtain ⟨op', branch', otherwise', isWritten, same⟩ := written_check isCheck asks
    rw [isWritten]
    apply LambdaBody.agrees_of_select
    rcases same with ⟨rfl, rfl, rfl⟩ | ⟨rfl, rfl, rfl, rfl⟩
    · rcases asks with rfl | rfl <;> simp only [Environment.select, tests, Environment.test]
    · simp only [Environment.select, tests, Environment.test, coherent name s]
      cases env.succeeded name s <;> rfl
  · rw [written_handlerOf check]
    exact .refl _

end

open Source (LambdaParam)

/-- The lambda that takes an asynchronous result of a written type is lowered to a callback
with the body that has been translated. Written in any language the callback performs the
same statements as this body if a result has failed exactly if it has not succeeded, and its
branches are kept apart exactly if the body is nothing but a check of the result. -/
theorem Source.Expr.lower_asyncCallback {r : Resolver} {ctx : Context} {param : LambdaParam}
    {type result : TypeInfo} (idiom : ctx.options.asyncIdiom = true)
    (typeWritten : param.explicitType = true) (resolves : r.resolve param.ty = .ok type)
    (isAsync : type.kind = .asyncResult) (args : type.args = [result])
    (body : Source.LambdaBody) (span : Source.Span) (s : Progress) :
    let inside := ctx.withAlias param.sym (.asyncResult param.name result)
    (∀ cause t, body.lowerWith (identifier r) r inside s = (.error cause, t) →
      (Source.Expr.lambda [param] body span).lower r ctx s = (.error cause, t)) ∧
    ∀ translated t, body.lowerWith (identifier r) r inside s = (.ok translated, t) →
      ∃ handler : AsyncHandler,
        (Source.Expr.lambda [param] body span).lower r ctx s = (.ok (.asyncHandler handler), t) ∧
        handler.name = param.name ∧ handler.body = translated ∧
        (∀ target insideJson, (handler.draft target insideJson).Alike
          (target.lambda (target.handlerParams param.name)
            (handler.written.draft target insideJson false))) ∧
        (∀ (State : Type) (env : Environment State), env.Coherent → ∀ state n,
          (Machine.after env n (handler.written.start state)).Agrees
            (Machine.after env n (translated.start state))) ∧
        (handler.isSplit ↔ translated.IsCheckOf param.name) := by
  intro inside
  have isParam : asyncParam r ctx [param] = .ok (some (param, type, result)) := by
    simp only [asyncParam, idiom, typeWritten, if_true, resolves, bind, Except.bind, isAsync, args]
    rfl
  have lowers : (Source.Expr.lambda [param] body span).lower r ctx =
      body.lowerWith (identifier r) r inside >>= fun translated =>
        pure (.asyncHandler (handlerOf param.name type result translated)) := by
    rw [Source.Expr.lower, Source.Expr.lowerWith, isParam]
    rfl
  refine ⟨fun cause t failed => ?_, fun translated t ok => ?_⟩
  · rw [lowers]
    exact Step.bind_of_error failed _
  · refine ⟨handlerOf param.name type result translated, ?_, rfl, rfl, ?_, ?_, handlerOf_isSplit⟩
    · rw [lowers, Step.bind_of_ok ok]
      rfl
    · exact fun target insideJson => AsyncHandler.draft_alike _ target insideJson
    · exact fun State env coherent state n =>
        agrees_written coherent param.name type result translated state n

namespace Source

/-- A program that asks an asynchronous text whether it has failed or succeeded; the answer
to the second is declared to be a map. -/
def asking : Program :=
  let text : Ty := .declared "io.vertx.core.AsyncResult" [.string]
  { unit := { name := "Asking" }
    symbols := .ofList [
      (6, { name := "tries", kind := .localVariable, ty := .primitive .int })]
    methods := .ofList [
      (1, { name := "failed", owner := text, ret := .primitive .boolean }),
      (2, { name := "succeeded", owner := text, ret := .declared "java.util.Map" [] })] }

/-- The parameter for an asynchronous text. -/
def textParam : LambdaParam :=
  ⟨"text", 5, .declared "io.vertx.core.AsyncResult" [.string], true⟩

/-- The body that returns if a method of `text` holds, and otherwise counts its tries. -/
def retrying (method : String) (id : SymbolId) (answer : Ty) : LambdaBody :=
  .block ⟨[.conditional (.parens (.memberCall (.ident "text" 5) method id [] answer))
    (.return none) (some (.ofExpr (.unary .postfixIncrement (.ident "tries" 6))))], {}⟩

/-- An environment in which every result is a success at first, and each statement turns
success into failure and failure into success. -/
def alternating : Environment Bool where
  succeeded _ s := s
  failed _ s := !s
  decides _ s := (some s, s)
  performs _ s := (true, !s)
  goesOn _ _ s := (false, s)
  catches _ s := s

theorem Expr.lower_asyncCallback_retrying :
    ∃ handler t,
      (Expr.lambda [textParam] (retrying "failed" 1 (.primitive .boolean))).lower
        (asking.resolver {}) ({} : Config).context asking.start =
          (.ok (.asyncHandler handler), t) ∧
      handler.isSplit = true ∧
      ∀ n, (Machine.after alternating n (handler.written.start true)).Agrees
        (Machine.after alternating n (handler.body.start true)) := by
  let type : TypeInfo := .parameterized ⟨"io.vertx.core.AsyncResult", .asyncResult⟩ [.string]
  let check : Model.Expr := .parenthesized (.asyncCall "text" .string .failed)
  let step : Model.Stmt := .expr (.unary .postIncrement (.identifier "tries" .variable))
  obtain ⟨handler, lowers, _, isBody, _, agrees, isSplit⟩ :=
    (@Expr.lower_asyncCallback (asking.resolver {}) ({} : Config).context textParam type .string
      rfl rfl rfl rfl rfl (retrying "failed" 1 (.primitive .boolean)) {} asking.start).2
      (.block ⟨[.conditionals [⟨check, .return none⟩] (some step)], []⟩) _ rfl
  refine ⟨handler, _, lowers, ?_, fun n => ?_⟩
  · exact isSplit.2 ⟨check, .return none, some step, [], .string, .failed, rfl, rfl, .inr rfl⟩
  · rw [isBody]
    exact agrees Bool alternating (fun _ _ => rfl) true n

/-- The branches of a test are kept apart even where the check has been given a kind, so
that the condition in its parentheses is not the check itself. -/
theorem retrying_isSplit_typed :
    ∃ handler t,
      (Expr.lambda [textParam] (retrying "succeeded" 2 (.declared "java.util.Map" []))).lower
        (asking.resolver {}) ({} : Config).context asking.start =
          (.ok (.asyncHandler handler), t) ∧
      handler.isSplit = true ∧
      ¬∃ cond branch otherwise fragments type op,
        handler.body = .block ⟨[.conditionals [⟨cond, branch⟩] otherwise], fragments⟩ ∧
        cond.stripParens = .asyncCall handler.name type op ∧ (op = .succeeded ∨ op = .failed) := by
  let check : Model.Expr := .typed (.asyncCall "text" .string .succeeded) .map
  let step : Model.Stmt := .expr (.unary .postIncrement (.identifier "tries" .variable))
  refine ⟨handlerOf "text" _ _ (.block ⟨[.conditionals [⟨.parenthesized check, .return none⟩]
    (some step)], []⟩), _, rfl, rfl, ?_⟩
  rintro ⟨cond, branch, otherwise, fragments, type, op, isBody, isCheck, _⟩
  obtain rfl : .parenthesized check = cond := by
    cases isBody
    rfl
  cases isCheck

end Source

end Polyscript
