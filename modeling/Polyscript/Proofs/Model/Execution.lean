import Mathlib.Logic.Function.Iterate
import Polyscript.Model.Basic

/-!
# Carrying out the model

The model fixes in which order statements take effect and which of them do; what a single
statement does, and what most conditions amount to, is up to the environment. A machine
carries a body out task by task and keeps a record of the statements it has performed.

The checks of an asynchronous result are the only conditions whose meaning is fixed: each
asks the environment about the result of that name, and changes nothing.
-/

namespace Polyscript.Model

/-- The part of a program's meaning that the model leaves open. -/
structure Environment (State : Type) where
  /-- Whether the asynchronous result of a name is a success. -/
  succeeded : String → State → Bool
  /-- Whether the asynchronous result of a name is a failure. -/
  failed : String → State → Bool
  /-- The value of any other condition; none if something is thrown. -/
  decides : Expr → State → Option Bool × State
  /-- Perform a statement that holds no others, and tell whether it came to its end. -/
  performs : Stmt → State → Bool × State
  /-- Whether a loop over numbers or elements has a round after so many others. Its variable
  is bound for that round. -/
  goesOn : Stmt → Nat → State → Bool × State
  /-- Bind the parameter of a handler to what has been thrown. -/
  catches : String → State → State

/-- What remains to be done. -/
inductive Task where
  | stmt (stmt : Stmt)
  /-- Test the condition of a loop. -/
  | test (cond update : Expr) (body : Stmt)
  /-- Begin a round of a loop over numbers or elements. -/
  | round (loop body : Stmt) (count : Nat)
  /-- Handle what is thrown by the tasks before this one. -/
  | handler (param : String) (body : Stmt)

/-- A program being carried out. -/
structure Machine (State : Type) where
  tasks : List Task
  state : State
  /-- The statements that have been performed, the last one first. -/
  performed : List Stmt := []
  /-- Whether something has been thrown that nothing handles. -/
  thrown : Bool := false

/-- Whether each asynchronous result is either a success or a failure. -/
def Environment.Coherent {State : Type} (env : Environment State) : Prop :=
  ∀ name s, env.failed name s = !env.succeeded name s

variable {State : Type}

namespace Environment

variable (env : Environment State)

/-- The value of a condition. Parentheses and kinds mean nothing. -/
def test : Expr → State → Option Bool × State
  | .parenthesized inner, s => test inner s
  | .typed value _, s => test value s
  | .asyncCall name _ .succeeded, s => (some (env.succeeded name s), s)
  | .asyncCall name _ .failed, s => (some (env.failed name s), s)
  | e, s => env.decides e s

theorem test_stripParens (e : Expr) (s : State) : env.test e.stripParens s = env.test e s := by
  induction e using Expr.stripParens.induct with
  | case1 inner ih => rw [Expr.stripParens, ih, test]
  | case2 e notParens =>
    rw [Expr.stripParens]
    exact notParens

theorem test_untyped (e : Expr) (s : State) : env.test e.untyped s = env.test e s := by
  induction e using Expr.untyped.induct with
  | case1 value kind ih => rw [Expr.untyped, ih, test]
  | case2 e notTyped =>
    rw [Expr.untyped]
    exact notTyped

/-- The first statement of a chain whose condition holds; none if a condition throws. -/
def select : List Branch → Option Stmt → State → Option (Option Stmt) × State
  | [], otherwise, s => (some otherwise, s)
  | ⟨cond, body⟩ :: rest, otherwise, s =>
    match env.test cond s with
    | (some true, t) => (some (some body), t)
    | (some false, t) => select rest otherwise t
    | (none, t) => (none, t)

end Environment

namespace Machine

variable (env : Environment State)

/-- Give up the tasks up to the nearest handler. -/
def unwind : List Task → Machine State → Machine State
  | [], m => { m with tasks := [], thrown := true }
  | .handler param body :: rest, m =>
    { m with tasks := .stmt body :: rest, state := env.catches param m.state }
  | _ :: rest, m => unwind rest m

/-- Perform a statement that holds no others. The next tasks follow if it comes to its end,
and it leaves the rest of the tasks otherwise. -/
def perform (stmt : Stmt) (next rest : List Task) (m : Machine State) : Machine State :=
  let (ended, state) := env.performs stmt m.state
  let after := { m with state, performed := stmt :: m.performed }
  if ended then { after with tasks := next } else unwind env rest after

/-- Begin a statement with the tasks that follow it. -/
def begin (m : Machine State) (rest : List Task) : Stmt → Machine State
  | .block block => { m with tasks := block.stmts.map .stmt ++ rest }
  | .conditionals branches otherwise =>
    match env.select branches otherwise m.state with
    | (some chosen, state) => { m with tasks := chosen.toList.map .stmt ++ rest, state }
    | (none, state) => unwind env rest { m with state }
  | .tryCatch body param handler =>
    { m with tasks := .stmt body :: .handler param handler :: rest }
  | .loop init cond update body =>
    { m with tasks := .stmt init :: .test cond update body :: rest }
  | .sequenceFor id start stop body =>
    { m with tasks := .round (.sequenceFor id start stop body) body 0 :: rest }
  | .forEach element type iterable body =>
    { m with tasks := .round (.forEach element type iterable body) body 0 :: rest }
  | .return value => perform env (.return value) [] rest m
  | .throw type reason =>
    -- a throw never comes to its end, whatever evaluating its reason does
    let state := (env.performs (.throw type reason) m.state).2
    unwind env rest { m with state, performed := .throw type reason :: m.performed }
  | simple => perform env simple rest rest m

/-- Do the first task. -/
def step (m : Machine State) : Machine State :=
  match m.tasks with
  | [] => m
  | .stmt stmt :: rest => begin env m rest stmt
  | .test cond update body :: rest =>
    match env.test cond m.state with
    | (some true, state) =>
      { m with
        tasks := .stmt body :: .stmt (.expr update) :: .test cond update body :: rest
        state }
    | (some false, state) => { m with tasks := rest, state }
    | (none, state) => unwind env rest { m with state }
  | .round loop body count :: rest =>
    match env.goesOn loop count m.state with
    | (true, state) =>
      { m with tasks := .stmt body :: .round loop body (count + 1) :: rest, state }
    | (false, state) => { m with tasks := rest, state }
  | .handler .. :: rest => { m with tasks := rest }

/-- The machine after a number of steps. -/
def after (n : Nat) (m : Machine State) : Machine State := (step env)^[n] m

/-- Whether two machines show the same: the statements performed, the state they have
led to, and whether and how they have come to an end. -/
structure Agrees (m m' : Machine State) : Prop where
  performed : m.performed = m'.performed
  state : m.state = m'.state
  thrown : m.thrown = m'.thrown
  ended : m.tasks = [] ↔ m'.tasks = []

variable {env}

theorem Agrees.refl (m : Machine State) : m.Agrees m := ⟨rfl, rfl, rfl, Iff.rfl⟩

/-- Machines that are the same after some steps, and show the same until then, show the same
after any number of steps. -/
theorem agrees_after {m m' : Machine State} {k : Nat}
    (before : ∀ n < k, (after env n m).Agrees (after env n m'))
    (same : after env k m = after env k m') (n : Nat) :
    (after env n m).Agrees (after env n m') := by
  by_cases early : n < k
  · exact before n early
  · obtain ⟨more, rfl⟩ := Nat.exists_eq_add_of_le' (Nat.le_of_not_lt early)
    have split (start : Machine State) :
        after env (more + k) start = after env more (after env k start) :=
      Function.iterate_add_apply _ more k start
    rw [split, split, same]
    exact .refl _

end Machine

/-- The machine that is to carry out the body of a lambda. -/
def LambdaBody.start (body : LambdaBody) (s : State) : Machine State :=
  match body with
  | .expr e => ⟨[.stmt (.expr e)], s, [], false⟩
  | .block lines => ⟨[.stmt (.block lines)], s, [], false⟩

end Polyscript.Model
