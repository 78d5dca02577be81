import Mathlib.Logic.Function.Basic
import Mathlib.Logic.Function.Iterate
import Polyscript.Compilation
import Polyscript.Proofs.Lowering.Loop

/-!
# Loops over ranges

A loop that counts is written in most targets as a loop over the numbers from one bound to the
other. A loop that counts tests its variable against the bound before each round and steps it
after each. A loop over a range evaluates both bounds once, and goes from one number to the next
whatever its body does to the variable. Whether they are the same is decided by what happens in
the rounds, and not by how the loop is written.

## Main definitions

* `Model.Meaning`: the meaning of the parts of a loop.
* `Model.Meaning.counted`, `Model.Meaning.ranged`: a loop as one that counts and as one over a
  range.
* `Model.Meaning.Undisturbed`: the rounds of a loop keep its variable and its bound in step.

## Main statement

* `Source.Stmt.lower_sequenceFor_keeps_meaning`: where the rounds keep in step, a loop that is
  made one over a range has the same rounds and comes to the same end.
-/

namespace Polyscript

namespace Model

/-- What carrying something out comes to: nothing if it never ends, and otherwise what it gives,
or what it is left by, and the state it leads to. -/
abbrev Outcome (Exit State α : Type) : Type := Option (Except Exit α × State)

/-- The meaning of the parts of a loop. -/
structure Meaning (Number Exit State : Type) where
  less : Number → Number → Bool
  /-- The number after a number. -/
  next : Number → Number
  /-- What a variable of a type holds once it is assigned a number. -/
  hold : TypeInfo → Number → Number
  value : Expr → State → Outcome Exit State Number
  perform : Stmt → State → Outcome Exit State PUnit
  /-- What a variable is bound to. -/
  read : String → State → Number
  bind : String → Number → State → State
  /-- Leave the scope of a variable. -/
  leave : String → State → State
  read_bind : ∀ name i s, read name (bind name i s) = i
  bind_bind : ∀ name i j s, bind name i (bind name j s) = bind name i s
  leave_bind : ∀ name i s, leave name (bind name i s) = leave name s

/-- The parts of a loop that counts. -/
structure CountingLoop where
  id : String
  type : TypeInfo
  start : Expr
  stop : Expr
  body : Stmt

/-- How far a loop has come. -/
inductive Stage (Number Exit State : Type) where
  /-- Its body is about to be performed, for a value of the variable. -/
  | round (i : Number) (s : State)
  /-- It is over, and what it has been left by if its test has not ended it. -/
  | ended (exit : Option Exit) (s : State)
  /-- Something in it never ends. -/
  | endless

namespace Meaning

variable {Number Exit State α : Type} (M : Meaning Number Exit State) (loop : CountingLoop)

/-- Go on in a loop if what is carried out comes to its end. -/
def proceed (outcome : Outcome Exit State α) (next : α → State → Stage Number Exit State) :
    Stage Number Exit State :=
  match outcome with
  | some (.ok a, s) => next a s
  | some (.error exit, s) => .ended (some exit) (M.leave loop.id s)
  | none => .endless

/-- Test the variable of a loop against what its bound is now. -/
def test (s : State) : Stage Number Exit State :=
  M.proceed loop (M.value loop.stop s) fun stop t =>
    if M.less (M.read loop.id s) stop then .round (M.read loop.id t) t
    else .ended none (M.leave loop.id t)

/-- Perform the body of a loop that counts, step its variable, and test it. -/
def countedRound : Stage Number Exit State → Stage Number Exit State
  | .round _ s => M.proceed loop (M.perform loop.body s) fun _ t =>
    M.test loop (M.bind loop.id (M.hold loop.type (M.next (M.read loop.id t))) t)
  | stage => stage

/-- A loop that counts, after a number of rounds. -/
def counted (s : State) (n : Nat) : Stage Number Exit State :=
  (M.countedRound loop)^[n] <| M.proceed loop (M.value loop.start s) fun first t =>
    M.test loop (M.bind loop.id (M.hold loop.type first) t)

/-- Both bounds of a loop, evaluated one after the other. -/
def bounds (s : State) : Outcome Exit State (Number × Number) :=
  match M.value loop.start s with
  | some (.ok first, t) => (M.value loop.stop t).map fun (stop, u) => (stop.map (first, ·), u)
  | some (.error exit, t) => some (.error exit, t)
  | none => none

/-- Come to a number in a loop over a range: there is a round for it unless it reaches the
bound. -/
def enter (stop i : Number) (s : State) : Stage Number Exit State :=
  if M.less i stop then .round i (M.bind loop.id i s) else .ended none (M.leave loop.id s)

/-- Perform the body of a loop over a range, and come to the next number. -/
def rangedRound (stop : Number) : Stage Number Exit State → Stage Number Exit State
  | .round i s => M.proceed loop (M.perform loop.body s) fun _ t => M.enter loop stop (M.next i) t
  | stage => stage

/-- A loop over a range, after a number of rounds. -/
def ranged (s : State) (n : Nat) : Stage Number Exit State :=
  M.proceed loop (M.bounds loop s) fun (first, stop) t =>
    (M.rangedRound loop stop)^[n] (M.enter loop stop first t)

/-- The variable and the bound of a loop keep in step with the range from a state on. -/
structure Undisturbed (s : State) : Prop where
  /-- The variable can hold the first number. -/
  holds_first : ∀ {first t}, M.value loop.start s = some (.ok first, t) →
    M.hold loop.type first = first
  /-- The bound does not depend on the variable. -/
  independent : ∀ {first t}, M.value loop.start s = some (.ok first, t) →
    M.value loop.stop (M.bind loop.id first t) =
      (M.value loop.stop t).map (Prod.map id (M.bind loop.id first))
  /-- When the body has come to its end, the step takes the variable from the number of the
  round to the next one. -/
  steps : ∀ {first stop t n i u v}, M.bounds loop s = some (.ok (first, stop), t) →
    M.ranged loop s n = .round i u → M.perform loop.body u = some (.ok (), v) →
    M.hold loop.type (M.next (M.read loop.id v)) = M.next i
  /-- Evaluating the bound then has no effect, and its value lets the test come out as its
  first value does. -/
  tests : ∀ {first stop t n i u v}, M.bounds loop s = some (.ok (first, stop), t) →
    M.ranged loop s n = .round i u → M.perform loop.body u = some (.ok (), v) →
    ∃ now, M.value loop.stop (M.bind loop.id (M.next i) v) =
        some (.ok now, M.bind loop.id (M.next i) v) ∧
      M.less (M.next i) now = M.less (M.next i) stop

variable {M loop} {s : State}

theorem enter_eq_round {stop i j : Number} {t u : State}
    (begins : M.enter loop stop j t = .round i u) :
    i = j ∧ u = M.bind loop.id i t ∧ M.less i stop := by
  unfold enter at begins
  split at begins
  next isLess =>
    cases begins
    exact ⟨rfl, rfl, isLess⟩
  next => cases begins

/-- A round of a loop over a range follows one whose body has come to its end. -/
theorem rangedRound_eq_round {stop j : Number} {stage : Stage Number Exit State} {v : State}
    (begins : M.rangedRound loop stop stage = .round j v) :
    ∃ i u t, stage = .round i u ∧ M.perform loop.body u = some (.ok (), t) ∧
      M.enter loop stop (M.next i) t = .round j v := by
  cases stage with
  | round i u =>
    rw [rangedRound] at begins
    cases performed : M.perform loop.body u with
    | none =>
      rw [performed] at begins
      cases begins
    | some outcome =>
      obtain ⟨exit | _, t⟩ := outcome
      · rw [performed] at begins
        cases begins
      · rw [performed] at begins
        exact ⟨i, u, t, rfl, performed, begins⟩
  | ended exit s => cases begins
  | endless => cases begins

theorem ranged_of_bounds {first stop : Number} {t : State}
    (evaluated : M.bounds loop s = some (.ok (first, stop), t)) (n : Nat) :
    M.ranged loop s n = (M.rangedRound loop stop)^[n] (M.enter loop stop first t) := by
  rw [ranged, evaluated, proceed]

theorem ranged_succ {first stop : Number} {t : State}
    (evaluated : M.bounds loop s = some (.ok (first, stop), t)) (n : Nat) :
    M.ranged loop s (n + 1) = M.rangedRound loop stop (M.ranged loop s n) := by
  rw [ranged_of_bounds evaluated, ranged_of_bounds evaluated, Function.iterate_succ_apply']

theorem counted_succ (s : State) (n : Nat) :
    M.counted loop s (n + 1) = M.countedRound loop (M.counted loop s n) :=
  Function.iterate_succ_apply' ..

/-- The rounds of a loop over a range are those for the numbers from the first one on. -/
theorem ranged_round {first stop : Number} {t u : State} {n : Nat} {i : Number}
    (evaluated : M.bounds loop s = some (.ok (first, stop), t))
    (begins : M.ranged loop s n = .round i u) :
    i = M.next^[n] first ∧ M.read loop.id u = i ∧ M.less i stop := by
  induction n generalizing i u with
  | zero =>
    rw [ranged_of_bounds evaluated] at begins
    obtain ⟨rfl, rfl, isLess⟩ := enter_eq_round begins
    exact ⟨rfl, M.read_bind .., isLess⟩
  | succ n ih =>
    rw [ranged_succ evaluated] at begins
    obtain ⟨j, v, t, before, -, entered⟩ := rangedRound_eq_round begins
    obtain ⟨rfl, rfl, isLess⟩ := enter_eq_round entered
    obtain ⟨rfl, -, -⟩ := ih before
    exact ⟨(Function.iterate_succ_apply' ..).symm, M.read_bind .., isLess⟩

/-- Where the bound is worth as much as its first value, the test comes out as in the loop over
a range. -/
theorem test_eq_enter {stop now i : Number} {t u : State}
    (evaluated : M.value loop.stop (M.bind loop.id i t) = some (.ok now, M.bind loop.id i u))
    (same : M.less i now = M.less i stop) :
    M.test loop (M.bind loop.id i t) = M.enter loop stop i u := by
  rw [test, evaluated, proceed, M.read_bind, M.read_bind, M.leave_bind, same, enter]

theorem counted_zero (steady : M.Undisturbed loop s) : M.counted loop s 0 = M.ranged loop s 0 := by
  rw [counted, ranged, bounds]
  cases started : M.value loop.start s with
  | none => rfl
  | some outcome =>
    obtain ⟨exit | first, t⟩ := outcome
    · rfl
    -- counting, the bound is evaluated when the variable has been bound, and before that over
    -- the range
    have atFirst := steady.independent started
    simp only [proceed, Function.iterate_zero, id, steady.holds_first started]
    cases stopped : M.value loop.stop t with
    | none => rw [test, atFirst, stopped]; rfl
    | some outcome =>
      obtain ⟨exit | stop, u⟩ := outcome
      · rw [test, atFirst, stopped]
        exact congrArg (Stage.ended (some exit)) (M.leave_bind ..)
      · exact test_eq_enter (by rw [atFirst, stopped]; rfl) rfl

/-- A round of a loop that counts and one of the loop over a range come to the same. -/
theorem countedRound_ranged (steady : M.Undisturbed loop s) (n : Nat) :
    M.countedRound loop (M.ranged loop s n) = M.ranged loop s (n + 1) := by
  cases evaluated : M.bounds loop s with
  | none => simp [ranged, evaluated, proceed, countedRound]
  | some outcome =>
    obtain ⟨exit | ⟨first, stop⟩, t⟩ := outcome
    · simp [ranged, evaluated, proceed, countedRound]
    rw [ranged_succ evaluated]
    -- only where the body comes to its end do the two loops go on differently
    cases begins : M.ranged loop s n with
    | ended exit u => rfl
    | endless => rfl
    | round i u =>
      rw [countedRound, rangedRound]
      cases performed : M.perform loop.body u with
      | none => rfl
      | some outcome =>
        obtain ⟨exit | _, v⟩ := outcome
        · rfl
        · obtain ⟨now, isNow, same⟩ := steady.tests evaluated begins performed
          simp only [proceed, steady.steps evaluated begins performed]
          exact test_eq_enter isNow same

/-- Where the variable and the bound keep in step with the range, a loop that counts comes as far
as the loop over the range, in any number of rounds. -/
theorem counted_eq_ranged (steady : M.Undisturbed loop s) (n : Nat) :
    M.counted loop s n = M.ranged loop s n := by
  induction n with
  | zero => exact counted_zero steady
  | succ n ih => rw [counted_succ, ih, countedRound_ranged steady]

end Meaning

/-- The number of the round that a loop has come to. -/
def Stage.number? {Number Exit State : Type} : Stage Number Exit State → Option Number
  | .round i _ => some i
  | .ended .. | .endless => none

/-- The loop over the range of a loop that counts. -/
def CountingLoop.range (loop : CountingLoop) : Stmt :=
  .sequenceFor loop.id loop.start loop.stop loop.body

end Model

namespace Source

open Lowering

variable {r : Resolver} {ctx : Context}

/-- The parts of a loop that counts have been lowered to the parts of another. -/
structure RangedLoop.LowersTo (loop : RangedLoop) (body : Stmt) (r : Resolver) (ctx : Context)
    (model : Model.CountingLoop) : Prop where
  name : loop.name = model.id
  type : r.resolve loop.ty = .ok model.type
  start : ∃ p q, loop.start.lower r ctx p = (.ok model.start, q)
  stop : ∃ p q, loop.stop.lower r ctx p = (.ok model.stop, q)
  body : ∃ p q, body.lower r ctx p = (.ok model.body, q)

/-- A loop that is made one over a range is one that counts. -/
theorem Stmt.lowersTo_of_sequenceFor {inits updates : List _} {cond : Option Expr} {body : Stmt}
    {span : Span} {p q : Progress} {id : String} {start stop : Model.Expr} {inner : Model.Stmt}
    (lowers : (Stmt.loop inits cond updates body span).lower r ctx p =
      (.ok (.sequenceFor id start stop inner), q)) :
    ∃ init test update loop model, inits = [init] ∧ cond = some test ∧ updates = [update] ∧
      ranged? init test update = some loop ∧ loop.LowersTo body r ctx model ∧
      model.range = .sequenceFor id start stop inner := by
  unfold lower at lowers
  match inits, cond, updates with
  | [init], some test, [update] =>
    rw [lowerWith_loop] at lowers
    split at lowers
    next loop isRanged =>
      obtain ⟨type, _, isType, lowers⟩ := Step.ok_of_bind lowers
      obtain ⟨first, _, isFirst, lowers⟩ := Step.ok_of_bind lowers
      obtain ⟨last, _, isLast, lowers⟩ := Step.ok_of_bind lowers
      obtain ⟨_, _, _, lowers⟩ := Step.ok_of_bind lowers
      obtain ⟨inside, _, isInside, lowers⟩ := Step.ok_of_bind lowers
      exact ⟨init, test, update, loop, ⟨loop.name, type, first, last, inside⟩, rfl, rfl, rfl,
        isRanged, ⟨rfl, (Step.ok_of_lift isType).1, ⟨_, _, isFirst⟩, ⟨_, _, isLast⟩,
        ⟨_, _, isInside⟩⟩, (Step.ok_of_pure lowers).1⟩
    next =>
      obtain ⟨_, _, _, lowers⟩ := Step.ok_of_bind lowers
      obtain ⟨_, _, _, lowers⟩ := Step.ok_of_bind lowers
      obtain ⟨_, _, _, lowers⟩ := Step.ok_of_bind lowers
      obtain ⟨_, _, _, lowers⟩ := Step.ok_of_bind lowers
      cases (Step.ok_of_pure lowers).1
  -- no other loop is lowered
  | [], _, _ | _ :: _ :: _, _, _ | [_], none, [] | [_], none, [_] | [_], none, _ :: _ :: _
  | [_], some _, [] | [_], some _, _ :: _ :: _ => cases lowers

/-- A loop that is made one over a range runs its body for the same values of its variable, one
after the other, and comes to the same end, whatever its parts mean, wherever the rounds keep the
variable and the bound in step with the range. -/
theorem Stmt.lower_sequenceFor_keeps_meaning {inits updates : List _} {cond : Option Expr}
    {body : Stmt} {span : Span} {p q : Progress} {id : String} {start stop : Model.Expr}
    {inner : Model.Stmt}
    (lowers : (Stmt.loop inits cond updates body span).lower r ctx p =
      (.ok (.sequenceFor id start stop inner), q)) :
    ∃ init test update loop model, inits = [init] ∧ cond = some test ∧ updates = [update] ∧
      ranged? init test update = some loop ∧ loop.LowersTo body r ctx model ∧
      model.range = .sequenceFor id start stop inner ∧
      ∀ {Number Exit State : Type} (M : Model.Meaning Number Exit State) (s : State),
        M.Undisturbed model s → ∀ n, M.counted model s n = M.ranged model s n := by
  obtain ⟨init, test, update, loop, model, oneInit, isTest, oneUpdate, isRanged, lowered,
    isRange⟩ := lowersTo_of_sequenceFor lowers
  exact ⟨init, test, update, loop, model, oneInit, isTest, oneUpdate, isRanged, lowered, isRange,
    fun M s steady n => M.counted_eq_ranged steady n⟩

/-- `for (… i = start; i < stop; i++) body`. -/
def Stmt.upTo (ty : Ty) (start stop : Expr) (body : Stmt) : Stmt :=
  .loop [.local { name := "i", sym := 1, ty, init := some start }]
    (some (.binary .lessThan (.ident "i" 1) stop)) [.unary .postfixIncrement (.ident "i" 1)] body

/-- A program with a number `n`. -/
def numbering : Program where
  unit := { name := "demo.App" }
  symbols := .ofList [
    (1, { name := "i", kind := .localVariable, ty := .primitive .int }),
    (2, { name := "n", kind := .localVariable, ty := .primitive .int })]
  methods := .ofList []

end Source

/-- What is left of an integer in a variable. -/
def TypeInfo.wrap : TypeInfo → Int → Int
  | .primitive .byte, i => i.bmod UInt8.size
  | .primitive .int, i => i.bmod UInt32.size
  | _, i => i

namespace Model

/-- The sum of variables and numbers. -/
def Expr.total (s : String → Int) : Expr → Option Int
  | .literal (.int spelling) => some (Nat.ofDigitChars 10 spelling.toList 0)
  | .identifier name _ => some (s name)
  | .binary .add lhs rhs => do return (← lhs.total s) + (← rhs.total s)
  | _ => none

/-- Variables for integers, which are assigned sums. -/
def Meaning.integers : Meaning Int PUnit (String → Int) where
  less i j := decide (i < j)
  next := (· + 1)
  hold := TypeInfo.wrap
  value e s := (e.total s).map fun i => (.ok i, s)
  perform
    | .assign (.identifier name _) value, s =>
      (value.total s).map fun i => (.ok (), Function.update s name i)
    | _, _ => none
  read name s := s name
  bind name i s := Function.update s name i
  leave name s := Function.update s name 0
  read_bind _ _ _ := Function.update_self ..
  bind_bind _ _ _ _ := Function.update_idem ..
  leave_bind _ _ _ := Function.update_idem ..

/-- `for (int i = 0; i < 3; i++) n = n + i;`. -/
def CountingLoop.adding : CountingLoop where
  id := "i"
  type := .primitive .int
  start := .literal (.int "0")
  stop := .literal (.int "3")
  body := .assign (.identifier "n" .variable)
    (.binary .add (.identifier "n" .variable) (.identifier "i" .variable))

theorem Meaning.integers_next_iterate (n : Nat) : integers.next^[n] 0 = n := by
  induction n with
  | zero => rfl
  | succ n ih =>
    rw [Function.iterate_succ_apply', ih]
    rfl

theorem Meaning.integers_start_adding (s : String → Int) :
    integers.value CountingLoop.adding.start s = some (.ok 0, s) :=
  rfl

theorem Meaning.integers_stop_adding (s : String → Int) :
    integers.value CountingLoop.adding.stop s = some (.ok 3, s) :=
  rfl

theorem Meaning.integers_body_adding (s : String → Int) :
    integers.perform CountingLoop.adding.body s =
      some (.ok (), Function.update s "n" (s "n" + s "i")) :=
  rfl

theorem Meaning.integers_bounds_adding (s : String → Int) :
    integers.bounds .adding s = some (.ok (0, 3), s) := by
  rw [bounds, integers_start_adding]
  simp only [integers_stop_adding]
  rfl

/-- The sum leaves its operand as it is, and small numbers can be held. -/
theorem Meaning.undisturbed_adding (s : String → Int) : integers.Undisturbed .adding s where
  holds_first started := by
    cases (integers_start_adding s).symm.trans started
    rfl
  independent started := by
    cases (integers_start_adding s).symm.trans started
    rw [integers_stop_adding, integers_stop_adding]
    rfl
  steps {first stop t n i u v} evaluated begins performed := by
    cases (integers_bounds_adding s).symm.trans evaluated
    obtain ⟨isNth, isBound, isLess⟩ := ranged_round evaluated begins
    cases (integers_body_adding u).symm.trans performed
    have isNat : i = n := isNth.trans (integers_next_iterate n)
    have isSmall : i < 3 := of_decide_eq_true isLess
    have kept : integers.read CountingLoop.adding.id (Function.update u "n" (u "n" + u "i")) = i :=
      isBound
    rw [kept]
    change (i + 1).bmod 4294967296 = i + 1
    exact Int.bmod_eq_of_le (by omega) (by omega)
  tests evaluated _ performed := by
    cases (integers_bounds_adding s).symm.trans evaluated
    exact ⟨3, integers_stop_adding _, rfl⟩

end Model

namespace Source

/-- `for (int i = 0; i < 3; i++) n = n + i;`. -/
def Stmt.adding : Stmt :=
  .upTo (.primitive .int) (.int 0) (.int 3)
    (.expr (.assign (.ident "n" 2) (.binary .plus (.ident "n" 2) (.ident "i" 1))))

theorem Stmt.lower_sequenceFor_keeps_meaning_adding :
    (∃ q, adding.lower (numbering.resolver {}) ({} : Config).context numbering.start =
      (.ok Model.CountingLoop.adding.range, q)) ∧
    Model.Meaning.integers.Undisturbed .adding (fun _ => 0) ∧
    ∀ n, Model.Meaning.integers.counted .adding (fun _ => 0) n =
      Model.Meaning.integers.ranged .adding (fun _ => 0) n := by
  have lowers : adding.lower (numbering.resolver {}) ({} : Config).context numbering.start =
      (.ok Model.CountingLoop.adding.range, _) :=
    rfl
  have steady := Model.Meaning.undisturbed_adding fun _ => 0
  obtain ⟨_, _, _, loop, model, isInit, isTest, isUpdate, isRanged, lowered, isRange, same⟩ :=
    lower_sequenceFor_keeps_meaning lowers
  have isAdding : model = .adding := by
    cases isInit
    cases isTest
    cases isUpdate
    cases isRanged
    obtain ⟨_, type, _, _, _⟩ := model
    cases lowered.type
    cases isRange
    rfl
  exact ⟨⟨_, lowers⟩, steady, isAdding ▸ same Model.Meaning.integers _ (isAdding ▸ steady)⟩

/-- `for (int i = 0; i < 4; i++) i = i + 1;`. -/
def Stmt.climbing : Stmt :=
  .upTo (.primitive .int) (.int 0) (.int 4)
    (.expr (.assign (.ident "i" 1) (.binary .plus (.ident "i" 1) (.int 1))))

/-- `for (int i = 0; i < n; i++) n = 0;`. -/
def Stmt.shrinking : Stmt :=
  .upTo (.primitive .int) (.int 0) (.ident "n" 2) (.expr (.assign (.ident "n" 2) (.int 0)))

/-- `for (byte i = 127; i < 200; i++) n = i;`. -/
def Stmt.overflowing : Stmt :=
  .upTo (.primitive .byte) (.int 127) (.int 200) (.expr (.assign (.ident "n" 2) (.ident "i" 1)))

/-- `for (int i = 0; i < n + i; i++) n = n;`. -/
def Stmt.following : Stmt :=
  .upTo (.primitive .int) (.int 0) (.binary .plus (.ident "n" 2) (.ident "i" 1))
    (.expr (.assign (.ident "n" 2) (.ident "n" 2)))

end Source

namespace Model.CountingLoop

/-- The values of the variable in the second round, counting and over the range, if there is
one. -/
def secondRounds (loop : CountingLoop) (n : Int) : Option Int × Option Int :=
  let s := Function.update (fun _ => 0) "n" n
  ((Meaning.integers.counted loop s 1).number?, (Meaning.integers.ranged loop s 1).number?)

/-- The parts of `Source.Stmt.climbing`. -/
def climbing : CountingLoop where
  id := "i"
  type := .primitive .int
  start := .literal (.int "0")
  stop := .literal (.int "4")
  body := .assign (.identifier "i" .variable)
    (.binary .add (.identifier "i" .variable) (.literal (.int "1")))

/-- The parts of `Source.Stmt.shrinking`. -/
def shrinking : CountingLoop where
  id := "i"
  type := .primitive .int
  start := .literal (.int "0")
  stop := .identifier "n" .variable
  body := .assign (.identifier "n" .variable) (.literal (.int "0"))

/-- The parts of `Source.Stmt.overflowing`. -/
def overflowing : CountingLoop where
  id := "i"
  type := .primitive .byte
  start := .literal (.int "127")
  stop := .literal (.int "200")
  body := .assign (.identifier "n" .variable) (.identifier "i" .variable)

/-- The parts of `Source.Stmt.following`. -/
def following : CountingLoop where
  id := "i"
  type := .primitive .int
  start := .literal (.int "0")
  stop := .binary .add (.identifier "n" .variable) (.identifier "i" .variable)
  body := .assign (.identifier "n" .variable) (.identifier "n" .variable)

end Model.CountingLoop

namespace Source

open Model (CountingLoop)

/-- Where the body changes the variable of a loop or its bound, where the variable cannot hold
every number up to the bound, and where the bound depends on the variable, a loop is made one
over a range and has other rounds. -/
theorem disturbed_loops_differ :
    let lowered (loop : Stmt) :=
      (loop.lower (numbering.resolver {}) ({} : Config).context numbering.start).1
    (lowered .climbing = .ok CountingLoop.climbing.range ∧
      CountingLoop.climbing.secondRounds 0 = (some 2, some 1)) ∧
    (lowered .shrinking = .ok CountingLoop.shrinking.range ∧
      CountingLoop.shrinking.secondRounds 4 = (none, some 1)) ∧
    (lowered .overflowing = .ok CountingLoop.overflowing.range ∧
      CountingLoop.overflowing.secondRounds 0 = (some (-128), some 128)) ∧
    (lowered .following = .ok CountingLoop.following.range ∧
      CountingLoop.following.secondRounds 1 = (some 1, none)) :=
  ⟨⟨rfl, rfl⟩, ⟨rfl, rfl⟩, ⟨rfl, rfl⟩, ⟨rfl, rfl⟩⟩

end Source

end Polyscript
