import Mathlib.Logic.Function.Iterate
import Polyscript.Proofs.Model.Calls

/-!
# Calls of expressions in parentheses

Parentheses pass a call on to what they enclose if that answers calls in its own way, and
parentheses themselves do not. So one pair of parentheses makes no difference to a call, and
with a second pair the call stays a call.

## Main statement

* `Model.Expr.call_enclosed_iff`: how many parentheses a call sees through.
-/

namespace Polyscript.Model.Expr

/-- An expression in a number of parentheses. -/
def enclosed (k : Nat) (e : Expr) : Expr := parenthesized^[k] e

variable {e result : Expr} {site : CallSite}

theorem enclosed_succ (k : Nat) (e : Expr) :
    e.enclosed (k + 1) = .parenthesized (e.enclosed k) :=
  Function.iterate_succ_apply' ..

theorem hasCapabilities_enclosed_succ (k : Nat) (e : Expr) :
    (e.enclosed (k + 1)).hasCapabilities = false := by
  rw [enclosed_succ]
  rfl

/-- A call of an expression in parentheses: one pair of them passes it on. -/
theorem call_enclosed (capable : e.hasCapabilities) (k : Nat) :
    (e.enclosed k).call site =
      if k ≤ 1 then e.call site else .ok (site.invoke (e.enclosed k)) := by
  match k with
  | 0 => rfl
  | 1 => simp [enclosed, call, capable]
  | k + 2 => simp [enclosed_succ (k + 1), call, hasCapabilities_enclosed_succ]

/-- Where an expression answers calls in its own way, a call of it that stays a call is one of
a value with its kind. -/
theorem receiver_of_call {receiver : Expr} {site' : CallSite} (capable : e.hasCapabilities)
    (ok : e.call site = .ok (.invocation receiver site')) :
    ∃ value kind, receiver = .typed value kind := by
  obtain ⟨slots, invented, adds, -, -⟩ := keeps_of_call ok
  cases adds with
  | invokeKinded kinded => exact ⟨_, _, rfl⟩
  | invoke incapable => exact absurd capable (Bool.eq_false_iff.1 incapable)
  | enclosed => cases capable

/-- A call of an expression that answers calls in its own way means the same in one pair of
parentheses, and something else in more than one. -/
theorem call_enclosed_iff (capable : e.hasCapabilities) (site : CallSite) (k : Nat) :
    (e.enclosed k).call site = e.call site ↔ k ≤ 1 := by
  rw [call_enclosed capable]
  split
  next few => exact iff_of_true rfl few
  next many =>
    refine iff_of_false (fun same => ?_) many
    -- what is called in parentheses is not a value with its kind
    obtain ⟨value, kind, isTyped⟩ := receiver_of_call capable same.symm
    obtain ⟨k, rfl⟩ := Nat.exists_eq_add_of_lt (Nat.not_le.1 many)
    rw [enclosed_succ] at isTyped
    cases isTyped

/-- `put("port", 8080)`. -/
def portPut : CallSite where
  receiverType := .cls ⟨"io.vertx.core.json.JsonObject", .jsonObject⟩
  method := ⟨"put", [.string, .primitive .int], false,
    .cls ⟨"io.vertx.core.json.JsonObject", .jsonObject⟩⟩
  returnType := .cls ⟨"io.vertx.core.json.JsonObject", .jsonObject⟩
  args := [.string "port", .literal (.int "8080")]
  argTypes := [some .string, some (.primitive .int)]

theorem call_enclosed_iff_portPut :
    (jsonObject []).hasCapabilities ∧
      (((jsonObject []).enclosed 1).call portPut = (jsonObject []).call portPut ↔ 1 ≤ 1) :=
  ⟨rfl, call_enclosed_iff rfl portPut 1⟩

/-- A value that is put into a new object becomes a member, unless the object stands in two
pairs of parentheses. -/
theorem enclosedTwice_unanswered :
    (jsonObject []).hasCapabilities ∧
      (jsonObject []).call portPut =
        .ok (.jsonObject [.single "port" (.literal (.int "8080"))]) ∧
      ((jsonObject []).enclosed 2).call portPut =
        .ok (.invocation ((jsonObject []).enclosed 2) portPut) ∧
      ((jsonObject []).enclosed 2).call portPut ≠ (jsonObject []).call portPut := by
  have inObject : (jsonObject []).call portPut =
      .ok (.jsonObject [.single "port" (.literal (.int "8080"))]) := rfl
  have inParentheses : ((jsonObject []).enclosed 2).call portPut =
      .ok (.invocation ((jsonObject []).enclosed 2) portPut) := rfl
  refine ⟨rfl, inObject, inParentheses, ?_⟩
  rw [inObject, inParentheses]
  intro same
  cases same

end Polyscript.Model.Expr
