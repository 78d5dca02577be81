import Polyscript.Lowering.Scopes

/-!
# Steps of lowering

Lowering a tree binds symbols and takes note of the fields and methods of the class
that the tree uses. A step that fails keeps what it has done up to that point, so a
step gives a result or a cause and, in either case, a state.
-/

namespace Polyscript

/-- The fields and methods of the class that have been used, by name. -/
structure Uses where
  fields : List String := []
  methods : List String := []

/-- The state of lowering: the bound symbols, the uses, and the symbols looked up in
the program's table, the latest first. -/
structure Progress where
  scopes : Scopes
  uses : Uses := {}
  lookedUp : List SymbolId := []

/-- A step of lowering. -/
def Step (α : Type) : Type := Progress → Except Unsupported α × Progress

namespace Step

variable {α β : Type}

/-- The step that gives a result and does nothing. -/
protected def pure (a : α) : Step α := fun s => (.ok a, s)

/-- The step that fails. -/
def fail (cause : Unsupported) : Step α := fun s => (.error cause, s)

/-- One step and then another, unless the first one fails. -/
protected def bind (step : Step α) (next : α → Step β) : Step β := fun s =>
  match step s with
  | (.ok a, s) => next a s
  | (.error cause, s) => (.error cause, s)

instance : Monad Step where
  pure := Step.pure
  bind := Step.bind

theorem pure_apply (a : α) (s : Progress) : (pure a : Step α) s = (.ok a, s) := rfl

theorem bind_of_ok {step : Step α} {s s' : Progress} {a : α} (ok : step s = (.ok a, s'))
    (next : α → Step β) : (step >>= next) s = next a s' := by
  change Step.bind step next s = _
  simp [Step.bind, ok]

/-- A failed step ends what follows it and keeps its state. -/
theorem bind_of_error {step : Step α} {s s' : Progress} {cause : Unsupported}
    (failed : step s = (.error cause, s')) (next : α → Step β) :
    (step >>= next) s = (.error cause, s') := by
  change Step.bind step next s = _
  simp [Step.bind, failed]

/-- Steps that give a result have each given one. -/
theorem ok_of_bind {step : Step α} {next : α → Step β} {s t : Progress} {b : β}
    (ok : (step >>= next) s = (.ok b, t)) :
    ∃ a s', step s = (.ok a, s') ∧ next a s' = (.ok b, t) := by
  cases outcome : step s with
  | mk result s' =>
    cases result with
    | ok a =>
      rw [bind_of_ok outcome] at ok
      exact ⟨a, s', rfl, ok⟩
    | error cause =>
      rw [bind_of_error outcome] at ok
      cases ok

theorem ok_of_pure {a b : α} {s t : Progress} (ok : (pure a : Step α) s = (.ok b, t)) :
    a = b ∧ s = t := by
  cases ok
  exact ⟨rfl, rfl⟩

instance : LawfulMonad Step :=
  LawfulMonad.mk' Step
    (fun step => by
      funext s
      change Step.bind step (fun a => Step.pure a) s = step s
      unfold Step.bind Step.pure
      split <;> simp_all)
    (fun _ _ => rfl)
    (fun step next last => by
      funext s
      change Step.bind (Step.bind step next) last s =
        Step.bind step (fun a => Step.bind (next a) last) s
      unfold Step.bind
      cases h : step s with
      | mk result s' => cases result <;> rfl)

/-- The step of a computation without a state. -/
def lift (result : Except Unsupported α) : Step α := fun s => (result, s)

instance : MonadLift (Except Unsupported) Step := ⟨lift⟩

theorem ok_of_lift {result : Except Unsupported α} {a : α} {s t : Progress}
    (ok : lift result s = (.ok a, t)) : result = .ok a ∧ s = t := by
  cases ok
  exact ⟨rfl, rfl⟩

/-- The state. -/
def progress : Step Progress := fun s => (.ok s, s)

/-- Change the state. -/
def update (f : Progress → Progress) : Step Unit := fun s => (.ok (), f s)

/-- Bind a symbol. -/
def declare (id : SymbolId) (scope : Model.Scope) (type : TypeInfo) : Step Unit :=
  update fun s => { s with scopes := s.scopes.declare id scope type }

/-- Take note of a use of a field. -/
def useField (name : String) : Step Unit :=
  update fun s => { s with uses := { s.uses with fields := s.uses.fields.insert name } }

/-- Take note of a use of a method. -/
def useMethod (name : String) : Step Unit :=
  update fun s => { s with uses := { s.uses with methods := s.uses.methods.insert name } }

/-- Take note of a symbol being looked up. -/
def noteLookup (id : SymbolId) : Step Unit :=
  update fun s => { s with lookedUp := id :: s.lookedUp }

end Step

end Polyscript
