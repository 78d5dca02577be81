import Polyscript.Proofs.Lowering.Memo
import Polyscript.Proofs.Lowering.Supported

/-!
# Declarations without influence

A field or a helper method that is not reached has no influence on what a program is compiled
to, whatever it contains: the program without it is compiled to the same unit. The two runs of
lowering go side by side. They can come apart only at a name that one class declares as a field
and the other does not; there the run with the declaration notes a use of it, and then the
declaration is reached.

## Main definitions

* `Source.Program.without`: a program without the declaration at a place.
* `Step.Mirrors`: a step does what another one does unless that one uses a declaration.

## Main statements

* `Source.Program.lower_without`: removing what is not reached changes nothing.
-/

namespace Polyscript

open Lowering Source

/-! ### Steps side by side -/

/-- The states of a lowering and of one for another class: the same bindings and uses, each
with the fields of its own class. -/
structure Progress.SameNotes (r : Resolver) (unit : ClassUnit) (s t : Progress) : Prop where
  uses : s.uses = t.uses
  bindings : s.scopes.bindings = t.scopes.bindings
  fields : s.scopes.fields = (Scopes.ofUnit r.program.unit).fields
  otherFields : t.scopes.fields = (Scopes.ofUnit unit).fields

/-- A step that does, for another class, what a step does that gives a result without using a
declaration. What has been used stays used. -/
def Step.Mirrors (r : Resolver) (unit : ClassUnit) (d : Declaration) {α : Type}
    (x y : Step α) : Prop :=
  ∀ s a s', x s = (.ok a, s') →
    (d.isUsed s.uses = true → d.isUsed s'.uses = true) ∧
      (¬d.isUsed s'.uses = true → ∀ t, s.SameNotes r unit t →
        ∃ t', y t = (.ok a, t') ∧ s'.SameNotes r unit t')

/-- A class that declares the fields of the program's class, but for one whose every use is a
use of a declaration. -/
def Lowering.DiffersBy (r : Resolver) (unit : ClassUnit) (d : Declaration) : Prop :=
  ∀ name, hasField (r.withUnit unit) name = hasField r name ∨
    hasField r name = true ∧ ∀ uses : Uses, name ∈ uses.fields → d.isUsed uses = true

theorem Declaration.isUsed_insert_field {d : Declaration} {uses : Uses} (name : String)
    (isUsed : d.isUsed uses = true) :
    d.isUsed { uses with fields := uses.fields.insert name } = true := by
  cases d with
  | field decl =>
    exact List.contains_iff_mem.2 (List.mem_insert_of_mem (List.contains_iff_mem.1 isUsed))
  | method decl => exact isUsed

theorem Declaration.isUsed_insert_method {d : Declaration} {uses : Uses} (name : String)
    (isUsed : d.isUsed uses = true) :
    d.isUsed { uses with methods := uses.methods.insert name } = true := by
  cases d with
  | field decl => exact isUsed
  | method decl =>
    exact List.contains_iff_mem.2 (List.mem_insert_of_mem (List.contains_iff_mem.1 isUsed))

namespace Step

variable {r : Resolver} {unit : ClassUnit} {d : Declaration} {α β : Type}

theorem Mirrors.bind {x y : Step α} {f g : α → Step β} (first : x.Mirrors r unit d y)
    (next : ∀ a, (f a).Mirrors r unit d (g a)) : (x >>= f).Mirrors r unit d (y >>= g) := by
  intro s b s' ok
  obtain ⟨a, between, left, right⟩ := ok_of_bind ok
  obtain ⟨kept, same⟩ := first s a between left
  obtain ⟨keptToo, sameToo⟩ := next a between b s' right
  refine ⟨fun isUsed => keptToo (kept isUsed), fun unused t notes => ?_⟩
  -- what is not used in the end has not been used in between either
  obtain ⟨t', there, notes⟩ := same (fun isUsed => unused (keptToo isUsed)) t notes
  rw [bind_of_ok there]
  exact sameToo unused t' notes

/-- A step that uses the declaration whenever it gives a result is mirrored by any step. -/
theorem Mirrors.of_used {x : Step α} (uses : ∀ s a s', x s = (.ok a, s') → d.isUsed s'.uses = true)
    (y : Step α) : x.Mirrors r unit d y :=
  fun s a s' ok => ⟨fun _ => uses s a s' ok, fun unused => absurd (uses s a s' ok) unused⟩

/-- Steps may ask for the state if what they make of it on either side is mirrored. -/
theorem Mirrors.progress {f g : Progress → Step α}
    (mirrored : ∀ s, ∃ y, (f s).Mirrors r unit d y)
    (next : ∀ s t, s.SameNotes r unit t → (f s).Mirrors r unit d (g t)) :
    (Step.progress >>= f).Mirrors r unit d (Step.progress >>= g) := by
  intro s a s' ok
  obtain ⟨_, some⟩ := mirrored s
  exact ⟨(some s a s' ok).1, fun unused t same => (next s t same s a s' ok).2 unused t same⟩

/-- The same change of bindings or uses on both sides. -/
theorem mirrors_update {f : Progress → Progress}
    (kept : ∀ s, d.isUsed s.uses = true → d.isUsed (f s).uses = true)
    (notes : ∀ s t, s.SameNotes r unit t → (f s).SameNotes r unit (f t)) :
    (update f).Mirrors r unit d (update f) := by
  intro s a s' ok
  cases ok
  exact ⟨kept s, fun _ t same => ⟨f t, rfl, notes s t same⟩⟩

theorem mirrors_declare (id : SymbolId) (scope : Model.Scope) (type : TypeInfo) :
    (declare id scope type).Mirrors r unit d (declare id scope type) :=
  mirrors_update (fun _ isUsed => isUsed) fun _ _ same =>
    ⟨same.uses, congrArg (_ :: ·) same.bindings, same.fields, same.otherFields⟩

theorem mirrors_useField (name : String) :
    (useField name).Mirrors r unit d (useField name) :=
  mirrors_update (fun _ isUsed => d.isUsed_insert_field name isUsed) fun _ _ same =>
    ⟨by simp only [same.uses], same.bindings, same.fields, same.otherFields⟩

variable (r unit d) in
/-- Steps put together from mirrored ones are mirrored. -/
theorem mirrors_congruence : Step.Congruence fun x y => x.Mirrors r unit d y where
  pure _ := by
    intro s a s' ok
    obtain ⟨rfl, rfl⟩ := ok_of_pure ok
    exact ⟨fun isUsed => isUsed, fun _ t same => ⟨t, rfl, same⟩⟩
  fail _ := by
    intro s a s' ok
    cases ok
  bind := Mirrors.bind
  useMethod name := mirrors_update (fun _ isUsed => d.isUsed_insert_method name isUsed)
    fun _ _ same => ⟨by simp only [same.uses], same.bindings, same.fields, same.otherFields⟩
  noteLookup _ := mirrors_update (fun _ isUsed => isUsed) fun _ _ same =>
    ⟨same.uses, same.bindings, same.fields, same.otherFields⟩

end Step

open Step

/-! ### Trees -/

/-- A variable of field scope is noted. -/
theorem Lowering.mem_uses_of_variableOf {name : String} {type : TypeInfo} {e : Model.Expr}
    {s t : Progress} (ok : variableOf name .field type s = (.ok e, t)) : name ∈ t.uses.fields := by
  obtain ⟨_, between, noted, ends⟩ := ok_of_bind ok
  cases noted
  obtain ⟨_, rfl⟩ := Prod.mk.inj ends
  exact List.mem_insert_self

/-- Binding a name as a variable of a scope and a type, if there are such. -/
theorem Lowering.mirrors_bindVariable {r : Resolver} {unit : ClassUnit} {d : Declaration}
    (name : String) (id : SymbolId) (scope : Except Unsupported Model.Scope)
    (type : Except Unsupported TypeInfo) :
    let step : Step Model.Expr := do
      let scope ← scope
      let type ← type
      Step.declare id scope type
      variableOf name scope type
    step.Mirrors r unit d step := by
  have congr := mirrors_congruence r unit d
  exact congr.lift_bind fun scope _ => congr.lift_bind fun type _ =>
    congr.bind (mirrors_declare id scope type) fun _ =>
      congr.variableOf (fun _ => mirrors_useField name) type

section Trees

variable {r : Resolver} {unit : ClassUnit} {d : Declaration} (differs : DiffersBy r unit d)
include differs

/-- A symbol has the same scope in both classes unless it is a field in one of them whose uses
are uses of the declaration. -/
theorem Lowering.DiffersBy.classify (symbol : Symbol) :
    (Scopes.ofUnit unit).classify symbol = (Scopes.ofUnit r.program.unit).classify symbol ∨
      (Scopes.ofUnit r.program.unit).classify symbol = .ok .field ∧
        ∀ uses : Uses, symbol.name ∈ uses.fields → d.isUsed uses = true := by
  rcases differs symbol.name with same | ⟨declared, used⟩
  · left
    have same : (Scopes.ofUnit unit).fields.contains symbol.name =
        (Scopes.ofUnit r.program.unit).fields.contains symbol.name := by
      rw [Scopes.contains_fields, Scopes.contains_fields]
      exact same
    unfold Scopes.classify
    rw [same]
  · by_cases isField : symbol.kind = .field
    · right
      refine ⟨?_, used⟩
      have declared : (Scopes.ofUnit r.program.unit).fields.contains symbol.name = true := by
        rw [Scopes.contains_fields]
        exact declared
      rw [Scopes.classify, isField]
      exact congrArg Except.ok (if_pos declared)
    · left
      unfold Scopes.classify
      split
      case h_4 kind => exact absurd kind isField
      all_goals rfl

theorem Lowering.mirrors_ownField (name : String) (type : TypeInfo) {x y : Step Model.Expr}
    (otherwise : x.Mirrors r unit d y) :
    (ownField r name type x).Mirrors r unit d (ownField (r.withUnit unit) name type y) := by
  rcases differs name with same | ⟨declared, used⟩
  · unfold ownField
    rw [same]
    exact (mirrors_congruence r unit d).ownField (r := r) (mirrors_useField name) type otherwise
  · refine Mirrors.of_used (fun s e t ok => used _ ?_) _
    rw [ownField, if_pos declared] at ok
    exact mem_uses_of_variableOf ok

/-- Looking up a name that is the name of its symbol is mirrored. -/
theorem Lowering.mirrors_unbound {name : String} {id : SymbolId}
    (named : ∀ symbol ∈ r.program.symbol? id, symbol.name = name) :
    (unbound r name id).Mirrors r unit d (unbound (r.withUnit unit) name id) := by
  have congr := mirrors_congruence r unit d
  unfold unbound
  simp only [lookUp_withUnit, Resolver.resolve_withUnit]
  unfold lookUp
  rw [bind_assoc, bind_assoc]
  refine congr.bind (congr.noteLookup id) fun _ => ?_
  cases found : r.program.symbol? id with
  | none => exact congr.fail _
  | some symbol =>
    obtain rfl := named symbol found
    rw [pure_bind, pure_bind]
    split
    · split
      · exact congr.pure _
      · exact congr.fail _
    · refine Mirrors.progress (fun s => ⟨_, mirrors_bindVariable symbol.name id _ _⟩)
        fun s t same => ?_
      rw [Scopes.classify_congr same.fields, Scopes.classify_congr same.otherFields]
      rcases differs.classify symbol with agree | ⟨isField, used⟩
      · rw [agree]
        exact mirrors_bindVariable symbol.name id _ _
      · -- the name is bound as a field, so what follows notes it
        rw [isField]
        refine Mirrors.of_used (fun s e t ok => used _ ?_) _
        obtain ⟨scope, _, isScope, next⟩ := ok_of_bind ok
        obtain ⟨type, _, _, next⟩ := ok_of_bind next
        obtain ⟨_, _, _, last⟩ := ok_of_bind next
        cases isScope
        exact mem_uses_of_variableOf last

/-- A name that is the name of its symbol is mirrored. -/
theorem Lowering.mirrors_identifier {name : String} {id : SymbolId}
    (named : name ≠ "this" → ∀ symbol ∈ r.program.symbol? id, symbol.name = name)
    (ctx : Context) :
    (identifier r ctx name id).Mirrors r unit d (identifier (r.withUnit unit) ctx name id) := by
  have congr := mirrors_congruence r unit d
  unfold identifier
  split
  · exact congr.pure _
  next notThis =>
    split
    · exact congr.pure _
    refine Mirrors.progress (fun s => ?_) fun s t same => ?_
    · cases s.scopes.lookup id with
      | some binding => exact ⟨_, congr.variableOf (fun _ => mirrors_useField name) binding.type⟩
      | none => exact ⟨_, mirrors_unbound differs (named notThis)⟩
    · rw [Scopes.lookup, Scopes.lookup, ← same.bindings]
      cases s.scopes.bindings.lookup id with
      | some binding => exact congr.variableOf (fun _ => mirrors_useField name) binding.type
      | none => exact mirrors_unbound differs (named notThis)

theorem Lowering.fits_mirrors {node : Source.Node} (named : node.IsNamed r.program) :
    Fits (fun x y => x.Mirrors r unit d y) (identifier r) (identifier (r.withUnit unit)) r unit
      node where
  name isName ctx := by
    rw [isName] at named
    exact mirrors_identifier differs named.symbol ctx
  own _ _ _ _ otherwise := mirrors_ownField differs _ _ otherwise
  binder _ _ _ := mirrors_declare _ _ _

theorem Source.MethodDecl.mirrors_lower {decl : MethodDecl} (ctx : Context)
    (named : ∀ node ∈ decl.nodes, node.IsNamed r.program) :
    (decl.lower r ctx).Mirrors r unit d (decl.lower (r.withUnit unit) ctx) :=
  decl.lowerWith_congr (mirrors_congruence r unit d) ctx (fun _ _ _ _ => mirrors_declare _ _ _)
    fun node mem => fits_mirrors differs (named node mem)

/-- A declaration in which names are the names of their symbols is mirrored. -/
theorem Declaration.mirrors_lower {e : Declaration} (ctx : Context)
    (named : ∀ node ∈ e.nodes, node.IsNamed r.program) :
    (e.lower r ctx).Mirrors r unit d (e.lower (r.withUnit unit) ctx) := by
  have congr := mirrors_congruence r unit d
  cases e with
  | field decl =>
    refine congr.bind (decl.lowerWith_congr congr ctx (fun _ => mirrors_declare _ _ _) ?_)
      fun _ => congr.pure _
    exact fun node mem => fits_mirrors differs (named node mem)
  | method decl => exact congr.bind (decl.mirrors_lower differs ctx named) fun _ => congr.pure _

end Trees

/-! ### Places -/

namespace Lowering

variable {α : Type}

/-- The place that is left to a declaration when the one at a place is gone. -/
def closeGap (gap place : Nat) : Nat := if place < gap then place else place - 1

/-- Things with their places, without the one at a place. -/
def withoutPlace (gap : Nat) (things : List (Placed α)) : List (Placed α) :=
  (things.filter (·.1 ≠ gap)).map (Prod.map (closeGap gap) id)

theorem closeGap_inj {gap place other : Nat} (h : place ≠ gap) (h' : other ≠ gap) :
    closeGap gap place = closeGap gap other ↔ place = other := by
  unfold closeGap
  split <;> split <;> omega

@[simp] theorem withoutPlace_nil (gap : Nat) : withoutPlace gap ([] : List (Placed α)) = [] := rfl

theorem withoutPlace_append (gap : Nat) (things others : List (Placed α)) :
    withoutPlace gap (things ++ others) = withoutPlace gap things ++ withoutPlace gap others := by
  rw [withoutPlace, List.filter_append, List.map_append]
  rfl

theorem withoutPlace_cons {gap place : Nat} (h : place ≠ gap) (thing : α)
    (rest : List (Placed α)) :
    withoutPlace gap ((place, thing) :: rest) =
      (closeGap gap place, thing) :: withoutPlace gap rest := by
  rw [withoutPlace, List.filter_cons_of_pos (by simpa using h)]
  rfl

theorem withoutPlace_filter (gap : Nat) (p : α → Bool) (things : List (Placed α)) :
    (withoutPlace gap things).filter (p ·.2) = withoutPlace gap (things.filter (p ·.2)) := by
  rw [withoutPlace, withoutPlace, List.filter_map, List.filter_filter, List.filter_filter]
  simp only [Function.comp_def, Prod.map_snd, id_eq, Bool.and_comm]

private theorem zipIdx_eraseIdx (things : List α) (gap start : Nat) :
    (things.eraseIdx gap).zipIdx start = ((things.zipIdx start).filter (·.2 ≠ start + gap)).map
      (Prod.map id (closeGap (start + gap))) := by
  induction things generalizing gap start with
  | nil => rfl
  | cons thing rest ih =>
    cases gap with
    | zero =>
      -- the first thing goes, and all later ones move up by one place
      have later (x : α × Nat) (mem : x ∈ rest.zipIdx (start + 1)) : start + 1 ≤ x.2 :=
        List.le_snd_of_mem_zipIdx mem
      have all : (rest.zipIdx (start + 1)).filter (·.2 ≠ start) = rest.zipIdx (start + 1) :=
        List.filter_eq_self.2 fun x mem => by simpa using Nat.ne_of_gt (later x mem)
      rw [List.zipIdx_cons, Nat.add_zero, List.filter_cons_of_neg (by simp), all,
        List.zipIdx_succ, List.map_map, List.eraseIdx_cons_zero]
      refine (List.map_id _).symm.trans (List.map_congr_left fun x mem => ?_)
      have notBefore := List.le_snd_of_mem_zipIdx mem
      simp only [Function.comp_apply, Prod.map, closeGap, id_eq]
      rw [if_neg (by omega), Nat.add_sub_cancel]
    | succ gap =>
      rw [List.eraseIdx_cons_succ, List.zipIdx_cons, List.zipIdx_cons, ih,
        List.filter_cons_of_pos (by simp), List.map_cons, Nat.add_assoc, Nat.add_comm 1 gap]
      simp [closeGap]

theorem isEmpty_withoutPlace {gap : Nat} {things : List (Placed α)}
    (others : ∀ x ∈ things, x.1 ≠ gap) :
    (withoutPlace gap things).isEmpty = things.isEmpty := by
  have all : things.filter (·.1 ≠ gap) = things :=
    List.filter_eq_self.2 fun x mem => by simpa using others x mem
  rw [withoutPlace, List.isEmpty_map, all]

/-- Things without one of them have the places that are left to them. -/
theorem placed_eraseIdx (things : List α) (gap : Nat) :
    placed (things.eraseIdx gap) = withoutPlace gap (placed things) := by
  rw [placed, zipIdx_eraseIdx, placed, withoutPlace, List.filter_map, List.map_map, List.map_map,
    Nat.zero_add]
  rfl

theorem range_withoutPlace (things : List α) (gap : Nat) :
    List.range (withoutPlace gap (placed things)).length =
      ((List.range (placed things).length).filter (· ≠ gap)).map (closeGap gap) := by
  rw [← placed_eraseIdx, ← places_placed, placed_eraseIdx, ← places_placed, withoutPlace,
    List.filter_map, List.map_map, List.map_map]
  rfl

theorem lookup_withoutPlace {gap place : Nat} (h : place ≠ gap) (things : List (Placed α)) :
    (withoutPlace gap things).lookup (closeGap gap place) = things.lookup place := by
  induction things with
  | nil => rfl
  | cons thing rest ih =>
    obtain ⟨other, thing⟩ := thing
    by_cases isGap : other = gap
    · subst isGap
      have gone : withoutPlace other ((other, thing) :: rest) = withoutPlace other rest := by
        rw [withoutPlace, List.filter_cons_of_neg (by simp)]
        rfl
      rw [gone, ih, List.lookup_cons, beq_false_of_ne h]
    · have same : (closeGap gap place == closeGap gap other) = (place == other) := by
        rw [Bool.eq_iff_iff, beq_iff_eq, beq_iff_eq, closeGap_inj h isGap]
      rw [withoutPlace_cons isGap, List.lookup_cons, List.lookup_cons, same, ih]

/-- What was lowered is in the same order when a place is gone at which nothing was lowered. -/
theorem inOrder_withoutPlace (things : List α) {gap : Nat} {lowered : List (Placed Lowered)}
    (nothing : ∀ x ∈ lowered, x.1 ≠ gap) :
    inOrder (withoutPlace gap (placed things)).length (withoutPlace gap lowered) =
      inOrder (placed things).length lowered := by
  rw [inOrder, inOrder, range_withoutPlace, List.filterMap_map, List.filterMap_filter]
  refine List.filterMap_congr fun place _ => ?_
  by_cases isGap : place = gap
  · have none : lowered.lookup place = none :=
      List.lookup_eq_none_iff.2 fun x mem => bne_iff_ne.2 fun same =>
        nothing x mem (same.symm.trans isGap)
    rw [if_neg (by simpa using isGap), none]
  · rw [if_pos (by simpa using isGap), Function.comp_apply, lookup_withoutPlace isGap]

end Lowering

/-! ### Rounds -/

section Rounds

variable {r : Resolver} {unit : ClassUnit} {d : Declaration} (differs : DiffersBy r unit d)
  (ctx : Context) {gap : Nat}
include differs

/-- Declarations at other places are mirrored in the places that are left to them. -/
theorem Lowering.mirrors_lowerPlaced {decls : List (Placed Declaration)}
    (others : ∀ e ∈ decls, e.1 ≠ gap)
    (named : ∀ e ∈ decls, ∀ node ∈ e.2.nodes, node.IsNamed r.program) :
    (withoutPlace gap <$> lowerPlaced r ctx decls).Mirrors r unit d
      (lowerPlaced (r.withUnit unit) ctx (withoutPlace gap decls)) := by
  have congr := mirrors_congruence r unit d
  induction decls with
  | nil =>
    rw [lowerPlaced, map_pure]
    exact congr.pure []
  | cons placed rest ih =>
    obtain ⟨place, decl⟩ := placed
    obtain ⟨other, others⟩ := List.forall_mem_cons.1 others
    obtain ⟨here, later⟩ := List.forall_mem_cons.1 named
    rw [withoutPlace_cons other, lowerPlaced, lowerPlaced, map_bind]
    simp only [map_bind, map_pure, withoutPlace_cons other]
    refine congr.bind (Declaration.mirrors_lower differs ctx here) fun model => ?_
    simpa only [bind_map_left] using congr.bind (ih others later) fun models =>
      congr.pure ((closeGap gap place, model) :: models)

/-- The rounds go on side by side as long as the declaration is not used. -/
theorem Lowering.mirrors_lowerUsed {waiting : List (Placed Declaration)}
    (only : ∀ e ∈ waiting, e.1 = gap → e.2 = d)
    (named : ∀ e ∈ waiting, ∀ node ∈ e.2.nodes, node.IsNamed r.program) :
    (withoutPlace gap <$> lowerUsed r ctx waiting).Mirrors r unit d
      (lowerUsed (r.withUnit unit) ctx (withoutPlace gap waiting)) := by
  have congr := mirrors_congruence r unit d
  -- by induction on the rounds: what waits for the next round is what was not used in this one
  induction waiting using lowerUsed.induct with
  | case1 waiting ih =>
    intro s models s' ok
    obtain ⟨lowered, last, rounds, ends⟩ := ok_of_bind ok
    obtain ⟨rfl, isLast⟩ := ok_of_pure ends
    rw [isLast] at rounds
    have kept : d.isUsed s.uses = true → d.isUsed s'.uses = true := by
      obtain ⟨visits, inTurn, _⟩ := lowersInTurn_of_lowerUsed rounds
      exact fun isUsed => (inTurn.isUsed_iff d).2 (.inl isUsed)
    refine ⟨kept, fun unused_d t same => ?_⟩
    have others : ∀ e ∈ used s.uses waiting, e.1 ≠ gap := fun e mem isGap =>
      unused_d (kept (only e (List.mem_of_mem_filter mem) isGap ▸ (List.mem_filter.1 mem).2))
    have waits {e} (mem : e ∈ unused s.uses waiting) : e ∈ waiting := List.mem_of_mem_filter mem
    have nowUsed : used t.uses (withoutPlace gap waiting) =
        withoutPlace gap (used s.uses waiting) := by
      rw [← same.uses]
      exact withoutPlace_filter gap _ waiting
    have stillUnused : unused t.uses (withoutPlace gap waiting) =
        withoutPlace gap (unused s.uses waiting) := by
      rw [← same.uses]
      exact withoutPlace_filter gap (fun e => !e.isUsed s.uses) waiting
    rw [lowerUsed_apply, nowUsed, stillUnused, isEmpty_withoutPlace others]
    rw [lowerUsed_apply] at rounds
    split at rounds
    next none_used =>
      obtain ⟨rfl, rfl⟩ := ok_of_pure rounds
      rw [if_pos none_used]
      exact ⟨t, rfl, same⟩
    next some_used =>
      rw [if_neg some_used]
      have round := congr.bind
        (mirrors_lowerPlaced differs ctx others fun e mem =>
          named e (List.mem_of_mem_filter mem))
        fun models => congr.bind
          (ih s some_used (fun e mem => only e (waits mem)) fun e mem => named e (waits mem))
          fun more => congr.pure (models ++ more)
      refine (round s _ s' ?_).2 unused_d t same
      obtain ⟨models, _, first, next⟩ := ok_of_bind rounds
      obtain ⟨more, _, rest, ends⟩ := ok_of_bind next
      obtain ⟨rfl, rfl⟩ := ok_of_pure ends
      rw [withoutPlace_append, bind_map_left, bind_of_ok first, bind_map_left, bind_of_ok rest]
      rfl

end Rounds

/-! ### Programs -/

namespace Source

/-- A class without the declaration at a place. -/
def ClassUnit.without (unit : ClassUnit) (place : Nat) : ClassUnit :=
  { unit with
    fields := unit.fields.eraseIdx place
    methods :=
      if place < unit.fields.length then unit.methods
      else unit.methods.eraseIdx (place - unit.fields.length) }

/-- A program without the declaration at a place. -/
def Program.without (program : Program) (place : Nat) : Program :=
  { program with unit := program.unit.without place }

namespace ClassUnit

variable (unit : ClassUnit) (gap : Nat)

theorem declarations_without :
    (unit.without gap).declarations = withoutPlace gap unit.declarations := by
  rw [declarations, declarations, ← placed_eraseIdx, without]
  by_cases isField : gap < unit.fields.length
  · rw [List.eraseIdx_append_of_lt_length (by simpa using isField), List.eraseIdx_map,
      if_pos isField]
  · rw [List.eraseIdx_append_of_length_le (by simpa using isField), List.eraseIdx_map,
      List.eraseIdx_of_length_le (Nat.le_of_not_lt isField), if_neg isField, List.length_map]

theorem helpers_without {entryPlace : Nat} (other : entryPlace ≠ gap) :
    (unit.without gap).helpers (closeGap gap entryPlace) =
      withoutPlace gap (unit.helpers entryPlace) := by
  rw [helpers, declarations_without, helpers, withoutPlace, withoutPlace, List.filter_map,
    List.filter_filter, List.filter_filter]
  congr 1
  refine List.filter_congr fun d _ => ?_
  by_cases isGap : d.1 = gap
  · simp [isGap]
  · simp [isGap, closeGap_inj isGap other]

variable {unit gap}

theorem entry?_without {name : String} {entryPlace : Nat} {entry : MethodDecl}
    (isEntry : unit.entry? name = some (entryPlace, entry)) (other : entryPlace ≠ gap) :
    ClassUnit.entry? (unit.without gap) name = some (closeGap gap entryPlace, entry) := by
  obtain ⟨before, ⟨place, d⟩, after, split, found, first⟩ := List.findSome?_eq_some_iff.1 isEntry
  cases d with
  | field decl => cases found
  | method decl =>
    obtain ⟨isNamed, same⟩ := Option.ite_none_right_eq_some.1 found
    obtain ⟨rfl, rfl⟩ := Prod.mk.inj (Option.some.inj same)
    have none : (withoutPlace gap before).findSome? (Lowering.entry? name) = none := by
      rw [withoutPlace, List.findSome?_map, List.findSome?_eq_none_iff]
      intro d mem
      have notEntry := first d (List.mem_of_mem_filter mem)
      obtain ⟨place, d⟩ := d
      cases d with
      | field decl => rfl
      | method decl =>
        have notNamed : decl.name ≠ name := fun named => by
          rw [Lowering.entry?, if_pos named] at notEntry
          cases notEntry
        exact if_neg notNamed
    rw [ClassUnit.entry?, declarations_without, split, withoutPlace_append, withoutPlace_cons other,
      List.findSome?_append, none, List.findSome?_cons, Lowering.entry?, if_pos isNamed]
    rfl

/-- The class without a declaration has its other fields. -/
theorem differsBy_without {r : Resolver} {d : Placed Declaration}
    (declared : d ∈ r.program.unit.declarations) :
    DiffersBy r (r.program.unit.without d.1) d.2 := by
  rw [declarations, placed, List.mem_map] at declared
  obtain ⟨⟨d, place⟩, isPlaced, rfl⟩ := declared
  dsimp only
  rw [List.mk_mem_zipIdx_iff_getElem?, List.getElem?_append, List.length_map] at isPlaced
  intro name
  split at isPlaced
  next isField =>
    rw [List.getElem?_map] at isPlaced
    obtain ⟨decl, found, rfl⟩ := Option.map_eq_some_iff.1 isPlaced
    by_cases isName : decl.name = name
    · refine .inr ⟨List.any_eq_true.2 ⟨decl, List.mem_of_getElem? found, by simpa using isName⟩, ?_⟩
      exact fun uses mem => List.contains_iff_mem.2 (isName ▸ mem)
    · left
      rw [Bool.eq_iff_iff, hasField, hasField, List.any_eq_true, List.any_eq_true]
      constructor
      · rintro ⟨other, mem, named⟩
        exact ⟨other, List.mem_of_mem_eraseIdx mem, named⟩
      · rintro ⟨other, mem, named⟩
        refine ⟨other, ?_, named⟩
        obtain ⟨i, isOther⟩ := List.mem_iff_getElem?.1 mem
        refine List.mem_eraseIdx_iff_getElem?.2 ⟨i, ?_, isOther⟩
        rintro rfl
        obtain rfl := Option.some.inj (found.symm.trans isOther)
        exact isName (by simpa using named)
  next notField =>
    left
    change (r.program.unit.fields.eraseIdx place).any _ = r.program.unit.fields.any _
    rw [List.eraseIdx_of_length_le (Nat.le_of_not_lt notField)]

end ClassUnit

theorem Program.start_sameNotes (config : Config) (program : Program) (unit : ClassUnit) :
    program.start.SameNotes (program.resolver config) unit
      { program with unit : Program }.start where
  uses := rfl
  bindings := rfl
  fields := rfl
  otherFields := rfl

/-- A field or a helper method that a compiled program does not have can be removed from its
class, whatever it contains: the program is compiled to the same unit. -/
theorem Program.lower_without {config : Config} {program : Program} {unit : Model.Unit}
    (ok : program.lower config = .ok unit)
    (named : ∀ node ∈ program.unit.nodes, node.IsNamed program)
    {entryPlace : Nat} {entry : MethodDecl}
    (isEntry : program.unit.entry? config.entryMethod = some (entryPlace, entry))
    {d : Placed Declaration} (isHelper : d ∈ program.unit.helpers entryPlace)
    (notThere : ¬unit.Has d.2) : (program.without d.1).lower config = .ok unit := by
  obtain ⟨run, ordered, rounds, reordered, decls, _, models, isUnit⟩ :=
    exists_run_of_rounds config program ok
  obtain ⟨rfl, rfl⟩ := Prod.mk.inj (Option.some.inj (run.isEntry.symm.trans isEntry))
  have notUsed : ¬d.2.isUsed run.last.uses = true := fun isUsed =>
    notThere (isUnit ▸ (run.has_iff_isUsed reordered decls isHelper).2 isUsed)
  have places := (places_helpers program run.entryPlace).nodup
  have only : ∀ e ∈ run.helpers, e.1 = d.1 → e.2 = d.2 := fun e mem same =>
    congrArg Prod.snd (List.inj_on_of_nodup_map places mem isHelper same)
  have nothing : ∀ x ∈ run.visits.map Visit.lowered, x.1 ≠ d.1 := by
    intro x mem same
    obtain ⟨visit, visited, rfl⟩ := List.mem_map.1 mem
    have isUsed : visit.decl ∈ used run.last.uses run.helpers :=
      decls ▸ List.mem_map_of_mem (reordered.mem_iff.2 visited)
    have ⟨isHelper, isUsed⟩ := List.mem_filter.1 isUsed
    exact notUsed (only _ isHelper same ▸ isUsed)
  have differs := ClassUnit.differsBy_without (r := program.resolver config)
    (List.mem_of_mem_filter isHelper)
  have other : run.entryPlace ≠ d.1 := fun same => by
    simpa [same] using (List.mem_filter.1 isHelper).2
  -- the entry method, and then the rounds, are lowered alike without the declaration
  obtain ⟨afterEntry, lowersEntry, same⟩ := (run.entryDecl.mirrors_lower differs config.context
    (fun node mem => named node (ClassUnit.mem_nodes_of_mem_declarations
      (ClassUnit.entry_mem_declarations run.isEntry) mem)) _ _ _ run.lowersEntry).2
    (fun isUsed => notUsed ((run.inTurn.isUsed_iff d.2).2 (.inl isUsed))) _
    (program.start_sameNotes config _)
  obtain ⟨last, rounds, _⟩ := (mirrors_lowerUsed differs config.context only
    (fun e mem node isNode => named node (ClassUnit.mem_nodes_of_mem_declarations
      (List.mem_of_mem_filter mem) isNode)) _ _ _ (bind_of_ok rounds _)).2 notUsed _ same
  have lowers := lower_of_rounds config (program.without d.1)
    (ClassUnit.entry?_without run.isEntry other) lowersEntry
    (by rw [← rounds]; congr 1; exact ClassUnit.helpers_without _ _ other)
  have models : inOrder (program.without d.1).unit.declarations.length
      (withoutPlace d.1 (run.visits.map Visit.lowered)) = ordered.map (·.model) := by
    rw [← models, Program.without, ClassUnit.declarations_without]
    exact inOrder_withoutPlace _ nothing
  rw [lowers, models, isUnit, List.filterMap_map, List.filterMap_map]
  rfl

namespace Program

/-- A class that uses a field and a helper. Of what it does not use, a field begins with a
variable that nothing declares, and a method has a loop that is not supported. -/
def sheltered : Program where
  unit := {
    name := "Sheltered"
    fields := [
      ⟨"limit", 5, .primitive .int, none⟩,
      ⟨"broken", 6, .primitive .int, some (.ident "nowhere" 99)⟩]
    methods := [
      ⟨"start", [], .void, ⟨[.ofExpr (.localCall "visit" 2 [] .void)], {}⟩⟩,
      ⟨"visit", [], .void, ⟨[.ofExpr (.ident "limit" 5)], {}⟩⟩,
      ⟨"spin", [], .void, ⟨[.whileLoop (.ident "broken" 6) .break], {}⟩⟩] }
  symbols := .ofList [
    (5, { name := "limit", kind := .field, ty := .primitive .int }),
    (6, { name := "broken", kind := .field, ty := .primitive .int })]
  methods := .ofList [(2, ⟨"visit", .declared "Sheltered" [], [], false, .void⟩)]

theorem lower_without_sheltered :
    ∃ unit, sheltered.lower {} = .ok unit ∧ unit.fields.map (·.name) = ["limit"] ∧
      unit.methods.map (·.signature.name) = ["visit"] ∧
      (sheltered.without 1).lower {} = .ok unit ∧ (sheltered.without 4).lower {} = .ok unit := by
  have named : ∀ node ∈ sheltered.unit.nodes, node.IsNamed sheltered := by decide +kernel
  have names : ((sheltered.lower {}).toOption.map fun unit =>
      (unit.fields.map (·.name), unit.methods.map (·.signature.name))) =
      some (["limit"], ["visit"]) := by decide +kernel
  obtain ⟨unit, lowers, found⟩ := exists_ok_of_map names
  obtain ⟨fields, methods⟩ := Prod.mk.inj found
  refine ⟨unit, lowers, fields, methods, ?_, ?_⟩
  · refine lower_without lowers named rfl (.tail _ (.head _)) ?_
    rintro ⟨field, isField, named⟩
    have isName : field.name ∈ ["limit"] := fields ▸ List.mem_map_of_mem isField
    rw [named] at isName
    exact absurd isName (by decide)
  · refine lower_without lowers named rfl (.tail _ (.tail _ (.tail _ (.head _)))) ?_
    rintro ⟨method, isMethod, named⟩
    have isName : method.signature.name ∈ ["visit"] := methods ▸ List.mem_map_of_mem isMethod
    rw [named] at isName
    exact absurd isName (by decide)

end Program

end Source

end Polyscript
