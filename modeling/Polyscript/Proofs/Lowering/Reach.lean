import Mathlib.Data.List.Nodup
import Mathlib.Data.List.Perm.Basic
import Mathlib.Order.Bounds.Defs
import Polyscript.Proofs.Lowering.Uses
import Polyscript.Record

/-!
# What is reached from the entry method

A compiled unit has the models of those fields and methods that are reached from the
entry method: the least set of declarations that has each one whose name is noted while
the entry method is lowered, and each one whose name is noted while a declaration of the
set is lowered. The rounds of lowering end for every class, however its declarations use
one another.
-/

namespace Polyscript

open Lowering Source

/-- Whether two declarations have one name, being both fields or both methods. -/
def Declaration.SameName : Declaration → Declaration → Prop
  | .field decl, .field other => decl.name = other.name
  | .method decl, .method other => decl.name = other.name
  | _, _ => False

theorem Declaration.SameName.isUsed_eq {d e : Declaration} (same : d.SameName e) (uses : Uses) :
    d.isUsed uses = e.isUsed uses := by
  cases d <;> cases e <;> simp_all [Declaration.SameName, Declaration.isUsed]

namespace Lowering

/-- A declaration with the state in which its lowering began and the model it was given. -/
structure Visit where
  decl : Placed Declaration
  before : Progress
  model : Lowered

/-- The model of a visit in the place of the declaration. -/
def Visit.lowered (visit : Visit) : Placed Lowered := (visit.decl.1, visit.model)

variable (r : Resolver) (ctx : Context)

/-- The uses noted while a declaration was lowered. -/
def Visit.noted (visit : Visit) : Uses := (visit.decl.2.lower r ctx).noted visit.before

/-- Declarations lowered one after the other, from one state to another. -/
inductive LowersInTurn : Progress → List Visit → Progress → Prop
  | nil (s : Progress) : LowersInTurn s [] s
  | cons (visit : Visit) {s t : Progress} {visits : List Visit}
      (first : visit.decl.2.lower r ctx visit.before = (.ok visit.model, s))
      (rest : LowersInTurn s visits t) : LowersInTurn visit.before (visit :: visits) t

variable {r ctx} {s t : Progress} {visits : List Visit}

theorem LowersInTurn.append {u : Progress} {others : List Visit}
    (first : LowersInTurn r ctx s visits t) (rest : LowersInTurn r ctx t others u) :
    LowersInTurn r ctx s (visits ++ others) u := by
  induction first with
  | nil s => exact rest
  | cons visit lowers _ ih => exact .cons visit lowers (ih rest)

/-- What has been used after a number of visits was used before them or in one of them. -/
theorem LowersInTurn.isUsed_iff (inTurn : LowersInTurn r ctx s visits t) (d : Declaration) :
    d.isUsed t.uses = true ↔
      d.isUsed s.uses = true ∨ ∃ visit ∈ visits, d.isUsed (visit.noted r ctx) = true := by
  induction inTurn with
  | nil s => simp
  | cons visit first _ ih =>
    -- a step adds what it notes to what was used before, whatever that was
    have added := (visit.decl.2.framed_lower r ctx).uses_eq visit.before
    rw [first] at added
    rw [ih, added, Declaration.isUsed_union]
    simp [Visit.noted, or_assoc, or_left_comm]

/-- The declarations of a round are lowered in turn. -/
theorem lowersInTurn_of_lowerPlaced {waiting : List (Placed Declaration)}
    {lowered : List (Placed Lowered)} (ok : lowerPlaced r ctx waiting s = (.ok lowered, t)) :
    ∃ visits, LowersInTurn r ctx s visits t ∧ visits.map (·.decl) = waiting ∧
      visits.map Visit.lowered = lowered := by
  induction waiting generalizing s lowered with
  | nil =>
    obtain ⟨rfl, rfl⟩ := Step.ok_of_pure ok
    exact ⟨[], .nil _, rfl, rfl⟩
  | cons placed rest ih =>
    obtain ⟨model, s', first, next⟩ := Step.ok_of_bind ok
    obtain ⟨models, t', others, ends⟩ := Step.ok_of_bind next
    obtain ⟨rfl, rfl⟩ := Step.ok_of_pure ends
    obtain ⟨visits, inTurn, rfl, rfl⟩ := ih others
    exact ⟨⟨placed, s, model⟩ :: visits, .cons ⟨placed, s, model⟩ first inTurn, rfl, rfl⟩

/-- The declarations used in the end are those used at first and those used only later. -/
theorem used_perm {first last : Uses} (waiting : List (Placed Declaration))
    (kept : ∀ d : Declaration, d.isUsed first = true → d.isUsed last = true) :
    (used first waiting ++ used last (unused first waiting)).Perm (used last waiting) := by
  have early : used first waiting = (used last waiting).filter (·.2.isUsed first) := by
    rw [used, used, List.filter_filter]
    refine List.filter_congr fun d _ => ?_
    have := kept d.2
    cases isUsed : d.2.isUsed first <;> simp_all
  have late : used last (unused first waiting) =
      (used last waiting).filter (!·.2.isUsed first) := by
    rw [used, unused, used, List.filter_filter, List.filter_filter]
    exact List.filter_congr fun d _ => Bool.and_comm _ _
  rw [early, late]
  exact List.filter_append_perm _ _

/-- The rounds go on until no waiting declaration has been used. -/
theorem lowerUsed_apply (waiting : List (Placed Declaration)) (s : Progress) :
    lowerUsed r ctx waiting s =
      if (used s.uses waiting).isEmpty then (.ok [], s)
      else (do
        let lowered ← lowerPlaced r ctx (used s.uses waiting)
        return lowered ++ (← lowerUsed r ctx (unused s.uses waiting)) : Step _) s := by
  rw [lowerUsed]
  change (if (used s.uses waiting).isEmpty then _ else _ : Step _) s = _
  split <;> rfl

/-- The rounds visit the waiting declarations that are used in the end, and no set that has
those used at the beginning and is closed under use lacks a visited declaration. -/
theorem lowersInTurn_of_lowerUsed {waiting : List (Placed Declaration)}
    {lowered : List (Placed Lowered)} (ok : lowerUsed r ctx waiting s = (.ok lowered, t)) :
    ∃ visits, LowersInTurn r ctx s visits t ∧ visits.map Visit.lowered = lowered ∧
      (visits.map (·.decl)).Perm (used t.uses waiting) ∧
      ∀ R : Set (Placed Declaration), (∀ d ∈ waiting, d.2.isUsed s.uses = true → d ∈ R) →
        (∀ visit ∈ visits, visit.decl ∈ R →
          ∀ d ∈ waiting, d.2.isUsed (visit.noted r ctx) = true → d ∈ R) →
        ∀ visit ∈ visits, visit.decl ∈ R := by
  -- by induction on the rounds: what waits for the next round is what was not used in this one
  induction waiting using lowerUsed.induct generalizing s lowered with
  | case1 waiting ih =>
    rw [lowerUsed_apply] at ok
    split at ok
    next none_used =>
      obtain ⟨rfl, rfl⟩ := Step.ok_of_pure ok
      rw [List.isEmpty_iff] at none_used
      exact ⟨[], .nil _, rfl, by rw [none_used]; exact .nil, fun _ _ _ => List.forall_mem_nil _⟩
    next some_used =>
      obtain ⟨models, s', round, next⟩ := Step.ok_of_bind ok
      obtain ⟨more, t', rounds, ends⟩ := Step.ok_of_bind next
      obtain ⟨rfl, rfl⟩ := Step.ok_of_pure ends
      obtain ⟨now, inTurn, visited, rfl⟩ := lowersInTurn_of_lowerPlaced round
      obtain ⟨later, inTurnLater, rfl, visitedLater, least⟩ := ih s some_used rounds
      have all := inTurn.append inTurnLater
      refine ⟨now ++ later, all, List.map_append, ?_, fun R first closed => ?_⟩
      · rw [List.map_append, visited]
        refine (visitedLater.append_left _).trans (used_perm waiting fun d isUsed => ?_)
        exact (all.isUsed_iff d).2 (.inl isUsed)
      · -- this round visits only what had been used before it
        have visitedNow : ∀ visit ∈ now, visit.decl ∈ R := by
          intro visit mem
          have isUsed := List.mem_map_of_mem (f := Visit.decl) mem
          rw [visited] at isUsed
          have ⟨waits, isUsed⟩ := List.mem_filter.1 isUsed
          exact first _ waits isUsed
        have waits {d} (mem : d ∈ unused s.uses waiting) : d ∈ waiting := List.mem_of_mem_filter mem
        refine List.forall_mem_append.2 ⟨visitedNow, least R (fun d mem isUsed => ?_) ?_⟩
        · -- for the later rounds, what this round notes counts as used at the beginning
          rcases (inTurn.isUsed_iff d.2).1 isUsed with before | ⟨visit, visitMem, noted⟩
          · exact first d (waits mem) before
          · exact closed visit (List.mem_append_left _ visitMem) (visitedNow visit visitMem) d
              (waits mem) noted
        · intro visit visitMem inR d mem noted
          exact closed visit (List.mem_append_right _ visitMem) inR d (waits mem) noted

/-- The loop of rounds when it is cut off after a number of rounds: it gives nothing if it
has not ended by then. -/
def lowerRounds (r : Resolver) (ctx : Context) :
    Nat → List (Placed Declaration) → Step (Option (List (Placed Lowered)))
  | 0, _ => return none
  | rounds + 1, waiting => do
    let uses := (← Step.progress).uses
    if (used uses waiting).isEmpty then return some []
    else
      let lowered ← lowerPlaced r ctx (used uses waiting)
      return (← lowerRounds r ctx rounds (unused uses waiting)).map (lowered ++ ·)

/-- One round more than there are declarations is enough for the loop to end. -/
theorem lowerRounds_eq {rounds : Nat} {waiting : List (Placed Declaration)}
    (enough : waiting.length < rounds) :
    lowerRounds r ctx rounds waiting = some <$> lowerUsed r ctx waiting := by
  induction rounds generalizing waiting with
  | zero => exact absurd enough (Nat.not_lt_zero _)
  | succ rounds ih =>
    rw [lowerRounds, lowerUsed, map_bind]
    refine bind_congr fun s => ?_
    dsimp only
    split
    · rw [map_pure]
    · next some_used =>
      have fewer := length_unused_lt some_used
      rw [ih (by omega)]
      simp only [map_bind, bind_map_left, map_pure, Option.map_some]

variable {α : Type}

theorem places_placed (decls : List α) :
    (placed decls).map (·.1) = List.range (placed decls).length := by
  simp only [placed, List.map_map, List.length_map, List.length_zipIdx, List.range_eq_range']
  exact List.zipIdx_map_snd 0 decls

/-- What was lowered of the declarations is put in the order of the declarations. -/
theorem inOrder_lowered {declarations : List (Placed Declaration)} {p : Placed Declaration → Bool}
    (places : declarations.map (·.1) = List.range declarations.length)
    {visits ordered : List Visit} (reordered : ordered.Perm visits)
    (visited : ordered.map (·.decl) = declarations.filter p) :
    inOrder declarations.length (visits.map Visit.lowered) = ordered.map (·.model) := by
  -- no place is visited twice, so looking up a place gives the model of its own visit
  have distinct : (declarations.map (·.1)).Nodup := places ▸ List.nodup_range
  have once : ((visits.map Visit.lowered).map (·.1)).Nodup := by
    have perm : (ordered.map (·.decl.1)).Perm (visits.map (·.decl.1)) := reordered.map _
    rw [List.map_map]
    refine perm.nodup_iff.1 ?_
    have sub := (List.filter_sublist (p := p) (l := declarations)).map (·.1)
    rw [← visited, List.map_map] at sub
    exact sub.nodup distinct
  have found : ∀ visit ∈ ordered,
      (visits.map Visit.lowered).lookup visit.decl.1 = some visit.model := fun visit mem =>
    lookup_of_mem once (List.mem_map_of_mem (f := Visit.lowered) (reordered.mem_iff.1 mem))
  have missing : ∀ d ∈ declarations, ¬p d → (visits.map Visit.lowered).lookup d.1 = none := by
    intro d mem notVisited
    refine List.lookup_eq_none_iff.2 (List.forall_mem_map.2 fun visit visitMem => ?_)
    have isVisited : visit.decl ∈ declarations.filter p := by
      rw [← visited]
      exact List.mem_map_of_mem (reordered.mem_iff.2 visitMem)
    refine bne_iff_ne.2 fun same => notVisited ?_
    have declared := List.mem_of_mem_filter isVisited
    rw [List.inj_on_of_nodup_map distinct mem declared same]
    exact (List.mem_filter.1 isVisited).2
  calc inOrder declarations.length (visits.map Visit.lowered)
      = declarations.filterMap fun d => (visits.map Visit.lowered).lookup d.1 := by
        rw [inOrder, ← places, List.filterMap_map]
        rfl
    _ = (declarations.filter p).filterMap fun d => (visits.map Visit.lowered).lookup d.1 := by
        rw [List.filterMap_filter]
        refine List.filterMap_congr fun d mem => ?_
        by_cases isVisited : p d = true
        · rw [if_pos isVisited]
        · rw [if_neg isVisited, missing d mem isVisited]
    _ = ordered.filterMap fun visit => some visit.model := by
        rw [← visited, List.filterMap_map]
        exact List.filterMap_congr found
    _ = ordered.map (·.model) := by
        rw [List.filterMap_eq_map']

end Lowering

namespace Source.Program

/-- A run of the lowering of a program: the entry method first, and then declarations in
turn. -/
structure Run (config : Config) (program : Program) where
  entryPlace : Nat
  entryDecl : MethodDecl
  entry : Model.Method
  visits : List Visit
  afterEntry : Progress
  last : Progress
  isEntry : program.unit.entry? config.entryMethod = some (entryPlace, entryDecl)
  lowersEntry : entryDecl.lower (program.resolver config) config.context program.start =
    (.ok entry, afterEntry)
  inTurn : LowersInTurn (program.resolver config) config.context afterEntry visits last

namespace Run

variable {config : Config} {program : Program} (run : Run config program)

/-- The declarations apart from the entry method. -/
def helpers : List (Placed Declaration) := program.unit.helpers run.entryPlace

/-- The declarations that are lowered in a run. -/
def reached : Set (Placed Declaration) := {d | ∃ visit ∈ run.visits, visit.decl = d}

/-- A set that has the declarations whose names are noted while the entry method is lowered
and those whose names are noted while a declaration of the set is lowered. -/
structure Closed (R : Set (Placed Declaration)) : Prop where
  entry : ∀ d ∈ run.helpers,
    d.2.isUsed ((run.entryDecl.lower (program.resolver config) config.context).noted
      program.start) = true → d ∈ R
  visited : ∀ visit ∈ run.visits, visit.decl ∈ R → ∀ d ∈ run.helpers,
    d.2.isUsed (visit.noted (program.resolver config) config.context) = true → d ∈ R

/-- What a unit has of a run: the declarations lowered are the least closed set, those of
one name are among them together, and the unit has their models in the order of the
declarations, each once. -/
structure Yields (unit : Model.Unit) : Prop where
  least : IsLeast {R | run.Closed R} run.reached
  together : ∀ d ∈ run.helpers, ∀ e ∈ run.helpers, d.2.SameName e.2 →
    (d ∈ run.reached ↔ e ∈ run.reached)
  inOrder : ∃ ordered : List Visit, ordered.Perm run.visits ∧
    (ordered.map (·.decl)).Sublist run.helpers ∧
    (ordered.map (·.decl.1)).Pairwise (· < ·) ∧
    unit = {
      name := program.unit.name
      fields := ordered.filterMap (·.model.field?)
      methods := ordered.filterMap (·.model.method?)
      entry := run.entry.body }

/-- What has been used when the entry method has been lowered is what it notes itself. -/
theorem uses_afterEntry : run.afterEntry.uses =
    (run.entryDecl.lower (program.resolver config) config.context).noted program.start := by
  have start : program.start = { program.start with uses := {} } := rfl
  rw [Step.noted, ← start, run.lowersEntry]

/-- If the declarations lowered are the helpers used in the end, they are a closed set. -/
theorem closed_reached
    (visited : ∀ d, d ∈ run.reached ↔ d ∈ used run.last.uses run.helpers) :
    run.Closed run.reached where
  entry d isHelper noted := by
    rw [← run.uses_afterEntry] at noted
    exact (visited d).2 (List.mem_filter.2
      ⟨isHelper, (run.inTurn.isUsed_iff d.2).2 (.inl noted)⟩)
  visited visit mem _ d isHelper noted :=
    (visited d).2 (List.mem_filter.2
      ⟨isHelper, (run.inTurn.isUsed_iff d.2).2 (.inr ⟨visit, mem, noted⟩)⟩)

end Run

variable (config : Config) (program : Program)

theorem places_helpers (entryPlace : Nat) :
    ((program.unit.helpers entryPlace).map (·.1)).Pairwise (· < ·) := by
  have places : program.unit.declarations.map (·.1) = _ := places_placed _
  have sub := (List.filter_sublist (p := (·.1 ≠ entryPlace)) (l := program.unit.declarations)).map
    (·.1)
  rw [places] at sub
  exact List.pairwise_lt_range.sublist sub

/-- A program whose entry method and whose rounds are lowered is compiled to their models. -/
theorem lower_of_rounds {entryPlace : Nat} {entryDecl : MethodDecl} {entry : Model.Method}
    {lowered : List (Placed Lowered)} {afterEntry last : Progress}
    (isEntry : program.unit.entry? config.entryMethod = some (entryPlace, entryDecl))
    (lowersEntry : entryDecl.lower (program.resolver config) config.context program.start =
      (.ok entry, afterEntry))
    (rounds : lowerUsed (program.resolver config) config.context
      (program.unit.helpers entryPlace) afterEntry = (.ok lowered, last)) :
    program.lower config = .ok {
      name := program.unit.name
      fields := (inOrder program.unit.declarations.length lowered).filterMap Lowered.field?
      methods := (inOrder program.unit.declarations.length lowered).filterMap Lowered.method?
      entry := entry.body } := by
  unfold Program.lower
  simp only [isEntry]
  rw [Step.bind_of_ok lowersEntry, Step.bind_of_ok rounds]
  rfl

/-- A compiled unit comes from a run, whose visits are those of the rounds. It has the models of
the helpers that are used in the end, in the order of the helpers, and a closed set lacks none
of those. -/
theorem exists_run_of_rounds {unit : Model.Unit} (ok : program.lower config = .ok unit) :
    ∃ (run : Run config program) (ordered : List Visit),
      lowerUsed (program.resolver config) config.context run.helpers run.afterEntry =
        (.ok (run.visits.map Visit.lowered), run.last) ∧
      ordered.Perm run.visits ∧
      ordered.map (·.decl) = used run.last.uses run.helpers ∧
      (∀ R, run.Closed R → ∀ visit ∈ run.visits, visit.decl ∈ R) ∧
      inOrder program.unit.declarations.length (run.visits.map Visit.lowered) =
        ordered.map (·.model) ∧
      unit = {
        name := program.unit.name
        fields := ordered.filterMap (·.model.field?)
        methods := ordered.filterMap (·.model.method?)
        entry := run.entry.body } := by
  unfold Program.lower at ok
  dsimp only at ok
  split at ok
  · cases ok
  next entryPlace entryDecl isEntry =>
    obtain ⟨entry, afterEntry, lowersEntry, next⟩ := Step.ok_of_bind (Prod.ext ok rfl)
    obtain ⟨lowered, last, rounds, ends⟩ := Step.ok_of_bind next
    obtain ⟨rfl, _⟩ := Step.ok_of_pure ends
    obtain ⟨visits, inTurn, rfl, visited, least⟩ := lowersInTurn_of_lowerUsed rounds
    let run : Run config program :=
      ⟨entryPlace, entryDecl, entry, visits, afterEntry, last, isEntry, lowersEntry, inTurn⟩
    -- the visits are in the order of the rounds, and the unit has them in that of the class
    obtain ⟨ordered, decls, reordered⟩ : Relation.Comp (· = ·.map Visit.decl) List.Perm
        (used last.uses run.helpers) visits := by
      rw [List.eq_map_comp_perm]
      exact visited.symm
    have models : inOrder program.unit.declarations.length (visits.map Visit.lowered) =
        ordered.map (·.model) := by
      rw [used, Run.helpers, ClassUnit.helpers, List.filter_filter] at decls
      exact inOrder_lowered (places_placed _) reordered decls.symm
    refine ⟨run, ordered, rounds, reordered, decls.symm, fun R closed => ?_, models, ?_⟩
    · refine least R (fun d mem isUsed => ?_) closed.visited
      exact closed.entry d mem (run.uses_afterEntry ▸ isUsed)
    · rw [models, List.filterMap_map, List.filterMap_map]
      rfl

/-- A compiled unit comes from a run. It has the models of the helpers that are used in the
end, in the order of the helpers, and a closed set lacks none of those. -/
theorem exists_run {unit : Model.Unit} (ok : program.lower config = .ok unit) :
    ∃ (run : Run config program) (ordered : List Visit), ordered.Perm run.visits ∧
      ordered.map (·.decl) = used run.last.uses run.helpers ∧
      (∀ R, run.Closed R → ∀ visit ∈ run.visits, visit.decl ∈ R) ∧
      unit = {
        name := program.unit.name
        fields := ordered.filterMap (·.model.field?)
        methods := ordered.filterMap (·.model.method?)
        entry := run.entry.body } := by
  obtain ⟨run, ordered, _, reordered, decls, least, _, isUnit⟩ :=
    exists_run_of_rounds config program ok
  exact ⟨run, ordered, reordered, decls, least, isUnit⟩

/-- The rounds end for every program, and a compiled unit has exactly the models of what is
reached from the entry method. -/
theorem lower_reached :
    (∀ entryPlace, lowerRounds (program.resolver config) config.context
        ((program.unit.helpers entryPlace).length + 1) (program.unit.helpers entryPlace) =
      some <$> lowerUsed (program.resolver config) config.context
        (program.unit.helpers entryPlace)) ∧
    ∀ unit, program.lower config = .ok unit → ∃ run : Run config program, run.Yields unit := by
  refine ⟨fun entryPlace => lowerRounds_eq (Nat.lt_succ_self _), fun unit ok => ?_⟩
  obtain ⟨run, ordered, reordered, decls, least, rfl⟩ := exists_run config program ok
  have mem_reached (d : Placed Declaration) :
      d ∈ run.reached ↔ d ∈ used run.last.uses run.helpers := by
    rw [← decls, (reordered.map (·.decl)).mem_iff, List.mem_map]
    rfl
  have isHelper : (ordered.map (·.decl)).Sublist run.helpers := decls ▸ List.filter_sublist
  refine ⟨run, ⟨run.closed_reached mem_reached, ?_⟩, ?_, ordered, reordered, isHelper, ?_, rfl⟩
  · rintro R closed d ⟨visit, mem, rfl⟩
    exact least R closed visit mem
  · intro d isHelper e isHelper' same
    rw [mem_reached, mem_reached, used, List.mem_filter, List.mem_filter, same.isUsed_eq]
    tauto
  · have places := isHelper.map (·.1)
    rw [List.map_map] at places
    exact (places_helpers program run.entryPlace).sublist places

/-- A class in which `ping` and `pong` call one another, `pong` reads a field whose initial
value calls `ping`, and nothing calls `idle`. -/
def mutualCalls : Program where
  unit := {
    name := "Mutual"
    fields := [⟨"limit", 5, .primitive .int, some (.localCall "ping" 2 [] .void)⟩]
    methods := [
      ⟨"start", [], .void, ⟨[.ofExpr (.localCall "pong" 3 [] .void)], {}⟩⟩,
      ⟨"idle", [], .void, ⟨[], {}⟩⟩,
      ⟨"ping", [], .void, ⟨[.ofExpr (.localCall "pong" 3 [] .void)], {}⟩⟩,
      ⟨"pong", [], .void, ⟨[
        .ofExpr (.localCall "ping" 2 [] .void),
        .ofExpr (.select (.ident "this" 0) "limit" (.primitive .int))], {}⟩⟩] }
  methods := .ofList [
    (2, ⟨"ping", .declared "Mutual" [], [], false, .void⟩),
    (3, ⟨"pong", .declared "Mutual" [], [], false, .void⟩)]

theorem lower_reached_mutualCalls :
    ∃ unit, mutualCalls.lower {} = .ok unit ∧ unit.fields.map (·.name) = ["limit"] ∧
      unit.methods.map (·.signature.name) = ["ping", "pong"] ∧
      ∃ run : Run {} mutualCalls, run.Yields unit := by
  -- only the names are evaluated, so that they can be decided
  have names : ((mutualCalls.lower {}).toOption.map fun unit =>
      (unit.fields.map (·.name), unit.methods.map (·.signature.name))) =
      some (["limit"], ["ping", "pong"]) := by decide +kernel
  cases lowers : mutualCalls.lower {} with
  | error cause =>
    rw [lowers] at names
    cases names
  | ok unit =>
    rw [lowers] at names
    obtain ⟨fields, methods⟩ := Prod.mk.inj (Option.some.inj names)
    exact ⟨unit, rfl, fields, methods, (lower_reached {} mutualCalls).2 unit lowers⟩

end Source.Program

end Polyscript
