import Polyscript.Proofs.Lowering.Parts
import Polyscript.Proofs.Lowering.Reach

/-!
# Methods that are called are there

A compiled unit has every method of the class that it calls or refers to on the enclosing
instance, provided that the method is named in a way that is noted: by its name alone in a call, and
after the keyword in a reference. One such call that is lowered is enough, however the others are
written. The entry method is no method of the unit, so a call of the entry method itself finds none.

## Main statements

* `Lowering.LowersInTurn.notes_of_fits`: what visits note, and the nodes of their models.
* `Source.Program.Run.has_iff_isUsed`: a unit has the helpers whose names have been used.
* `Source.Program.lower_defines_called`: methods that are called are there.
-/

namespace Polyscript

open Model (Use UsesOnly Every)
open Lowering Source

/-- Uses of some sort are all that nodes make if all that is noted is of that sort. -/
instance (p : Use → Prop) : Makes p (Model.Node.UsesOnly p) where
  used _ _ isUse noted _ isOther := Option.some.inj (isUse.symm.trans isOther) ▸ noted
  handler _ _ _ _ _ isUse := nomatch isUse
  stmt _ _ isUse := nomatch isUse
  block _ _ _ isUse := nomatch isUse
  external _ _ isUse := nomatch isUse

section Visits

variable {I : Progress → Prop} {p : Use → Prop} {r : Resolver} {ctx : Context} {s t : Progress}
  {visits : List Visit}

/-- Visits keep an invariant. If all that has been used after them is of some sort, then so is
what had been used before them, and the nodes of their models have what nodes get as they are
made. -/
theorem Lowering.LowersInTurn.notes_of_fits {P : Model.Node → Prop} [MakesInside p P] [Steady r I]
    (inTurn : LowersInTurn r ctx s visits t) (results : ctx.AliasesResults)
    (binds : ∀ visit ∈ visits, visit.decl.2.Binds I)
    (fits : ∀ visit ∈ visits, ∀ node ∈ visit.decl.2.nodes, NodeFits I p P r node) (inv : I s) :
    I t ∧ (t.uses.Only p → s.uses.Only p ∧
      ∀ visit ∈ visits, Every P visit.model.nodes ∧ visit.decl.2.Names visit.model) := by
  induction inTurn with
  | nil s => exact ⟨inv, fun only => ⟨only, List.forall_mem_nil _⟩⟩
  | cons visit first _ ih =>
    obtain ⟨own, later⟩ := List.forall_mem_cons.1 binds
    obtain ⟨here, others⟩ := List.forall_mem_cons.1 fits
    obtain ⟨inv, model⟩ := Declaration.notes_lower_of_fits (P := P) results own here _ _ _ inv first
    obtain ⟨inv, models⟩ := ih later others inv
    refine ⟨inv, fun only => ?_⟩
    obtain ⟨only, models⟩ := models only
    obtain ⟨only, model⟩ := model only
    exact ⟨only, List.forall_mem_cons.2 ⟨model, models⟩⟩

/-- Nothing is asked of a declaration where there is no invariant. -/
theorem Declaration.binds_true (d : Declaration) : d.Binds fun _ => True := by
  cases d with
  | field decl => exact fun _ _ inv => inv
  | method decl => trivial

/-- The models have the names of their declarations. -/
theorem Lowering.LowersInTurn.names (inTurn : LowersInTurn r ctx s visits t)
    (results : ctx.AliasesResults) :
    ∀ visit ∈ visits, visit.decl.2.Names visit.model := by
  have own (node : Source.Node) : NotesOwn (fun _ => True) r node := fun _ _ _ _ _ => trivial
  have only : t.uses.Only fun _ => True := ⟨fun _ _ => trivial, fun _ _ => trivial⟩
  have notes := inTurn.notes_of_fits (P := Model.Node.UsesOnly _) results
    (fun visit _ => visit.decl.2.binds_true) (fun _ _ node _ => (own node).fits) trivial
  intro visit mem
  exact ((notes.2 only).2 visit mem).2

/-- Visits forget nothing. -/
theorem Lowering.LowersInTurn.knownIn (inTurn : LowersInTurn r ctx s visits t) : s.KnownIn t := by
  induction inTurn with
  | nil s => exact .refl s
  | cons visit first _ ih => exact (Declaration.knownIn_lower ctx first).trans ih

/-- A method is used after visits if one of them is to a declaration that notes a call of it. -/
theorem Lowering.LowersInTurn.mem_methods (inTurn : LowersInTurn r ctx s visits t) {visit : Visit}
    (visited : visit ∈ visits) {name : String} (notes : visit.decl.2.NotesCall name) :
    name ∈ t.uses.methods := by
  induction inTurn with
  | nil => cases visited
  | cons first lowers rest ih =>
    rcases List.mem_cons.1 visited with rfl | later
    · exact rest.knownIn.methods (notes.mem_methods ctx lowers)
    · exact ih later

end Visits

theorem Config.aliasesResults_context (config : Config) : config.context.AliasesResults := by
  intro id e found
  cases found

/-- Whether a call or reference of a method of a name on the enclosing instance is noted under
that name: a call writes the method's name alone, and a reference writes it after the
keyword. -/
def Source.Node.NotesCallsOf (program : Program) (name : String) (node : Source.Node) : Prop :=
  ∀ call ∈ node.ownCall?, (program.method? call.2).map (·.name) = some name → call.1 = some name

instance (program : Program) (name : String) (node : Source.Node) :
    Decidable (node.NotesCallsOf program name) :=
  inferInstanceAs (Decidable (∀ call ∈ node.ownCall?, _ → _))

/-- Whether a unit has the model of a declaration. -/
def Model.Unit.Has (unit : Model.Unit) : Declaration → Prop
  | .field decl => ∃ model ∈ unit.fields, model.name = decl.name
  | .method decl => ∃ model ∈ unit.methods, model.signature.name = decl.name

/-- The sort of uses in question: a use of the method of a name only if that method is
there. -/
def Model.Use.Found (unit : Model.Unit) (name : String) : Use → Prop
  | .field _ => True
  | .method called => called = name → ∃ method ∈ unit.methods, method.signature.name = name

theorem Source.Node.NotesCallsOf.notesOwn {r : Resolver} {unit : Model.Unit} {name : String}
    {node : Source.Node} (notes : node.NotesCallsOf r.program name) :
    NotesOwn (Use.Found unit name) r node := by
  rintro ⟨noted, id⟩ isCall method found own rfl
  have isName : noted = some method.name := notes _ isCall (by rw [found]; rfl)
  exact own method.name isName rfl

/-- The nodes of a unit are nodes of a model of a visit or of the entry method. -/
theorem Model.Unit.every_nodes {P : Model.Node → Prop} {ordered : List Visit} (name : String)
    {entry : Model.Block} (visits : ∀ visit ∈ ordered, Every P visit.model.nodes)
    (inEntry : Every P entry.nodes) :
    Every P (Model.Unit.mk name (ordered.filterMap (·.model.field?))
      (ordered.filterMap (·.model.method?)) entry).nodes := by
  refine Model.every_append.2 ⟨?_, Model.every_append.2 ⟨?_, inEntry⟩⟩
  · -- a node of a field is a node of the model of the visit that gave the field
    intro node mem
    obtain ⟨field, isField, mem⟩ := List.mem_flatMap.1 mem
    obtain ⟨⟨_, _, model⟩, visited, isModel⟩ := List.mem_filterMap.1 isField
    cases model with
    | field model =>
      obtain rfl := Option.some.inj isModel
      exact visits _ visited node mem
    | method model => cases isModel
  · intro node mem
    obtain ⟨method, isMethod, mem⟩ := List.mem_flatMap.1 mem
    obtain ⟨⟨_, _, model⟩, visited, isModel⟩ := List.mem_filterMap.1 isMethod
    cases model with
    | field model => cases isModel
    | method model =>
      obtain rfl := Option.some.inj isModel
      exact visits _ visited node mem

/-- A unit has the model of each declaration that was visited. -/
theorem Model.Unit.has_of_visit {ordered : List Visit} (name : String) (entry : Model.Block)
    {visit : Visit} (visited : visit ∈ ordered) (named : visit.decl.2.Names visit.model) :
    (Model.Unit.mk name (ordered.filterMap (·.model.field?))
      (ordered.filterMap (·.model.method?)) entry).Has visit.decl.2 := by
  obtain ⟨⟨place, decl⟩, before, model⟩ := visit
  cases decl with
  | field decl =>
    cases model with
    | field model => exact ⟨model, List.mem_filterMap.2 ⟨_, visited, rfl⟩, named⟩
    | method model => exact absurd named id
  | method decl =>
    cases model with
    | field model => exact absurd named id
    | method model => exact ⟨model, List.mem_filterMap.2 ⟨_, visited, rfl⟩, named⟩

/-- Declarations that give one model its name have the same name. -/
theorem Declaration.Names.sameName {d e : Declaration} {model : Lowered}
    (named : d.Names model) (named' : e.Names model) : d.SameName e := by
  cases model with
  | field model =>
    cases d <;> cases e
    case field.field => exact named.symm.trans named'
    all_goals first | exact absurd named id | exact absurd named' id
  | method model =>
    cases d <;> cases e
    case method.method => exact named.symm.trans named'
    all_goals first | exact absurd named id | exact absurd named' id

/-- A unit made of the models of visits has a declaration only if one of these models has its
name. -/
theorem Model.Unit.exists_visit_of_has {ordered : List Visit} {name : String}
    {entry : Model.Block} {d : Declaration}
    (has : (Model.Unit.mk name (ordered.filterMap (·.model.field?))
      (ordered.filterMap (·.model.method?)) entry).Has d) :
    ∃ visit ∈ ordered, d.Names visit.model := by
  cases d with
  | field decl =>
    obtain ⟨model, among, sameName⟩ := has
    obtain ⟨⟨_, _, given⟩, visited, isModel⟩ := List.mem_filterMap.1 among
    cases given with
    | method given => cases isModel
    | field given =>
      obtain rfl := Option.some.inj isModel
      exact ⟨_, visited, sameName⟩
  | method decl =>
    obtain ⟨model, among, sameName⟩ := has
    obtain ⟨⟨_, _, given⟩, visited, isModel⟩ := List.mem_filterMap.1 among
    cases given with
    | field given => cases isModel
    | method given =>
      obtain rfl := Option.some.inj isModel
      exact ⟨_, visited, sameName⟩

/-- A unit made of the models of a run has a helper exactly if the name of the helper has been used
in the end. -/
theorem Source.Program.Run.has_iff_isUsed {config : Config} {program : Program}
    (run : Run config program) {ordered : List Visit} (reordered : ordered.Perm run.visits)
    (decls : ordered.map (·.decl) = used run.last.uses run.helpers) {d : Placed Declaration}
    (isHelper : d ∈ run.helpers) {name : String} {entry : Model.Block} :
    (Model.Unit.mk name (ordered.filterMap (·.model.field?))
      (ordered.filterMap (·.model.method?)) entry).Has d.2 ↔ d.2.isUsed run.last.uses = true := by
  have named : ∀ visit ∈ ordered, visit.decl.2.Names visit.model := fun visit mem =>
    run.inTurn.names config.aliasesResults_context visit (reordered.mem_iff.1 mem)
  constructor
  · -- names are all that is noted, so a helper is used if one of its name is
    intro has
    obtain ⟨visit, mem, names⟩ := Model.Unit.exists_visit_of_has has
    have isUsed : visit.decl ∈ used run.last.uses run.helpers :=
      decls ▸ List.mem_map_of_mem mem
    rw [(names.sameName (named visit mem)).isUsed_eq]
    exact (List.mem_filter.1 isUsed).2
  · intro isUsed
    have visited : d ∈ ordered.map (·.decl) := decls ▸ List.mem_filter.2 ⟨isHelper, isUsed⟩
    obtain ⟨visit, mem, rfl⟩ := List.mem_map.1 visited
    exact Model.Unit.has_of_visit name entry mem (named visit mem)

/-- The helpers that a unit made of the models of a run has are those that have been visited. -/
theorem Source.Program.Run.exists_visit_iff_has {config : Config} {program : Program}
    (run : Run config program) {ordered : List Visit} (reordered : ordered.Perm run.visits)
    (decls : ordered.map (·.decl) = used run.last.uses run.helpers) {d : Placed Declaration}
    {name : String} {entry : Model.Block} :
    (∃ visit ∈ run.visits, visit.decl = d) ↔ d ∈ run.helpers ∧
      (Model.Unit.mk name (ordered.filterMap (·.model.field?))
        (ordered.filterMap (·.model.method?)) entry).Has d.2 := by
  have among : d ∈ ordered.map (·.decl) ↔ d ∈ run.helpers ∧ d.2.isUsed run.last.uses = true := by
    rw [decls]
    exact List.mem_filter
  constructor
  · rintro ⟨visit, visited, rfl⟩
    obtain ⟨isHelper, isUsed⟩ := among.1 (List.mem_map_of_mem (reordered.mem_iff.2 visited))
    exact ⟨isHelper, (run.has_iff_isUsed reordered decls isHelper).2 isUsed⟩
  · rintro ⟨isHelper, has⟩
    have isUsed := (run.has_iff_isUsed reordered decls isHelper).1 has
    obtain ⟨visit, visited, isDecl⟩ := List.mem_map.1 (among.2 ⟨isHelper, isUsed⟩)
    exact ⟨visit, reordered.mem_iff.1 visited, isDecl⟩

/-- A method has been used in the end of a run if the entry method or a visited declaration notes a
call of it. -/
theorem Source.Program.Run.mem_methods {config : Config} {program : Program}
    (run : Run config program) {d : Declaration}
    (lowered : d = .method run.entryDecl ∨ ∃ visit ∈ run.visits, visit.decl.2 = d)
    {name : String} (notes : d.NotesCall name) : name ∈ run.last.uses.methods := by
  rcases lowered with rfl | ⟨visit, visited, rfl⟩
  · have lowers : (Declaration.method run.entryDecl).lower (program.resolver config)
        config.context program.start = (.ok (.method run.entry), run.afterEntry) :=
      Step.bind_of_ok run.lowersEntry _
    exact run.inTurn.knownIn.methods (notes.mem_methods _ lowers)
  · exact run.inTurn.mem_methods visited notes

section Nodes

variable {config : Config} {program : Program} (run : Source.Program.Run config program)
  {ordered : List Visit}

/-- If all uses that have been noted in the end of a run are of some sort, then the nodes of a unit
made of its models have what nodes get as they are made. The invariant that holds in the end may be
used for that. -/
theorem Source.Program.Run.every_nodes_of_fits {I : Progress → Prop} {p : Use → Prop}
    {P : Model.Node → Prop} [MakesInside p P] [Steady (program.resolver config) I]
    (reordered : ordered.Perm run.visits)
    (inEntry : ∀ node ∈ run.entryDecl.nodes, NodeFits I p P (program.resolver config) node)
    (binds : ∀ visit ∈ run.visits, visit.decl.2.Binds I)
    (inVisits : ∀ visit ∈ run.visits, ∀ node ∈ visit.decl.2.nodes,
      NodeFits I p P (program.resolver config) node)
    (inv : I program.start) (only : I run.last → run.last.uses.Only p) (name : String) :
    Every P (Model.Unit.mk name (ordered.filterMap (·.model.field?))
      (ordered.filterMap (·.model.method?)) run.entry.body).nodes := by
  have results := config.aliasesResults_context
  -- the invariant holds after the entry method and then after every visit
  obtain ⟨inv, entry⟩ :=
    run.entryDecl.notes_lower_of_fits (P := P) results inEntry _ _ _ inv run.lowersEntry
  obtain ⟨inv, models⟩ := run.inTurn.notes_of_fits (P := P) results binds inVisits inv
  obtain ⟨only, models⟩ := models (only inv)
  exact Model.Unit.every_nodes name (fun visit mem => (models visit (reordered.mem_iff.1 mem)).1)
    (entry only).2.1

theorem Source.Program.Run.every_nodes {p : Use → Prop} {P : Model.Node → Prop} [Makes p P]
    (reordered : ordered.Perm run.visits)
    (inEntry : ∀ node ∈ run.entryDecl.nodes, NotesOwn p (program.resolver config) node)
    (inVisits : ∀ visit ∈ run.visits, ∀ node ∈ visit.decl.2.nodes,
      NotesOwn p (program.resolver config) node)
    (only : run.last.uses.Only p) (name : String) :
    Every P (Model.Unit.mk name (ordered.filterMap (·.model.field?))
      (ordered.filterMap (·.model.method?)) run.entry.body).nodes :=
  run.every_nodes_of_fits reordered (fun node mem => (inEntry node mem).fits)
    (fun visit _ => visit.decl.2.binds_true)
    (fun visit visited node mem => (inVisits visit visited node mem).fits) trivial
    (fun _ => only) name

end Nodes

/-- Whether a declaration is compiled into a unit: it is the entry method, or another one that the
unit has. -/
def Source.Program.Compiles (program : Program) (unit : Model.Unit) (entry : Placed MethodDecl)
    (d : Declaration) : Prop :=
  d = .method entry.2 ∨ ∃ place, (place, d) ∈ program.unit.helpers entry.1 ∧ unit.Has d

/-- A method that a unit calls or refers to on the enclosing instance is one of its methods, if the
class declares a method of that name besides the entry method and if, in what is compiled into the
unit, either every call of the method is written in a way that is noted or one call that is noted
under its name is lowered. -/
theorem Source.Program.lower_defines_called {config : Config} {program : Program}
    {unit : Model.Unit} (ok : program.lower config = .ok unit)
    {entry : Placed MethodDecl} (isEntry : program.unit.entry? config.entryMethod = some entry)
    {name : String} (called : ∃ node ∈ unit.nodes, node.use? = some (.method name))
    (declared : ∃ place decl, (place, .method decl) ∈ program.unit.helpers entry.1 ∧
      decl.name = name)
    (noted : (∀ d, program.Compiles unit entry d → ∀ node ∈ d.nodes,
        node.NotesCallsOf program name) ∨
      ∃ d, program.Compiles unit entry d ∧ d.NotesCall name) :
    ∃ method ∈ unit.methods, method.signature.name = name := by
  obtain ⟨run, ordered, reordered, decls, _, isUnit⟩ := exists_run config program ok
  obtain rfl := Option.some.inj (run.isEntry.symm.trans isEntry)
  have has_iff {d : Placed Declaration} (isHelper : d ∈ run.helpers) :
      unit.Has d.2 ↔ d.2.isUsed run.last.uses = true := by
    rw [isUnit]
    exact run.has_iff_isUsed reordered decls isHelper
  have visited_iff (d : Placed Declaration) :
      (∃ visit ∈ run.visits, visit.decl = d) ↔ d ∈ run.helpers ∧ unit.Has d.2 := by
    rw [isUnit]
    exact run.exists_visit_iff_has reordered decls
  -- a method that has been used in the end is a helper, so it has a model
  obtain ⟨place, decl, isHelper, rfl⟩ := declared
  have found (isUsed : decl.name ∈ run.last.uses.methods) :
      ∃ method ∈ unit.methods, method.signature.name = decl.name :=
    (has_iff isHelper).2 (List.contains_iff_mem.2 isUsed)
  rcases noted with all | ⟨d, compiled, notes⟩
  · -- each call in the models has been noted, and a method that has been noted is found
    have only : run.last.uses.Only (Use.Found unit decl.name) :=
      ⟨fun _ _ => trivial, fun called isUsed same => found (same ▸ isUsed)⟩
    have inVisits : ∀ visit ∈ run.visits, ∀ node ∈ visit.decl.2.nodes,
        NotesOwn (Use.Found unit decl.name) (program.resolver config) node := by
      intro visit visited node mem
      obtain ⟨isHelper, has⟩ := (visited_iff _).1 ⟨visit, visited, rfl⟩
      exact (all _ (.inr ⟨_, isHelper, has⟩) node mem).notesOwn
    have uses : UsesOnly (Use.Found unit decl.name) unit.nodes := by
      have nodes := run.every_nodes (P := Model.Node.UsesOnly _) reordered
        (fun node mem => (all _ (.inl rfl) node mem).notesOwn) inVisits only program.unit.name
      rwa [← isUnit] at nodes
    obtain ⟨node, mem, isUse⟩ := called
    exact uses node mem _ isUse rfl
  · -- the call that is lowered is noted, whatever calls there are in the models
    have lowered : d = .method run.entryDecl ∨ ∃ visit ∈ run.visits, visit.decl.2 = d := by
      refine compiled.imp_right ?_
      rintro ⟨place, isHelper, has⟩
      obtain ⟨visit, visited, isDecl⟩ := (visited_iff _).2 ⟨isHelper, has⟩
      exact ⟨visit, visited, congrArg Prod.snd isDecl⟩
    exact found (run.mem_methods lowered notes)

namespace Source.Program

/-- A class whose entry method calls `helper` by its name alone and after the keyword. That method
calls `leaf` by its name alone. -/
def bothSpellings : Program where
  unit := {
    name := "Spellings"
    methods := [
      ⟨"start", [], .void,
        ⟨[.ofExpr (.call (.member (.ident "this" 0) "helper") 2 [] .void),
          .conditional (.literal (.boolean true)) (.ofExpr (.localCall "helper" 2 [] .void)) none],
          {}⟩⟩,
      ⟨"helper", [], .void, ⟨[.ofExpr (.localCall "leaf" 3 [] .void)], {}⟩⟩,
      ⟨"leaf", [], .void, ⟨[.return none], {}⟩⟩] }
  methods := .ofList [
    (2, ⟨"helper", .declared "Spellings" [], [], false, .void⟩),
    (3, ⟨"leaf", .declared "Spellings" [], [], false, .void⟩)]

/-- One call of `helper` is noted, though another one is not, and all calls of `leaf` are. -/
theorem lower_defines_called_bothSpellings :
    ∃ unit, bothSpellings.lower {} = .ok unit ∧
      (∃ node ∈ unit.nodes, node.use? = some (.method "helper")) ∧
      (∃ method ∈ unit.methods, method.signature.name = "helper") ∧
      (∃ node ∈ unit.nodes, node.use? = some (.method "leaf")) ∧
      ∃ method ∈ unit.methods, method.signature.name = "leaf" := by
  have calls : (bothSpellings.lower {}).toOption.map (fun unit =>
      (unit.nodes.any (·.use? = some (.method "helper")),
        unit.nodes.any (·.use? = some (.method "leaf")))) = some (true, true) := by decide +kernel
  obtain ⟨unit, lowers, found⟩ := exists_ok_of_map calls
  obtain ⟨callsHelper, callsLeaf⟩ := Prod.mk.inj found
  have called {name : String} (calls : unit.nodes.any (·.use? = some (.method name)) = true) :
      ∃ node ∈ unit.nodes, node.use? = some (.method name) := by
    obtain ⟨node, mem, isUse⟩ := List.any_eq_true.1 calls
    exact ⟨node, mem, of_decide_eq_true isUse⟩
  have isEntry : bothSpellings.unit.entry? "start" = some (0, _) := rfl
  refine ⟨unit, lowers, called callsHelper, ?_, called callsLeaf, ?_⟩
  · refine lower_defines_called lowers isEntry (called callsHelper) ?_ (.inr ?_)
    · exact ⟨1, _, .head _, rfl⟩
    · -- the noted call stands in a branch of a statement of the entry method
      exact ⟨_, .inl rfl, _, .tail _ (.head _), _,
        .head (.tail _ (.head _)) (.head (.head _) .refl), _, rfl⟩
  · refine lower_defines_called lowers isEntry (called callsLeaf) ?_ (.inl ?_)
    · exact ⟨2, _, .tail _ (.head _), rfl⟩
    · rintro d (rfl | ⟨place, isHelper, -⟩)
      · decide +kernel
      · have notes : ∀ d ∈ bothSpellings.unit.helpers 0, ∀ node ∈ d.2.nodes,
            node.NotesCallsOf bothSpellings "leaf" := by decide +kernel
        exact notes _ isHelper

/-- A class whose entry method calls itself. -/
def selfCalling : Program where
  unit := {
    name := "Loop"
    methods := [⟨"start", [], .void, ⟨[.ofExpr (.localCall "start" 2 [] .void)], {}⟩⟩] }
  methods := .ofList [(2, ⟨"start", .declared "Loop" [], [], false, .void⟩)]

/-- A call of the entry method finds no method in the unit. -/
theorem selfCalling_lacks_start :
    ∃ unit, selfCalling.lower {} = .ok unit ∧
      (∃ node ∈ unit.nodes, node.use? = some (.method "start")) ∧
      (∃ decl ∈ selfCalling.unit.methods, decl.name = "start") ∧
      ¬∃ method ∈ unit.methods, method.signature.name = "start" := by
  have names : (selfCalling.lower {}).toOption.map (fun unit =>
      (unit.nodes.any (·.use? = some (.method "start")),
        unit.methods.any (·.signature.name = "start"))) = some (true, false) := by
    decide +kernel
  cases lowers : selfCalling.lower {} with
  | error cause =>
    rw [lowers] at names
    cases names
  | ok unit =>
    rw [lowers] at names
    obtain ⟨calls, none⟩ := Prod.mk.inj (Option.some.inj names)
    obtain ⟨node, mem, isUse⟩ := List.any_eq_true.1 calls
    refine ⟨unit, rfl, ⟨node, mem, of_decide_eq_true isUse⟩, ⟨_, .head _, rfl⟩, ?_⟩
    rintro ⟨method, isMethod, named⟩
    exact List.any_eq_false.1 none method isMethod (decide_eq_true named)

end Source.Program

end Polyscript
