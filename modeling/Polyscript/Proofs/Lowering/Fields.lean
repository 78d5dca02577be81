import Polyscript.Proofs.Lowering.Supported

/-!
# Fields are told apart from other variables

A symbol that is bound has the scope that its name gives to it: a field if the class declares one
of that name, and a variable from outside the class if it does not. So a compiled unit has every
field that it uses, and no variable from outside the class has the name of a field. This takes
trees in which names are the names of their symbols, and fields that are entered in the tables.

## Main definitions

* `Resolver.TellsScope`: a scope that a symbol can have by the name that the tables have for it.
* `Progress.TellsFields`: the invariant of states that carries the result.

## Main statements

* `Source.Program.lower_has_fields`: fields are there, and variables from outside are no fields.
-/

namespace Polyscript

open Model (Use Every)
open Lowering Source

/-- The tables have the symbol of a field, under the field's name. -/
def Source.FieldDecl.IsEntered (program : Program) (decl : FieldDecl) : Prop :=
  ∃ symbol ∈ program.symbol? decl.sym, symbol.kind = .field ∧ symbol.name = decl.name

instance (program : Program) (decl : FieldDecl) : Decidable (decl.IsEntered program) :=
  inferInstanceAs (Decidable (∃ symbol ∈ program.symbol? decl.sym, _))

/-- A scope that a symbol can have: if it is a field or a variable from outside the class, then
the tables have the symbol, and it is a field if the class declares one of its name. -/
def Resolver.TellsScope (r : Resolver) (id : SymbolId) (scope : Model.Scope) : Prop :=
  scope = .field ∨ scope = .global →
    ∃ symbol, r.program.symbol? id = some symbol ∧ (scope = .field ↔ hasField r symbol.name = true)

/-- A state in which fields that have been used are declared and bound symbols have a scope that
they can have. -/
structure Progress.TellsFields (r : Resolver) (s : Progress) : Prop where
  fields : s.scopes.fields = (Scopes.ofUnit r.program.unit).fields
  used : ∀ name ∈ s.uses.fields, hasField r name = true
  bound : ∀ id binding, s.scopes.lookup id = some binding → r.TellsScope id binding.scope

theorem Lowering.hasField_iff {r : Resolver} {name : String} :
    hasField r name = true ↔ ∃ decl ∈ r.program.unit.fields, decl.name = name := by
  simp only [hasField, List.any_eq_true, beq_iff_eq]

/-- Looking a symbol up gives it a scope that it can have. -/
theorem Resolver.tellsScope_of_classify {r : Resolver} {scopes : Scopes} {id : SymbolId}
    {symbol : Symbol} {scope : Model.Scope} (found : r.program.symbol? id = some symbol)
    (fields : scopes.fields = (Scopes.ofUnit r.program.unit).fields)
    (classified : scopes.classify symbol = .ok scope) : r.TellsScope id scope := by
  intro told
  refine ⟨symbol, found, ?_⟩
  unfold Scopes.classify at classified
  rw [fields, Scopes.contains_fields] at classified
  split at classified
  case h_4 =>
    obtain rfl := Except.ok.inj classified
    change _ ↔ (r.program.unit.fields.any _) = true
    split <;> simp_all
  all_goals
    cases classified
    try rcases told with isField | isGlobal <;> contradiction

namespace Progress.TellsFields

variable {r : Resolver} {s : Progress}

theorem declare (tells : s.TellsFields r) {id : SymbolId} {scope : Model.Scope}
    (type : TypeInfo) (told : r.TellsScope id scope) :
    Progress.TellsFields r { s with scopes := s.scopes.declare id scope type } where
  fields := tells.fields
  used := tells.used
  bound other binding isBound := by
    rw [Scopes.lookup_declare] at isBound
    split at isBound
    next same =>
      obtain rfl := Option.some.inj isBound
      exact same ▸ told
    next => exact tells.bound other binding isBound

instance : Steady r (Progress.TellsFields r) where
  noteLookup _ tells := ⟨tells.fields, tells.used, tells.bound⟩
  declare _ _ type isLocal tells := tells.declare type fun told => by
    rcases isLocal with rfl | rfl <;> rcases told with told | told <;> cases told
  useField declared tells := ⟨tells.fields, fun name mem => by
    rcases List.mem_insert_iff.1 mem with rfl | mem
    · exact declared
    · exact tells.used name mem, tells.bound⟩
  useMethod _ tells := ⟨tells.fields, tells.used, tells.bound⟩

end Progress.TellsFields

/-! ### Nodes -/

/-- A use of a field only if a unit has the field. -/
def Model.Use.HasField (unit : Model.Unit) : Use → Prop
  | .field name => ∃ field ∈ unit.fields, field.name = name
  | .method _ => True

/-- A node that is a variable of field scope only if a unit has the field, and one from outside
the class only if the class declares no field of its name. -/
def Model.Node.TellsFields (unit : Model.Unit) (cls : ClassUnit) : Node → Prop
  | .expr (.identifier name .field) => ∃ field ∈ unit.fields, field.name = name
  | .expr (.identifier name .global) => ¬∃ decl ∈ cls.fields, decl.name = name
  | _ => True

instance (unit : Model.Unit) (cls : ClassUnit) :
    MakesInside (Use.HasField unit) (Model.Node.TellsFields unit cls) where
  admits e isMade := by
    cases e with
    | identifier name scope =>
      cases scope with
      | field | global => cases isMade
      | _ => trivial
    | _ => trivial
  grown grows _ := by cases grows <;> trivial
  used node use isUse noted := by
    cases node with
    | expr e =>
      cases e with
      | identifier name scope =>
        cases scope with
        | field =>
          obtain rfl := Option.some.inj isUse
          exact noted
        | _ => cases isUse
      | _ => trivial
    | _ => trivial
  handler _ _ _ _ := trivial
  stmt _ := trivial
  block _ _ := trivial

/-- A name that is the name of its symbol has a scope that tells whether it is a field. -/
theorem Lowering.nameFits_of_named {r : Resolver} {unit : Model.Unit} {name : String}
    {id : SymbolId} (named : ∀ symbol ∈ r.program.symbol? id, symbol.name = name) :
    NameFits (Progress.TellsFields r) (Model.Node.TellsFields unit r.program.unit) r name id := by
  have fits {scope : Model.Scope} (tells : r.TellsScope id scope) :
      Scoped (Progress.TellsFields r) (Model.Node.TellsFields unit r.program.unit) name scope := by
    refine ⟨fun isField s inv => ?_, fun isGlobal => ?_⟩
    · obtain ⟨symbol, found, told⟩ := tells (.inl isField)
      exact Steady.useField (named symbol found ▸ told.1 isField) inv
    · obtain ⟨symbol, found, told⟩ := tells (.inr isGlobal)
      obtain rfl := named symbol found
      rw [isGlobal] at told
      intro declared
      cases told.2 (hasField_iff.2 declared)
  exact ⟨fun inv isBound => fits (inv.bound _ _ isBound), fun inv isFound classified =>
    have tells := Resolver.tellsScope_of_classify isFound inv.fields classified
    ⟨fits tells, fun type _ inv => inv.declare type tells⟩⟩

theorem Lowering.nodeFits_of_isNamed {r : Resolver} {unit : Model.Unit} {node : Source.Node}
    (named : node.IsNamed r.program) :
    NodeFits (Progress.TellsFields r) (Use.HasField unit)
      (Model.Node.TellsFields unit r.program.unit) r node where
  own _ _ _ _ _ := trivial
  name isName notThis := nameFits_of_named (by
    rw [isName] at named
    exact named.symbol notThis)

/-! ### Programs -/

theorem Lowering.mem_iff_exists_mem_placed {α : Type} {things : List α} {thing : α} :
    thing ∈ things ↔ ∃ place, (place, thing) ∈ placed things := by
  rw [List.mem_iff_getElem?]
  refine exists_congr fun place => ?_
  rw [placed, List.mem_map, ← List.mk_mem_zipIdx_iff_getElem?]
  constructor
  · exact fun mem => ⟨_, mem, rfl⟩
  · rintro ⟨⟨_, _⟩, mem, same⟩
    cases same
    exact mem

theorem Source.ClassUnit.mem_fields_iff {unit : ClassUnit} {decl : FieldDecl} :
    decl ∈ unit.fields ↔ ∃ place, (place, .field decl) ∈ unit.declarations := by
  rw [declarations, ← mem_iff_exists_mem_placed, List.mem_append]
  simp

/-- The declaration of a field that is entered in the tables binds it as a field. -/
theorem Declaration.binds_of_isEntered {r : Resolver} {d : Placed Declaration}
    (declared : d ∈ r.program.unit.declarations)
    (entered : ∀ decl ∈ r.program.unit.fields, decl.IsEntered r.program) :
    d.2.Binds (Progress.TellsFields r) := by
  obtain ⟨place, d⟩ := d
  cases d with
  | method decl => trivial
  | field decl =>
    have isField := ClassUnit.mem_fields_iff.2 ⟨place, declared⟩
    obtain ⟨symbol, found, _, sameName⟩ := entered decl isField
    refine fun type s inv => inv.declare type fun _ => ⟨symbol, found, ?_⟩
    exact iff_of_true rfl (hasField_iff.2 ⟨decl, isField, sameName.symm⟩)

/-- A declared field is a helper of its class, as the entry is a method. -/
theorem Source.ClassUnit.exists_field_helper {unit : ClassUnit} {name : String} {entryPlace : Nat}
    {entry : MethodDecl} (isEntry : unit.entry? name = some (entryPlace, entry)) {decl : FieldDecl}
    (declared : decl ∈ unit.fields) : ∃ place, (place, .field decl) ∈ unit.helpers entryPlace := by
  obtain ⟨place, declared⟩ := mem_fields_iff.1 declared
  refine ⟨place, List.mem_filter.2 ⟨declared, decide_eq_true ?_⟩⟩
  rintro rfl
  have distinct : (unit.declarations.map (·.1)).Nodup := places_placed _ ▸ List.nodup_range
  have same := List.inj_on_of_nodup_map distinct declared (entry_mem_declarations isEntry) rfl
  cases same

theorem Source.Program.start_tellsFields (config : Config) (program : Program) :
    program.start.TellsFields (program.resolver config) where
  fields := rfl
  used _ mem := by cases mem
  bound _ _ isBound := by cases isBound

/-- A compiled unit has each field that one of its variables is, at any depth, and none of its
variables from outside the class has the name of a field that the class declares, if names in the
trees of the class are the names of their symbols and the fields are entered in the tables. -/
theorem Source.Program.lower_has_fields {config : Config} {program : Program} {unit : Model.Unit}
    (ok : program.lower config = .ok unit)
    (named : ∀ node ∈ program.unit.nodes, node.IsNamed program)
    (entered : ∀ decl ∈ program.unit.fields, decl.IsEntered program) :
    (∀ name, .expr (.identifier name .field) ∈ unit.nodes →
      ∃ field ∈ unit.fields, field.name = name) ∧
    ∀ name, .expr (.identifier name .global) ∈ unit.nodes →
      ¬∃ decl ∈ program.unit.fields, decl.name = name := by
  obtain ⟨run, ordered, reordered, decls, _, isUnit⟩ := exists_run config program ok
  have fits {d : Placed Declaration} (declared : d ∈ program.unit.declarations) :
      ∀ node ∈ d.2.nodes, NodeFits (Progress.TellsFields (program.resolver config))
        (Use.HasField unit) (Model.Node.TellsFields unit program.unit) (program.resolver config)
        node :=
    fun node mem =>
      nodeFits_of_isNamed (named node (ClassUnit.mem_nodes_of_mem_declarations declared mem))
  have declared : ∀ visit ∈ run.visits, visit.decl ∈ program.unit.declarations := fun visit mem =>
    List.mem_of_mem_filter (List.mem_of_mem_filter
      (decls ▸ List.mem_map_of_mem (reordered.mem_iff.2 mem)))
  -- a field that has been used in the end is declared, so the unit has it
  have only (inv : run.last.TellsFields (program.resolver config)) :
      run.last.uses.Only (Use.HasField unit) := by
    refine ⟨fun name isUsed => ?_, fun _ _ => trivial⟩
    obtain ⟨decl, isField, rfl⟩ := hasField_iff.1 (inv.used name isUsed)
    obtain ⟨place, isHelper⟩ := ClassUnit.exists_field_helper run.isEntry isField
    have isUsed : (Declaration.field decl).isUsed run.last.uses = true :=
      List.contains_iff_mem.2 isUsed
    rw [isUnit]
    exact (run.has_iff_isUsed reordered decls isHelper).2 isUsed
  have nodes : Every (Model.Node.TellsFields unit program.unit) unit.nodes := by
    have nodes := run.every_nodes_of_fits reordered
      (fits (ClassUnit.entry_mem_declarations run.isEntry))
      (fun visit mem => Declaration.binds_of_isEntered (declared visit mem) entered)
      (fun visit mem => fits (declared visit mem)) (program.start_tellsFields config) only
      program.unit.name
    rwa [← isUnit] at nodes
  exact ⟨fun name mem => nodes _ mem, fun name mem => nodes _ mem⟩

namespace Source.Program

/-- A class in which a method selects `limit` on the enclosing instance, and whose `limit` begins
with the field `base` and a field `outer` of another class. -/
def limited : Program where
  unit := {
    name := "Limited"
    fields := [
      ⟨"limit", 5, .primitive .int, some (.binary .plus (.ident "base" 6) (.ident "outer" 7))⟩,
      ⟨"base", 6, .primitive .int, none⟩]
    methods := [
      ⟨"start", [], .void, ⟨[.ofExpr (.localCall "visit" 2 [] .void)], {}⟩⟩,
      ⟨"visit", [], .void,
        ⟨[.ofExpr (.select (.ident "this" 0) "limit" (.primitive .int))], {}⟩⟩] }
  symbols := .ofList [
    (5, { name := "limit", kind := .field, ty := .primitive .int }),
    (6, { name := "base", kind := .field, ty := .primitive .int }),
    (7, { name := "outer", kind := .field, ty := .primitive .int })]
  methods := .ofList [(2, ⟨"visit", .declared "Limited" [], [], false, .void⟩)]

theorem lower_has_fields_limited :
    ∃ unit, limited.lower {} = .ok unit ∧ unit.fields.map (·.name) = ["limit", "base"] ∧
      (∃ node ∈ unit.nodes, node.use? = some (.field "base")) ∧
      (∀ name, .expr (.identifier name .field) ∈ unit.nodes →
        ∃ field ∈ unit.fields, field.name = name) ∧
      ∀ name, .expr (.identifier name .global) ∈ unit.nodes →
        ¬∃ decl ∈ limited.unit.fields, decl.name = name := by
  have named : ∀ node ∈ limited.unit.nodes, node.IsNamed limited := by decide +kernel
  have entered : ∀ decl ∈ limited.unit.fields, decl.IsEntered limited := by decide +kernel
  have uses : ((limited.lower {}).toOption.map fun unit =>
      (unit.fields.map (·.name), unit.nodes.any (·.use? = some (.field "base")))) =
      some (["limit", "base"], true) := by decide +kernel
  obtain ⟨unit, lowers, found⟩ := exists_ok_of_map uses
  obtain ⟨fields, used⟩ := Prod.mk.inj found
  obtain ⟨node, mem, isUse⟩ := List.any_eq_true.1 used
  exact ⟨unit, lowers, fields, ⟨node, mem, of_decide_eq_true isUse⟩,
    lower_has_fields lowers named entered⟩

end Source.Program

end Polyscript
