import Polyscript.Proofs.Lowering.Supported
import Polyscript.Proofs.Lowering.Whole
import Polyscript.Proofs.Model.Mention

/-!
# Definitions that take each other's place

The methods of a compiled unit are written as functions that stand side by side. In JavaScript
and in Ruby functions are told apart by their names alone, so that a function takes the place of
an earlier one of its name. Nothing keeps this from happening: every method that is used is
written, under the word for its name, and so are all methods that share the name. Overloads
become functions of one name, and so do methods whose names are spelled alike.

## Main definitions

* `Target.Merges`: names of methods for which there is one word.
* `Target.opening`: what a definition begins with.

## Main statements

* `Source.Program.definitions_distinct_iff`: when all functions have names of their own.
* `Source.Program.overloads_overwrite`: methods that become functions of one name.
-/

namespace Polyscript

open Model (Method)

namespace Target

variable {t : Target} {name other : String}

/-- Whether there is one word for two names of methods: if the names are the same once their
words are separated, or if one is reserved and the other one is the word for it. -/
def Merges (t : Target) (name other : String) : Prop :=
  t.cased name = t.cased other ∨
    (t.cased name ∈ t.reserved ∧ t.cased other = t.identifier (t.cased name)) ∨
    (t.cased other ∈ t.reserved ∧ t.cased name = t.identifier (t.cased other))

instance (t : Target) (name other : String) : Decidable (t.Merges name other) :=
  inferInstanceAs (Decidable (_ ∨ _))

theorem methodName_eq_iff : t.methodName name = t.methodName other ↔ t.Merges name other := by
  rw [methodName_eq, methodName_eq, Merges]
  by_cases reserved : t.cased name ∈ t.reserved <;> by_cases reserved' : t.cased other ∈ t.reserved
  · -- words for reserved names are no reserved names
    have apart := identifier_notMem_reserved _ reserved
    have apart' := identifier_notMem_reserved _ reserved'
    constructor
    · exact fun same => .inl (identifier_inj_of_mem reserved reserved' same)
    · rintro (same | ⟨_, same⟩ | ⟨_, same⟩)
      · rw [same]
      · exact absurd (same ▸ reserved') apart
      · exact absurd (same ▸ reserved) apart'
  · rw [identifier_of_notMem reserved']
    have differs : t.cased name ≠ t.cased other := fun same => reserved' (same ▸ reserved)
    simp [reserved, reserved', differs, eq_comm]
  · rw [identifier_of_notMem reserved]
    have differs : t.cased name ≠ t.cased other := fun same => reserved (same ▸ reserved')
    simp [reserved, reserved', differs]
  · rw [identifier_of_notMem reserved, identifier_of_notMem reserved']
    simp [reserved, reserved']

/-- The keyword in front of the name of a function that is defined. -/
def functionSign : Target → String
  | .javascript => "function "
  | .groovy | .ruby => "def "
  | .kotlin => "fun "

/-- What the definition of a method begins with: the keyword, the word for its name and the
parenthesis in front of its parameters. -/
def opening (t : Target) (name : String) : Draft :=
  t.functionSign ++ t.methodName name ++ "("

/-- A method is written as a definition. -/
theorem exists_method_eq (t : Target) (signature : Signature) (params : List String)
    (body : Draft) : ∃ rest, t.method signature params body = t.opening signature.name ++ rest := by
  unfold method opening
  cases t <;> exact ⟨_, by simp only [Draft.append_assoc, functionSign]; rfl⟩

end Target

/-! ### Definitions in a unit -/

/-- The texts of drafts that do not break off follow each other. -/
theorem Draft.marks_concat {ds : List Draft} (unbroken : (Draft.concat ds).Unbroken) :
    (Draft.concat ds).marks = ds.flatMap (·.marks) := by
  induction ds with
  | nil => rfl
  | cons d rest ih =>
    obtain ⟨first, others⟩ := unbroken_append.1 unbroken
    rw [Draft.concat, append_of_unbroken first, List.flatMap_cons, ih others]

namespace Model

variable {t : Target} {indent text : String} {unit : Unit}

/-- Whether the text of a program has a definition for each of its methods, one behind the
other. -/
def Unit.Defines (t : Target) (unit : Unit) : Prop :=
  ∃ (before behind : List Mark) (rest : Method → List Mark),
    (unit.draft t).marks = before ++
      unit.methods.flatMap (fun m => .gap :: ((t.opening m.signature.name).marks ++ rest m)) ++
      behind

/-- A method is written behind an empty line. -/
theorem Method.exists_marks (t : Target) (m : Method) : ∃ rest,
    (Draft.mark .gap ++ m.draft t ++ Draft.text "\n").marks =
      .gap :: ((t.opening m.signature.name).marks ++ rest) := by
  obtain ⟨rest, isMethod⟩ := t.exists_method_eq m.signature m.paramNames (m.body.draft t false)
  refine ⟨(rest ++ Draft.text "\n").marks, ?_⟩
  rw [Method.draft, isMethod, Draft.append_assoc, Draft.append_assoc]
  rfl

theorem Unit.defines_of_render (ok : unit.render t indent = .ok text) : unit.Defines t := by
  have unbroken : (unit.draft t).Unbroken := Unit.fault_of_render ok
  obtain ⟨declared, _⟩ := Draft.unbroken_append.1 unbroken
  obtain ⟨fields, methods⟩ := Draft.unbroken_append.1 declared
  choose rest isMethod using Method.exists_marks t
  have within : Draft.marks _ <:+: (unit.draft t).marks :=
    (Draft.infix_append_left fields _).trans (Draft.infix_append_right _ _)
  obtain ⟨before, behind, within⟩ := within
  refine ⟨before, behind, rest, ?_⟩
  rw [← within, Draft.marks_concat methods, List.flatMap_map]
  simp only [isMethod]

end Model

/-! ### Definitions in a compiled unit -/

section Compiled

open Lowering Source

/-- The method that a declaration is. -/
def Declaration.method? : Declaration → Option MethodDecl
  | .field _ => none
  | .method decl => some decl

/-- The methods of a class besides its entry method, in their order. -/
def Source.ClassUnit.helperMethods (unit : ClassUnit) (entryPlace : Nat) : List MethodDecl :=
  (unit.helpers entryPlace).filterMap (·.2.method?)

/-- Whether a unit has a method of a name. -/
def Model.Unit.hasMethod (unit : Model.Unit) (name : String) : Bool :=
  unit.methods.any (·.signature.name = name)

theorem Model.Unit.hasMethod_iff {unit : Model.Unit} {decl : MethodDecl} :
    unit.hasMethod decl.name = true ↔ unit.Has (.method decl) := by
  simp only [hasMethod, Has, List.any_eq_true, decide_eq_true_eq]

/-- The model of a method is one of its name. -/
theorem Declaration.Names.method?_eq {d : Declaration} {model : Lowered} (named : d.Names model) :
    model.method?.map (·.signature.name) = d.method?.map (·.name) := by
  cases d <;> cases model
  case method.method => exact congrArg some named
  case field.field => rfl
  all_goals exact absurd named id

/-- A compiled unit has a method for each helper method of the names that it has methods of. -/
theorem Source.Program.methodNames_eq {config : Config} {program : Program} {unit : Model.Unit}
    (ok : program.lower config = .ok unit) {entryPlace : Nat} {entry : MethodDecl}
    (isEntry : program.unit.entry? config.entryMethod = some (entryPlace, entry)) :
    unit.methods.map (·.signature.name) =
      ((program.unit.helperMethods entryPlace).filter (unit.hasMethod ·.name)).map (·.name) := by
  obtain ⟨run, ordered, reordered, decls, _, isUnit⟩ := exists_run config program ok
  obtain ⟨rfl, rfl⟩ := Prod.mk.inj (Option.some.inj (run.isEntry.symm.trans isEntry))
  have named : ∀ visit ∈ ordered, visit.decl.2.Names visit.model := fun visit mem =>
    run.inTurn.names config.aliasesResults_context visit (reordered.mem_iff.1 mem)
  have names : unit.methods.map (·.signature.name) =
      (used run.last.uses run.helpers).filterMap fun d => d.2.method?.map (·.name) := by
    rw [isUnit, ← decls, List.map_filterMap, List.filterMap_map]
    exact List.filterMap_congr fun visit mem => (named visit mem).method?_eq
  have isUsed {decl : MethodDecl} {place : Nat} (isHelper : (place, .method decl) ∈ run.helpers) :
      (Declaration.method decl).isUsed run.last.uses = unit.hasMethod decl.name := by
    rw [Bool.eq_iff_iff, Model.Unit.hasMethod_iff, isUnit]
    exact (run.has_iff_isUsed reordered decls isHelper).symm
  rw [names, used, ClassUnit.helperMethods, List.filter_filterMap, List.map_filterMap,
    List.filterMap_filter]
  refine List.filterMap_congr fun d isHelper => ?_
  obtain ⟨place, d⟩ := d
  cases d with
  | field decl => simp [Declaration.method?]
  | method decl => simp [Declaration.method?, isUsed isHelper, Option.filter]

/-- The names of the functions that the methods of a unit become. -/
def Model.Unit.functionNames (t : Target) (unit : Model.Unit) : List String :=
  unit.methods.map fun m => t.methodName m.signature.name

theorem Model.Unit.functionNames_eq (t : Target) (unit : Model.Unit) :
    unit.functionNames t = (unit.methods.map (·.signature.name)).map t.methodName := by
  rw [functionNames, List.map_map]
  rfl

/-- The methods that share their names with methods of a compiled unit are written as functions
beside each other, under the words for their names. All functions have names of their own exactly
if no two of those methods, overloads among them, have names for which there is one word. -/
theorem Source.Program.definitions_distinct_iff {config : Config} {program : Program}
    {unit : Model.Unit} (ok : program.lower config = .ok unit) {entryPlace : Nat}
    {entry : MethodDecl}
    (isEntry : program.unit.entry? config.entryMethod = some (entryPlace, entry))
    {t : Target} {indent text : String} (renders : unit.render t indent = .ok text) :
    unit.Defines t ∧
    unit.methods.map (·.signature.name) =
      ((program.unit.helperMethods entryPlace).filter (unit.hasMethod ·.name)).map (·.name) ∧
    ((unit.functionNames t).Nodup ↔
      ((program.unit.helperMethods entryPlace).filter (unit.hasMethod ·.name)).Pairwise
        fun decl other => ¬t.Merges decl.name other.name) := by
  have names := methodNames_eq ok isEntry
  refine ⟨Model.Unit.defines_of_render renders, names, ?_⟩
  rw [Model.Unit.functionNames_eq, names, List.map_map, List.Nodup, List.pairwise_map]
  exact List.Pairwise.iff fun _ _ => not_congr Target.methodName_eq_iff

namespace Source.Program

/-- A class with two methods `show`, one of which calls the other one. -/
def overloaded : Program where
  unit := {
    name := "Overloaded"
    methods := [
      ⟨"start", [], .void,
        ⟨[.ofExpr (.localCall "show" 2 [⟨.literal (.int "1"), .primitive .int⟩] .void)], {}⟩⟩,
      ⟨"show", [⟨"count", 5, .primitive .int⟩], .void,
        ⟨[.ofExpr (.localCall "show" 3 [] .void)], {}⟩⟩,
      ⟨"show", [], .void, ⟨[], {}⟩⟩] }
  methods := .ofList [
    (2, ⟨"show", .declared "Overloaded" [], [.primitive .int], false, .void⟩),
    (3, ⟨"show", .declared "Overloaded" [], [], false, .void⟩)]

/-- What the class is written as in JavaScript. -/
def overloadedText : String :=
  "function show(count) \x7b\n  show();\n\x7d\n\nfunction show() \x7b\n\x7d\n\nshow(1);\n"

/-- A class with methods of four names. -/
def respelled : Program where
  unit := {
    name := "Respelled"
    methods := [
      ⟨"start", [], .void, ⟨[.ofExpr (.localCall "showAll" 2 [] .void),
        .ofExpr (.localCall "show_all" 3 [] .void), .ofExpr (.localCall "in" 4 [] .void),
        .ofExpr (.localCall "in_" 5 [] .void)], {}⟩⟩,
      ⟨"showAll", [], .void, ⟨[], {}⟩⟩, ⟨"show_all", [], .void, ⟨[], {}⟩⟩,
      ⟨"in", [], .void, ⟨[], {}⟩⟩, ⟨"in_", [], .void, ⟨[], {}⟩⟩] }
  methods := .ofList [
    (2, ⟨"showAll", .declared "Respelled" [], [], false, .void⟩),
    (3, ⟨"show_all", .declared "Respelled" [], [], false, .void⟩),
    (4, ⟨"in", .declared "Respelled" [], [], false, .void⟩),
    (5, ⟨"in_", .declared "Respelled" [], [], false, .void⟩)]

/-- What the class is written as in Ruby. -/
def respelledText : String :=
  "def show_all()\nend\n\ndef show_all()\nend\n\ndef in_()\nend\n\ndef in_()\nend\n\n" ++
    "show_all()\nshow_all()\nin_()\nin_()\n"

theorem respelled_lowers : ∃ unit, respelled.lower {} = .ok unit ∧
    unit.methods.map (·.signature.name) = ["showAll", "show_all", "in", "in_"] ∧
    unit.render .ruby "  " = .ok respelledText := by
  have evaluated : (respelled.lower {}).toOption.map (fun unit =>
      (unit.methods.map (·.signature.name), (unit.render .ruby "  ").toOption)) =
      some (["showAll", "show_all", "in", "in_"], some respelledText) := by
    decide +kernel
  obtain ⟨unit, lowers, found⟩ := exists_ok_of_map evaluated
  obtain ⟨names, text⟩ := Prod.mk.inj found
  exact ⟨unit, lowers, names, ok_of_toOption text⟩

theorem definitions_distinct_iff_respelled : ∃ unit, respelled.lower {} = .ok unit ∧
    unit.render .ruby "  " = .ok respelledText ∧ unit.Defines .ruby ∧
    unit.methods.map (·.signature.name) =
      ((respelled.unit.helperMethods 0).filter (unit.hasMethod ·.name)).map (·.name) ∧
    ((unit.functionNames .ruby).Nodup ↔
      ((respelled.unit.helperMethods 0).filter (unit.hasMethod ·.name)).Pairwise
        fun decl other => ¬Target.ruby.Merges decl.name other.name) := by
  obtain ⟨unit, lowers, _, renders⟩ := respelled_lowers
  exact ⟨unit, lowers, renders, definitions_distinct_iff lowers rfl renders⟩

/-- Overloads become functions of one name. So do methods of different names in Ruby, where the
words of a name are separated, and wherever a name is the word for a reserved one. -/
theorem overloads_overwrite :
    (∃ unit, overloaded.lower {} = .ok unit ∧
      unit.render .javascript "  " = .ok overloadedText ∧ ∀ t, ¬(unit.functionNames t).Nodup) ∧
    ∃ unit, respelled.lower {} = .ok unit ∧ unit.render .ruby "  " = .ok respelledText ∧
      unit.functionNames .ruby = ["show_all", "show_all", "in_", "in_"] ∧
      unit.functionNames .javascript = ["showAll", "show_all", "in_", "in_"] := by
  constructor
  · have evaluated : (overloaded.lower {}).toOption.map (fun unit =>
        (unit.methods.map (·.signature.name), (unit.render .javascript "  ").toOption)) =
        some (["show", "show"], some overloadedText) := by
      decide +kernel
    obtain ⟨unit, lowers, found⟩ := exists_ok_of_map evaluated
    obtain ⟨names, text⟩ := Prod.mk.inj found
    refine ⟨unit, lowers, ok_of_toOption text, fun t distinct => ?_⟩
    rw [Model.Unit.functionNames_eq, names] at distinct
    simp at distinct
  · obtain ⟨unit, lowers, names, text⟩ := respelled_lowers
    refine ⟨unit, lowers, text, ?_, ?_⟩
    all_goals
      rw [Model.Unit.functionNames_eq, names]
      decide +kernel

end Source.Program

end Compiled

end Polyscript
