import Mathlib.Data.List.Basic
import Polyscript.Spelling.Name

/-!
# Names and the words for them

A name is written as it stands unless it is reserved. A reserved name is written as another word,
which is not reserved itself and differs from the words for all other reserved names. Ruby puts
a sign in front of the words for fields and globals.

## Main statements

* `Target.identifier_eq_self_iff`: which names are written as they stand.
* `Target.identifier_inj_of_mem`: the words for reserved names are told apart.
-/

namespace Polyscript.Target

open Model (Scope)

variable {t : Target} {name other : String} {scope : Scope}

/-- The sign in front of a variable of a scope. -/
def sigil (t : Target) (scope : Scope) : String :=
  match t, scope with
  | .ruby, .field => "@"
  | .ruby, .global => "$"
  | _, _ => ""

theorem variableName_eq (t : Target) (name : String) (scope : Scope) :
    t.variableName name scope = t.sigil scope ++ t.identifier name := by
  cases t <;> cases scope <;> simp [variableName, sigil]

/-- The name of a method with its words separated as the language does it. -/
def cased (t : Target) (name : String) : String :=
  match t with
  | .ruby => Text.snakeCase name
  | _ => name

theorem methodName_eq (t : Target) (name : String) :
    t.methodName name = t.identifier (t.cased name) := by
  cases t <;> rfl

@[simp] theorem variableName_variable : t.variableName name .variable = t.identifier name := by
  cases t <;> rfl

@[simp] theorem variableName_parameter : t.variableName name .parameter = t.identifier name := by
  cases t <;> rfl

theorem identifier_of_notMem (free : name ∉ t.reserved) : t.identifier name = name := by
  simp [identifier, free]

/-- The word for a reserved name is longer than the name. -/
theorem length_lt_length_identifier (reserved : name ∈ t.reserved) :
    name.toList.length < (t.identifier name).toList.length := by
  cases t <;> simp +arith [identifier, reserved]

theorem length_le_length_identifier (t : Target) (name : String) :
    name.toList.length ≤ (t.identifier name).toList.length := by
  by_cases reserved : name ∈ t.reserved
  · exact Nat.le_of_lt (length_lt_length_identifier reserved)
  · exact Nat.le_of_eq (by rw [identifier_of_notMem reserved])

theorem identifier_ne_self (reserved : name ∈ t.reserved) : t.identifier name ≠ name := by
  intro same
  have longer := length_lt_length_identifier reserved
  rw [same] at longer
  exact Nat.lt_irrefl _ longer

/-- The names that are written as they stand are those that are not reserved. -/
theorem identifier_eq_self_iff : t.identifier name = name ↔ name ∉ t.reserved :=
  ⟨fun same reserved => identifier_ne_self reserved same, identifier_of_notMem⟩

theorem identifier_inj_of_mem (reserved : name ∈ t.reserved) (reserved' : other ∈ t.reserved)
    (same : t.identifier name = t.identifier other) : name = other := by
  cases t <;> simpa [identifier, reserved, reserved'] using same

/-- Words for reserved names are not reserved. -/
theorem identifier_notMem_reserved : ∀ name ∈ t.reserved, t.identifier name ∉ t.reserved := by
  cases t <;> decide +kernel

/-- Neither reserved names nor the words for them begin with a sign. -/
theorem head_reserved : ∀ name ∈ t.reserved, name.toList.head? ∉ [some '@', some '$'] ∧
    (t.identifier name).toList.head? ∉ [some '@', some '$'] := by
  cases t <;> decide +kernel

theorem mem_handlerParams (t : Target) (name : String) : name ∈ t.handlerParams name := by
  cases t <;> simp [handlerParams]

theorem sigil_cases (t : Target) (scope : Scope) :
    t.sigil scope = "" ∨ t.sigil scope = "@" ∨ t.sigil scope = "$" := by
  cases t <;> cases scope <;> simp [sigil]

/-- A word that does not begin with a sign can be told from the sign in front of it. -/
theorem sigil_append_inj {scope' : Scope} {word word' : String}
    (noSign : word.toList.head? ∉ [some '@', some '$'])
    (noSign' : word'.toList.head? ∉ [some '@', some '$'])
    (same : t.sigil scope ++ word = t.sigil scope' ++ word') : word = word' := by
  have heads := congrArg (·.toList) same
  simp only [String.toList_append] at heads
  rw [← String.toList_inj]
  -- one sign in front of both words, or a sign in front of one of them only
  rcases t.sigil_cases scope with h | h | h <;> rcases t.sigil_cases scope' with h' | h' | h' <;>
    rw [h, h'] at heads <;> grind

/-! ### Names that are made up -/

/-- The name for an error is neither reserved nor the word for a reserved name. -/
theorem error_differs (name : String) : name ++ "_err" ∉ reserved .javascript ∧
    ∀ other ∈ reserved .javascript, identifier .javascript other ≠ name ++ "_err" := by
  have noError : ∀ other ∈ reserved .javascript, ¬"_err".toList <:+ other.toList ∧
      ¬"_err".toList <:+ (identifier .javascript other).toList := by
    decide +kernel
  have error : "_err".toList <:+ (name ++ "_err").toList := by
    rw [String.toList_append]
    exact List.suffix_append _ _
  refine ⟨fun mem => (noError _ mem).1 error, fun other mem same => (noError _ mem).2 ?_⟩
  rwa [same]

/-- The parameters for a method reference are neither reserved nor words for reserved names. -/
theorem referenceParams_differ (isFunction : t = .javascript ∨ t = .kotlin) {count : Nat}
    {param : String} (mem : param ∈ referenceParams count) : param ∉ t.reserved ∧
    ∀ other ∈ t.reserved, t.identifier other ≠ param := by
  have heads : ∀ other ∈ t.reserved, other ≠ "it" ∧ t.identifier other ≠ "it" ∧
      other.toList.head? ≠ some 'p' ∧ (t.identifier other).toList.head? ≠ some 'p' := by
    rcases isFunction with rfl | rfl <;> decide +kernel
  unfold referenceParams at mem
  split at mem
  · obtain rfl := List.mem_singleton.1 mem
    exact ⟨fun reserved => (heads _ reserved).1 rfl, fun other mem => (heads other mem).2.1⟩
  · obtain ⟨i, _, rfl⟩ := List.mem_map.1 mem
    have begins : ("p" ++ toString i).toList.head? = some 'p' := by
      rw [String.toList_append]
      rfl
    refine ⟨fun reserved => (heads _ reserved).2.2.1 begins, fun other mem same => ?_⟩
    exact (heads other mem).2.2.2 (same ▸ begins)

end Polyscript.Target
