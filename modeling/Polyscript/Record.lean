/-!
# Fields by name

The fields of a structure as they are found in a text, before they are given types.
-/

namespace Polyscript

/-- Among entries of different keys each one is found. -/
theorem lookup_of_mem {κ α : Type} [BEq κ] [LawfulBEq κ] {entries : List (κ × α)}
    (once : (entries.map (·.1)).Nodup) {key : κ} {value : α} (mem : (key, value) ∈ entries) :
    entries.lookup key = some value := by
  induction entries with
  | nil => cases mem
  | cons entry rest ih =>
    obtain ⟨notLater, once⟩ := List.nodup_cons.1 once
    rcases List.mem_cons.1 mem with rfl | later
    · exact List.lookup_cons_self
    · have other : key ≠ entry.1 := by
        rintro rfl
        exact notLater (List.mem_map.2 ⟨_, later, rfl⟩)
      rw [List.lookup_cons, beq_eq_false_iff_ne.2 other]
      exact ih once later

/-- A key that no entry has is not found. -/
theorem lookup_of_not_mem {κ α : Type} [BEq κ] [LawfulBEq κ] {entries : List (κ × α)} {key : κ}
    (missing : key ∉ entries.map (·.1)) : entries.lookup key = none := by
  rw [List.lookup_eq_none_iff]
  exact fun entry mem => bne_iff_ne.2 fun same => missing (List.mem_map.2 ⟨entry, mem, same.symm⟩)

/-- The known fields of a structure that are present, each once. -/
structure Record (V : Type) where
  fields : List (String × V)

namespace Record

variable {V α : Type}

/-- A field that must be present. -/
def required (r : Record V) (name : String) (read : V → Option α) : Option α := do
  read (← r.fields.lookup name)

/-- A field that takes a value of its own accord when it is absent. -/
def optional (r : Record V) (name : String) (absent : α) (read : V → Option α) : Option α :=
  match r.fields.lookup name with
  | none => some absent
  | some value => read value

end Record

end Polyscript
