import Mathlib.Data.List.Forall2
import Mathlib.Data.List.Nodup
import Polyscript.Json.Decode
import Polyscript.Json.Outline
import Polyscript.Proofs.Json.Lexing

/-!
# The values that an outline admits

An outline admits a value if the value differs from what the outline is written as in the
order of the fields of structures only, and in fields that are left out although they hold the
value that they take of their own accord.

Readers of typed data look at admitted values in steps: an admitted list is an array of
admitted items, an admitted structure has a record in which every field is found or may be
missing. Each step takes one level of the room that the reader has.

## Main statements

* `Outline.admits_toJson`: what an outline is written as is admitted.
* `Outline.Admits.canonical`: admitted values are read back from their printed form.
* `Outline.Within.struct`: the fields of an admitted structure are found by their names.
-/

namespace Polyscript.Json

/-- Whether an outline admits a value. -/
inductive Outline.Admits : Outline → Json → Prop where
  | null : Admits .null .null
  | bool (value : Bool) : Admits (.bool value) (.bool value)
  | natural (value : Nat) : Admits (.natural value) (Json.natural value)
  | text (value : String) : Admits (.text value) (Json.text value)
  | list (items : List (Outline × Json)) (all : ∀ i ∈ items, Admits i.1 i.2) :
    Admits (.list (items.map Prod.fst)) (.array (items.map Prod.snd))
  | choice (tag : String) {content : Outline} {body : Json} (admits : Admits content body) :
    Admits (.choice tag content) (tagged tag body)
  /-- The fields that are kept and those that are left out are the fields of the structure, in
  any order. What is left out holds the value that it takes of its own accord. -/
  | struct {fields : List Field} (kept : List (Field × Json)) (leftOut : List Field)
    (all : ∀ k ∈ kept, Admits k.1.content k.2)
    (order : (kept.map Prod.fst ++ leftOut).Perm fields)
    (default : ∀ f ∈ leftOut, f.isDefault = true) :
    Admits (.struct fields) (record (kept.map fun k => (k.1.name, k.2)))
  | table (entries : List (String × Outline × Json)) (all : ∀ e ∈ entries, Admits e.2.1 e.2.2) :
    Admits (.table (entries.map fun e => (e.1, e.2.1))) (record (entries.map fun e => (e.1, e.2.2)))

/-- Admitted values are put together from numbers, texts, truth values and `null`. -/
theorem Outline.Admits.canonical {o : Outline} {j : Json} (admits : o.Admits j) :
    Canonical j := by
  induction admits with
  | null => exact .null
  | bool value => exact .bool value
  | natural value => exact .natural value
  | text value => exact .text value
  | list items all ih => exact .array _ (List.forall_mem_map.2 ih)
  | choice tag admits ih => exact .record _ (by simpa using ih)
  | struct kept leftOut all order default ih => exact .record _ (List.forall_mem_map.2 ih)
  | table entries all ih => exact .record _ (List.forall_mem_map.2 ih)

/-! ### What an outline is written as -/

theorem Outline.listToJson_eq (items : List Outline) :
    Outline.listToJson items = items.map Outline.toJson := by
  induction items with
  | nil => rfl
  | cons item rest ih => rw [Outline.listToJson, ih, List.map_cons]

theorem Field.listToJson_eq (fields : List Field) :
    Field.listToJson fields = fields.map fun f => (f.name, f.content.toJson) := by
  induction fields with
  | nil => rfl
  | cons f rest ih =>
    obtain ⟨name, isDefault, content⟩ := f
    rw [Field.listToJson, ih, List.map_cons]

theorem Outline.entriesToJson_eq (entries : List (String × Outline)) :
    Outline.entriesToJson entries = entries.map fun e => (e.1, e.2.toJson) := by
  induction entries with
  | nil => rfl
  | cons e rest ih => rw [Outline.entriesToJson, ih, List.map_cons]

mutual

/-- What an outline is written as is admitted. -/
theorem Outline.admits_toJson (o : Outline) : o.Admits o.toJson := by
  cases o with
  | null => exact .null
  | bool value => exact .bool value
  | natural value => exact .natural value
  | text value => exact .text value
  | list items =>
    have admits := Outline.Admits.list (items.map fun i => (i, i.toJson))
      (List.forall_mem_map.2 (Outline.admits_items items))
    simpa [Outline.toJson, Outline.listToJson_eq, Function.comp_def] using admits
  | choice tag content => exact .choice tag content.admits_toJson
  | struct fields =>
    have order : ((fields.map fun f : Field => (f, f.content.toJson)).map Prod.fst ++ []).Perm
        fields := by
      simp [Function.comp_def]
    have admits := Outline.Admits.struct (fields.map fun f => (f, f.content.toJson)) []
      (List.forall_mem_map.2 (Field.admits_contents fields)) order (by simp)
    simpa [Outline.toJson, Field.listToJson_eq, Function.comp_def] using admits
  | table entries =>
    have admits := Outline.Admits.table (entries.map fun e => (e.1, e.2, e.2.toJson))
      (List.forall_mem_map.2 (Outline.admits_entries entries))
    simpa [Outline.toJson, Outline.entriesToJson_eq, Function.comp_def] using admits

theorem Outline.admits_items (items : List Outline) : ∀ i ∈ items, i.Admits i.toJson := by
  cases items with
  | nil => simp
  | cons item rest =>
    exact List.forall_mem_cons.2 ⟨item.admits_toJson, Outline.admits_items rest⟩

theorem Field.admits_contents (fields : List Field) :
    ∀ f ∈ fields, f.content.Admits f.content.toJson := by
  cases fields with
  | nil => simp
  | cons f rest =>
    obtain ⟨name, isDefault, content⟩ := f
    exact List.forall_mem_cons.2 ⟨content.admits_toJson, Field.admits_contents rest⟩

theorem Outline.admits_entries (entries : List (String × Outline)) :
    ∀ e ∈ entries, e.2.Admits e.2.toJson := by
  cases entries with
  | nil => simp
  | cons e rest =>
    obtain ⟨key, content⟩ := e
    exact List.forall_mem_cons.2 ⟨content.admits_toJson, Outline.admits_entries rest⟩

end

/-! ### Room -/

mutual

/-- The number of arrays and objects that stand inside each other. -/
def depth : Json → Nat
  | .array items => depthItems items + 1
  | .object members => depthMembers members + 1
  | _ => 0

/-- The depth of the deepest item. -/
def depthItems : List Json → Nat
  | [] => 0
  | item :: rest => max item.depth (depthItems rest)

/-- The depth of the deepest member. -/
def depthMembers : List (Written × Json) → Nat
  | [] => 0
  | (_, value) :: rest => max value.depth (depthMembers rest)

end

theorem depth_array_le {items : List Json} {room : Nat} :
    (Json.array items).depth ≤ room + 1 ↔ ∀ item ∈ items, item.depth ≤ room := by
  rw [depth, Nat.add_le_add_iff_right]
  induction items with
  | nil => simp [depthItems]
  | cons item rest ih => rw [depthItems, Nat.max_le, ih, List.forall_mem_cons]

theorem depth_record_le {members : List (String × Json)} {room : Nat} :
    (record members).depth ≤ room + 1 ↔ ∀ m ∈ members, m.2.depth ≤ room := by
  rw [record, depth, Nat.add_le_add_iff_right]
  induction members with
  | nil => simp [depthMembers]
  | cons m rest ih =>
    rw [List.map_cons, member, depthMembers, Nat.max_le, ih, List.forall_mem_cons]

mutual

/-- The natural numbers in an outline. -/
def Outline.naturals : Outline → List Nat
  | .natural value => [value]
  | .list items => Outline.naturalsOfItems items
  | .choice _ content => content.naturals
  | .struct fields => Field.naturals fields
  | .table entries => Outline.naturalsOfEntries entries
  | _ => []

/-- The natural numbers in the items of a list. -/
def Outline.naturalsOfItems : List Outline → List Nat
  | [] => []
  | item :: rest => item.naturals ++ Outline.naturalsOfItems rest

/-- The natural numbers in the fields of a structure. -/
def Field.naturals : List Field → List Nat
  | [] => []
  | ⟨_, _, content⟩ :: rest => content.naturals ++ Field.naturals rest

/-- The natural numbers in the entries of a table. -/
def Outline.naturalsOfEntries : List (String × Outline) → List Nat
  | [] => []
  | (_, content) :: rest => content.naturals ++ Outline.naturalsOfEntries rest

end

theorem Outline.forall_naturalsOfItems {P : Nat → Prop} {items : List Outline} :
    (∀ n ∈ Outline.naturalsOfItems items, P n) ↔ ∀ i ∈ items, ∀ n ∈ i.naturals, P n := by
  induction items with
  | nil => simp [Outline.naturalsOfItems]
  | cons item rest ih => simp [Outline.naturalsOfItems, or_imp, forall_and, ih]

theorem Field.forall_naturals {P : Nat → Prop} {fields : List Field} :
    (∀ n ∈ Field.naturals fields, P n) ↔ ∀ f ∈ fields, ∀ n ∈ f.content.naturals, P n := by
  induction fields with
  | nil => simp [Field.naturals]
  | cons f rest ih =>
    obtain ⟨name, isDefault, content⟩ := f
    simp [Field.naturals, or_imp, forall_and, ih]

theorem Outline.forall_naturalsOfEntries {P : Nat → Prop} {entries : List (String × Outline)} :
    (∀ n ∈ Outline.naturalsOfEntries entries, P n) ↔
      ∀ e ∈ entries, ∀ n ∈ e.2.naturals, P n := by
  induction entries with
  | nil => simp [Outline.naturalsOfEntries]
  | cons e rest ih =>
    obtain ⟨key, content⟩ := e
    simp [Outline.naturalsOfEntries, or_imp, forall_and, ih]

/-- An admitted value within the room of a reader: what the outline is written as is not
deeper, and its numbers fit in 64 bits. -/
structure Outline.Within (room : Nat) (o : Outline) (j : Json) : Prop where
  admits : o.Admits j
  depth : o.toJson.depth ≤ room
  fits : ∀ n ∈ o.naturals, n < UInt64.size

namespace Outline.Within

variable {room : Nat} {j : Json}

theorem eq_null (within : Outline.null.Within room j) : j = .null := by
  cases within.admits
  rfl

theorem eq_bool {value : Bool} (within : (Outline.bool value).Within room j) :
    j = .bool value := by
  cases within.admits
  rfl

theorem eq_text {value : String} (within : (Outline.text value).Within room j) :
    j = Json.text value := by
  cases within.admits
  rfl

theorem eq_natural {value : Nat} (within : (Outline.natural value).Within room j) :
    j = Json.natural value ∧ value < UInt64.size := by
  obtain ⟨admits, _, fits⟩ := within
  cases admits
  exact ⟨rfl, fits value (by simp [Outline.naturals])⟩

/-- The items of an admitted list are admitted, with one level less of room. -/
theorem list {items : List Outline} (within : (Outline.list items).Within room j) :
    ∃ inner js, room = inner + 1 ∧ j = .array js ∧
      List.Forall₂ (Outline.Within inner) items js := by
  obtain ⟨admits, depth, fits⟩ := within
  cases admits with
  | list pairs all =>
    cases room with
    | zero => simp [Outline.toJson, Json.depth] at depth
    | succ inner =>
      rw [Outline.toJson, Outline.listToJson_eq, depth_array_le, List.forall_mem_map] at depth
      rw [Outline.naturals, Outline.forall_naturalsOfItems] at fits
      refine ⟨inner, _, rfl, rfl, ?_⟩
      rw [List.forall₂_map_left_iff, List.forall₂_map_right_iff, List.forall₂_same]
      intro pair mem
      have item : pair.1 ∈ pairs.map Prod.fst := List.mem_map_of_mem mem
      exact ⟨all pair mem, depth _ item, fits _ item⟩

/-- An admitted alternative says its name and its content; the content is admitted, with one
level less of room. -/
theorem choice {tag : String} {content : Outline}
    (within : (Outline.choice tag content).Within room j) :
    ∃ inner body, room = inner + 1 ∧ j.choice? = some (tag, some body) ∧
      content.Within inner body := by
  obtain ⟨admits, depth, fits⟩ := within
  cases admits with
  | choice _ admits =>
    cases room with
    | zero => simp [Outline.toJson, tagged, record, Json.depth] at depth
    | succ inner =>
      rw [Outline.toJson, tagged, depth_record_le] at depth
      exact ⟨inner, _, rfl, rfl, admits, by simpa using depth, fits⟩

/-- The entries of an admitted table are admitted, with one level less of room. -/
theorem table {entries : List (String × Outline)}
    (within : (Outline.table entries).Within room j) :
    ∃ inner members, room = inner + 1 ∧ j = record members ∧
      List.Forall₂ (fun e m => m.1 = e.1 ∧ e.2.Within inner m.2) entries members := by
  obtain ⟨admits, depth, fits⟩ := within
  cases admits with
  | table pairs all =>
    cases room with
    | zero => simp [Outline.toJson, record, Json.depth] at depth
    | succ inner =>
      rw [Outline.toJson, Outline.entriesToJson_eq, depth_record_le, List.forall_mem_map] at depth
      rw [Outline.naturals, Outline.forall_naturalsOfEntries] at fits
      refine ⟨inner, _, rfl, rfl, ?_⟩
      rw [List.forall₂_map_left_iff, List.forall₂_map_right_iff, List.forall₂_same]
      intro e mem
      have entry : (e.1, e.2.1) ∈ pairs.map fun e => (e.1, e.2.1) := List.mem_map_of_mem mem
      exact ⟨rfl, all e mem, depth _ entry, fits _ entry⟩

end Outline.Within

/-! ### Structures -/

/-- Elements that each give a value give the list of their values. -/
theorem mapM_of_forall₂ {α β : Type} {f : β → Option α} {as : List α} {bs : List β}
    (each : List.Forall₂ (fun a b => f b = some a) as bs) : bs.mapM f = some as := by
  induction each with
  | nil => rfl
  | cons here further ih => rw [List.mapM_cons, here, ih]; rfl

/-- The record of an object whose members are known fields, each of them once. -/
theorem record?_record {names : List String} {members : List (String × Json)}
    (known : ∀ m ∈ members, m.1 ∈ names) (once : (members.map (·.1)).Nodup) :
    record? names (record members) = some ⟨members⟩ := by
  have single : names.all fun name => (members.filter (·.1 == name)).length ≤ 1 := by
    refine List.all_eq_true.2 fun name _ => decide_eq_true ?_
    have counted := List.nodup_iff_count_le_one.1 once name
    rwa [List.count, List.countP_map, List.countP_eq_length_filter] at counted
  have all : members.filter (fun member => names.contains member.1) = members :=
    List.filter_eq_self.2 fun m mem => List.contains_iff_mem.2 (known m mem)
  have read : (members.map member).mapM named? = some members :=
    mapM_of_forall₂ (List.forall₂_map_right_iff.2 (List.forall₂_same.2 fun m _ => rfl))
  rw [record, record?, read]
  simp only [Option.bind_eq_bind, Option.bind_some, single, all, if_true]

/-- Whether a field is found in a record, or is missing there and holds the value that it
takes of its own accord. -/
def Field.FoundIn (room : Nat) (r : Record Json) (f : Field) : Prop :=
  (∃ j, r.fields.lookup f.name = some j ∧ f.content.Within room j) ∨
    (r.fields.lookup f.name = none ∧ f.isDefault = true)

/-- The fields of an admitted structure are found, with one level less of room. -/
theorem Outline.Within.struct {room : Nat} {fields : List Field} {j : Json}
    (within : (Outline.struct fields).Within room j) (names : List String)
    (named : fields.map Field.name = names) (once : names.Nodup) :
    ∃ inner r, room = inner + 1 ∧ record? names j = some r ∧
      fields.Forall (Field.FoundIn inner r) := by
  subst named
  obtain ⟨admits, depth, fits⟩ := within
  cases admits with
  | struct kept leftOut all order default =>
    cases room with
    | zero => simp [Outline.toJson, record, Json.depth] at depth
    | succ inner =>
      rw [Outline.toJson, Field.listToJson_eq, depth_record_le, List.forall_mem_map] at depth
      rw [Outline.naturals, Field.forall_naturals] at fits
      -- the names of the fields that are kept, and then of those that are left out
      have names : ((kept.map Prod.fst ++ leftOut).map Field.name).Nodup :=
        (order.map Field.name).nodup_iff.2 once
      rw [List.map_append, List.map_map] at names
      have keptNames : (kept.map fun k => (k.1.name, k.2)).map (·.1) =
          kept.map (Field.name ∘ Prod.fst) := by
        rw [List.map_map]
        rfl
      have onceKept : ((kept.map fun k => (k.1.name, k.2)).map (·.1)).Nodup := by
        rw [keptNames]
        exact (List.nodup_append.1 names).1
      refine ⟨inner, ⟨kept.map fun k => (k.1.name, k.2)⟩, rfl, record?_record ?_ onceKept, ?_⟩
      · refine List.forall_mem_map.2 fun k mem => List.mem_map_of_mem ?_
        exact order.subset (List.mem_append_left _ (List.mem_map_of_mem mem))
      · refine List.forall_iff_forall_mem.2 fun f isField => ?_
        rcases List.mem_append.1 (order.symm.subset isField) with isKept | isLeftOut
        · obtain ⟨k, mem, rfl⟩ := List.mem_map.1 isKept
          exact .inl ⟨k.2, lookup_of_mem onceKept (List.mem_map_of_mem mem),
            all k mem, depth _ isField, fits _ isField⟩
        · refine .inr ⟨lookup_of_not_mem ?_, default f isLeftOut⟩
          rw [keptNames]
          exact fun isKept => (List.nodup_append.1 names).2.2 _ isKept _
            (List.mem_map_of_mem isLeftOut) rfl

/-- The fields of an admitted alternative whose content is a structure are found, with two
levels less of room. -/
theorem Outline.Within.form {room : Nat} {tag : String} {fields : List Field} {j : Json}
    (within : (Outline.choice tag (.struct fields)).Within room j) (names : List String)
    (named : fields.map Field.name = names) (once : names.Nodup) :
    ∃ inner body r, room = inner + 2 ∧ j.choice? = some (tag, some body) ∧
      record? names body = some r ∧ fields.Forall (Field.FoundIn inner r) := by
  obtain ⟨_, body, rfl, chosen, content⟩ := within.choice
  obtain ⟨inner, r, rfl, found⟩ := content.struct names named once
  exact ⟨inner, body, r, rfl, chosen, found⟩

/-! ### Reading fields -/

section Fields

variable {α : Type} {room : Nat} {r : Record Json} {name : String} {content : Outline}
  {read : Json → Option α} {x : α}

/-- A field that has no value of its own accord is read if its content is. -/
theorem Field.FoundIn.required (found : (Field.required name content).FoundIn room r)
    (reads : ∀ j, content.Within room j → read j = some x) : r.required name read = some x := by
  rcases found with ⟨j, present, within⟩ | ⟨_, isDefault⟩
  · have present : r.fields.lookup name = some j := present
    simp [Record.required, present, reads j within]
  · cases isDefault

/-- A field is read if its content is, and if it is left out with the value that it takes of
its own accord. -/
theorem Field.FoundIn.optional {isDefault : Bool} {absent : α}
    (found : (Field.optional name isDefault content).FoundIn room r)
    (default : isDefault = true → x = absent)
    (reads : ∀ j, content.Within room j → read j = some x) :
    r.optional name absent read = some x := by
  rcases found with ⟨j, present, within⟩ | ⟨missing, isDefault⟩
  · have present : r.fields.lookup name = some j := present
    simp [Record.optional, present, reads j within]
  · have missing : r.fields.lookup name = none := missing
    simp [Record.optional, missing, default isDefault]

end Fields

end Polyscript.Json
