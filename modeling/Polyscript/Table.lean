/-!
# Tables in key order

A table maps keys to values and lists its entries by increasing key, each key
once. The order is part of the type, so two tables with the same entries are
equal, and writing a table out needs no sorting.

`insert` replaces the value of a key that is present; reading a list of entries
with `ofList` therefore keeps the last value given for each key.
-/

namespace Polyscript

/-- Two entries stand in key order. -/
abbrev InKeyOrder {κ α : Type} [Ord κ] (a b : κ × α) : Prop := compare a.1 b.1 = .lt

/-- A finite map whose entries are listed by strictly increasing key. -/
structure Table (κ α : Type) [Ord κ] where
  entries : List (κ × α)
  sorted : entries.Pairwise InKeyOrder

namespace Table

variable {κ α : Type} [Ord κ]

/-- The table without entries. -/
def empty : Table κ α := ⟨[], .nil⟩

instance : Inhabited (Table κ α) := ⟨empty⟩

instance : EmptyCollection (Table κ α) := ⟨empty⟩

/-- The value stored under a key. -/
def find? (t : Table κ α) (k : κ) : Option α :=
  (t.entries.find? fun e => compare e.1 k == .eq).map Prod.snd

/-- The largest key. -/
def lastKey? (t : Table κ α) : Option κ :=
  t.entries.getLast?.map Prod.fst

/-- Put an entry where its key belongs, in the place of an entry of the same key. -/
def insertEntry (k : κ) (v : α) : List (κ × α) → List (κ × α)
  | [] => [(k, v)]
  | e :: rest =>
    match compare k e.1 with
    | .lt => (k, v) :: e :: rest
    | .eq => (k, v) :: rest
    | .gt => e :: insertEntry k v rest

theorem mem_insertEntry {k : κ} {v : α} {e : κ × α} :
    ∀ {entries : List (κ × α)}, e ∈ insertEntry k v entries → e = (k, v) ∨ e ∈ entries
  | [], h => by simpa [insertEntry] using h
  | e' :: rest, h => by
    unfold insertEntry at h
    split at h
    · simpa using h
    · rcases List.mem_cons.1 h with rfl | h
      · exact .inl rfl
      · exact .inr (List.mem_cons_of_mem _ h)
    · rcases List.mem_cons.1 h with rfl | h
      · exact .inr (List.mem_cons_self ..)
      · exact (mem_insertEntry h).imp id (List.mem_cons_of_mem _)

theorem sorted_insertEntry [Std.TransOrd κ] {k : κ} {v : α} :
    ∀ {entries : List (κ × α)}, entries.Pairwise InKeyOrder →
      (insertEntry k v entries).Pairwise InKeyOrder
  | [], _ => List.pairwise_singleton ..
  | e :: rest, h => by
    have ⟨below, tail⟩ := List.pairwise_cons.1 h
    unfold insertEntry
    split
    next hk =>
      refine List.pairwise_cons.2 ⟨fun e' he' => ?_, h⟩
      rcases List.mem_cons.1 he' with rfl | he'
      · exact hk
      · exact Std.TransCmp.lt_trans hk (below e' he')
    next hk =>
      exact List.pairwise_cons.2
        ⟨fun e' he' => Std.TransCmp.lt_of_eq_of_lt hk (below e' he'), tail⟩
    next hk =>
      refine List.pairwise_cons.2 ⟨fun e' he' => ?_, sorted_insertEntry tail⟩
      rcases mem_insertEntry he' with rfl | he'
      · exact Std.OrientedCmp.lt_of_gt hk
      · exact below e' he'

variable [Std.TransOrd κ]

/-- Store a value under a key; an earlier value of the key is replaced. -/
def insert (t : Table κ α) (k : κ) (v : α) : Table κ α :=
  ⟨insertEntry k v t.entries, sorted_insertEntry t.sorted⟩

/-- After an insertion its key leads to the new value, and any other key to what it led
to before. -/
theorem find?_insert (t : Table κ α) (k k' : κ) (v : α) :
    (t.insert k v).find? k' = if compare k k' = .eq then some v else t.find? k' := by
  obtain ⟨entries, sorted⟩ := t
  simp only [insert, find?]
  clear sorted
  induction entries with
  | nil =>
    by_cases same : compare k k' = .eq <;> simp [insertEntry, same]
  | cons e rest ih =>
    unfold insertEntry
    split
    next => by_cases same : compare k k' = .eq <;> simp [same]
    next hk =>
      by_cases same : compare k k' = .eq
      · simp [same]
      · have other : compare e.1 k' ≠ .eq := fun h => same (Std.TransCmp.eq_trans hk h)
        simp [same, other]
    next hk =>
      by_cases here : compare e.1 k' = .eq
      · have other : compare k k' ≠ .eq := fun h => by
          have := Std.TransCmp.eq_trans h (Std.OrientedCmp.eq_symm here)
          simp [this] at hk
        simp [here, other]
      · simpa [here] using ih

/-- The table of a list of entries, in which the last entry of a key counts. -/
def ofList (entries : List (κ × α)) : Table κ α :=
  entries.foldl (fun t e => t.insert e.1 e.2) empty

/-- An entry whose key is above all others comes last. -/
theorem insertEntry_of_above {k : κ} {v : α} {entries : List (κ × α)}
    (above : ∀ e ∈ entries, compare e.1 k = .lt) :
    insertEntry k v entries = entries ++ [(k, v)] := by
  induction entries with
  | nil => rfl
  | cons e rest ih =>
    obtain ⟨here, further⟩ := List.forall_mem_cons.1 above
    have below : compare k e.1 = .gt := Std.OrientedCmp.gt_of_lt here
    simp only [insertEntry, below, ih further, List.cons_append]

/-- The entries of a table make up the table. -/
theorem ofList_entries (t : Table κ α) : ofList t.entries = t := by
  have more (before after : List (κ × α)) (sorted : (before ++ after).Pairwise InKeyOrder)
      (first : before.Pairwise InKeyOrder) :
      after.foldl (fun t e => t.insert e.1 e.2) (⟨before, first⟩ : Table κ α) =
        ⟨before ++ after, sorted⟩ := by
    induction after generalizing before with
    | nil => simp
    | cons e rest ih =>
      have above : ∀ e' ∈ before, compare e'.1 e.1 = .lt := fun e' mem =>
        (List.pairwise_append.1 sorted).2.2 e' mem e (List.mem_cons_self ..)
      have inserted : (⟨before, first⟩ : Table κ α).insert e.1 e.2 =
          ⟨before ++ [e], (insertEntry_of_above above) ▸ sorted_insertEntry first⟩ := by
        simp only [insert, insertEntry_of_above above]
      rw [List.foldl_cons, inserted]
      simpa using ih (before ++ [e]) (by simpa using sorted) _
  exact more [] t.entries t.sorted .nil

end Table

end Polyscript
