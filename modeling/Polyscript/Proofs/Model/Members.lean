import Mathlib.Data.List.Induction
import Mathlib.Data.List.Nodup
import Polyscript.Model.Operation
import Polyscript.Proofs.Model.Rejection

/-!
# Members of object literals

The members of an object literal are changed one name at a time: a value is set under a name, in
place of what was there, or added to the sequence of a name. The other members stay, and a name
that is new comes last. So the names are told apart and stand in the order in which they first
came up, and what is found under a name depends only on the changes of that name.

A value that is added goes behind the values of a sequence. But it displaces a value that was set,
so that such a value is lost without another one set in its place.

## Main definitions

* `Update`, `Update.apply`: a change of the members.
* `Member.named?`, `Member.held`: the member of a name and its values.
* `Update.IsReplaced`, `Update.IsLost`: what later changes do to a value.

## Main statements

* `Update.names_applyAll`: the names after changes from no members on.
* `Update.named?_applyAll_of_isSet`: the member of a name after values are set.
* `Update.held_applyAll`: the values of a name after changes.
* `Update.left_isLost_eq_iff`: when no value is lost but those that are replaced.
-/

namespace Polyscript.Model

namespace Member

/-- Whether a member has one value of its own and is no sequence. -/
def isSingle : Member → Bool
  | .single .. => true
  | .sequence .. => false

/-- The member of a name. -/
def named? (name : String) (members : List Member) : Option Member :=
  members.find? (·.name = name)

/-- The values that members hold under a name. -/
def held (name : String) (members : List Member) : List Expr :=
  ((named? name members).map values).getD []

end Member

/-- A change of the members of an object. -/
inductive Update where
  | set (name : String) (value : Expr)
  | add (name : String) (value : Expr)

namespace Update

/-- The name under which members are changed. -/
def name : Update → String
  | .set name _ | .add name _ => name

/-- The value that is set or added. -/
def value : Update → Expr
  | .set _ value | .add _ value => value

/-- Whether a value is set in place of what was there. -/
def isSet : Update → Bool
  | .set .. => true
  | .add .. => false

/-- The members after a change. -/
def apply (members : List Member) : Update → List Member
  | .set name value => insertMember (.single name value) members
  | .add name value => appendMember name value members

/-- The members after changes, one after the other. -/
def applyAll (members : List Member) (updates : List Update) : List Member :=
  updates.foldl apply members

/-- What becomes of the member whose name is changed. -/
def change (found : Option Member) : Update → Member
  | .set name value => .single name value
  | .add name value =>
    match found with
    | some (.sequence _ values) => .sequence name (values ++ [value])
    | _ => .sequence name [value]

theorem applyAll_cons (members : List Member) (u : Update) (later : List Update) :
    applyAll members (u :: later) = applyAll (u.apply members) later :=
  rfl

theorem applyAll_concat (members : List Member) (earlier : List Update) (u : Update) :
    applyAll members (earlier ++ [u]) = u.apply (applyAll members earlier) :=
  List.foldl_concat _ _ _ _

@[simp] theorem name_set (own : String) (v : Expr) : (set own v).name = own := rfl

@[simp] theorem name_add (own : String) (v : Expr) : (add own v).name = own := rfl

@[simp] theorem value_set (own : String) (v : Expr) : (set own v).value = v := rfl

@[simp] theorem value_add (own : String) (v : Expr) : (add own v).value = v := rfl

@[simp] theorem isSet_set (own : String) (v : Expr) : (set own v).isSet := rfl

@[simp] theorem isSet_add (own : String) (v : Expr) : (add own v).isSet = false := rfl

variable {members : List Member}

/-! ### Names -/

/-- Setting a value leaves the names as they are, or puts a new one behind them. -/
theorem names_insertMember (member : Member) (members : List Member) :
    (insertMember member members).map Member.name =
      if member.name ∈ members.map Member.name then members.map Member.name
      else members.map Member.name ++ [member.name] := by
  induction members with
  | nil => rfl
  | cons m rest ih =>
    unfold insertMember
    by_cases same : m.name = member.name
    · simp [same]
    · simp only [same, if_false, List.map_cons, ih, List.mem_cons, Ne.symm same, false_or]
      split <;> rfl

theorem names_appendMember (name : String) (value : Expr) (members : List Member) :
    (appendMember name value members).map Member.name =
      if name ∈ members.map Member.name then members.map Member.name
      else members.map Member.name ++ [name] := by
  induction members with
  | nil => rfl
  | cons m rest ih =>
    unfold appendMember
    by_cases same : m.name = name
    · cases m <;> simp_all [Member.name]
    · simp only [same, if_false, List.map_cons, ih, List.mem_cons, Ne.symm same, false_or]
      split <;> rfl

theorem names_apply (members : List Member) (u : Update) :
    (u.apply members).map Member.name =
      if u.name ∈ members.map Member.name then members.map Member.name
      else members.map Member.name ++ [u.name] := by
  cases u with
  | set name value => exact names_insertMember (.single name value) members
  | add name value => exact names_appendMember name value members

theorem nodup_of_new {names : List String} (distinct : names.Nodup) (name : String) :
    (if name ∈ names then names else names ++ [name]).Nodup := by
  split
  · exact distinct
  · next isNew => exact List.concat_eq_append ▸ List.Nodup.concat isNew distinct

/-- No value that is set makes a name come up twice. -/
theorem nodup_names_insertMember (distinct : (members.map Member.name).Nodup) (member : Member) :
    ((insertMember member members).map Member.name).Nodup := by
  rw [names_insertMember]
  exact nodup_of_new distinct member.name

/-- Nor does a value that is added. -/
theorem nodup_names_appendMember (distinct : (members.map Member.name).Nodup) (name : String)
    (value : Expr) : ((appendMember name value members).map Member.name).Nodup := by
  rw [names_appendMember]
  exact nodup_of_new distinct name

theorem eraseDups_concat (names : List String) (name : String) :
    (names ++ [name]).eraseDups =
      if name ∈ names then names.eraseDups else names.eraseDups ++ [name] := by
  rw [List.eraseDups_append]
  by_cases known : name ∈ names <;> simp [List.removeAll, known, List.eraseDups_cons]

/-- The names stand in the order in which they first came up. -/
theorem names_applyAll (updates : List Update) :
    (applyAll [] updates).map Member.name = (updates.map Update.name).eraseDups := by
  induction updates using List.reverseRecOn with
  | nil => rfl
  | append_singleton earlier u ih =>
    rw [applyAll_concat, names_apply, ih, List.map_append, List.map_cons, List.map_nil,
      eraseDups_concat]
    simp only [List.mem_eraseDups]

/-! ### The member of a name -/

theorem named?_cons (name : String) (m : Member) (rest : List Member) :
    Member.named? name (m :: rest) = if m.name = name then some m else Member.named? name rest := by
  rw [Member.named?, List.find?_cons]
  by_cases same : m.name = name <;> simp [same, Member.named?]

theorem named?_insertMember (name : String) (member : Member) (members : List Member) :
    Member.named? name (insertMember member members) =
      if member.name = name then some member else Member.named? name members := by
  induction members with
  | nil => exact named?_cons name member []
  | cons m rest ih =>
    unfold insertMember
    by_cases same : m.name = member.name
    · by_cases isName : member.name = name <;> simp [same, named?_cons, isName]
    · rw [if_neg same, named?_cons, named?_cons, ih]
      by_cases isName : member.name = name
      · simp [isName ▸ same, isName]
      · simp [isName]

theorem named?_appendMember (name own : String) (value : Expr) (members : List Member) :
    Member.named? name (appendMember own value members) =
      if own = name then some (change (Member.named? name members) (.add own value))
      else Member.named? name members := by
  induction members with
  | nil => exact named?_cons name (.sequence own [value]) []
  | cons m rest ih =>
    unfold appendMember
    by_cases same : m.name = own
    · -- whether the member is a sequence decides what it becomes
      subst same
      by_cases isName : m.name = name
      · cases m <;> simp_all [named?_cons, Member.name, change]
      · cases m <;> simp_all [named?_cons, Member.name]
    · rw [if_neg same, named?_cons, named?_cons, ih]
      by_cases isName : own = name
      · simp [isName ▸ same, isName]
      · simp [isName]

/-- A change concerns the member of its name and no other one. -/
theorem named?_apply (name : String) (members : List Member) (u : Update) :
    Member.named? name (u.apply members) =
      if u.name = name then some (u.change (Member.named? name members))
      else Member.named? name members := by
  cases u with
  | set own value => exact named?_insertMember name (.single own value) members
  | add own value => exact named?_appendMember name own value members

/-- The last value that is set under a name is what is found there. -/
theorem named?_applyAll_of_isSet {updates : List Update} (sets : ∀ u ∈ updates, u.isSet)
    (name : String) :
    Member.named? name (applyAll [] updates) =
      (updates.reverse.find? (·.name = name)).map fun u => .single name u.value := by
  induction updates using List.reverseRecOn with
  | nil => rfl
  | append_singleton earlier u ih =>
    have isSet := sets u (by simp)
    rw [applyAll_concat, named?_apply, List.reverse_concat, List.find?_cons,
      ih fun w mem => sets w (List.mem_append_left _ mem)]
    cases u with
    | set own value =>
      by_cases isName : own = name
      · subst isName
        simp [Update.name, change, Update.value]
      · simp [Update.name, isName]
    | add own value => cases isSet

/-! ### What becomes of values -/

/-- A later change of the same name sets a value in place of what was there. -/
def IsReplaced (later : List Update) (u : Update) : Prop :=
  ∃ w ∈ later, w.name = u.name ∧ w.isSet

/-- There is a later change of the same name, and one of the two sets a value. -/
def IsLost (later : List Update) (u : Update) : Prop :=
  ∃ w ∈ later, w.name = u.name ∧ (u.isSet ∨ w.isSet)

instance (later : List Update) (u : Update) : Decidable (u.IsReplaced later) :=
  inferInstanceAs (Decidable (∃ w ∈ later, _))

instance (later : List Update) (u : Update) : Decidable (u.IsLost later) :=
  inferInstanceAs (Decidable (∃ w ∈ later, _))

/-- The values that are set or added under a name, without those that are gone by what comes
later. -/
def left (gone : List Update → Update → Prop) [∀ later u, Decidable (gone later u)]
    (name : String) : List Update → List Expr
  | [] => []
  | u :: later =>
    if u.name = name ∧ ¬gone later u then u.value :: left gone name later
    else left gone name later

theorem IsReplaced.isLost {later : List Update} {u : Update} (replaced : u.IsReplaced later) :
    u.IsLost later := by
  obtain ⟨w, mem, same, isSet⟩ := replaced
  exact ⟨w, mem, same, .inr isSet⟩

/-- A value that is lost and not replaced was set, and others were added to its name. -/
theorem IsLost.isReplaced_iff {later : List Update} {u : Update} :
    (u.IsLost later → u.IsReplaced later) ↔
      (u.isSet → (∃ w ∈ later, w.name = u.name ∧ !w.isSet) → u.IsReplaced later) := by
  constructor
  · rintro onlyReplaced isSet ⟨w, mem, same, -⟩
    exact onlyReplaced ⟨w, mem, same, .inl isSet⟩
  · rintro onlyReplaced ⟨w, mem, same, isSet⟩
    by_cases sets : w.isSet
    · exact ⟨w, mem, same, sets⟩
    · exact onlyReplaced (isSet.resolve_right sets) ⟨w, mem, same, by simpa using sets⟩

/-- The values that are left of a member when its name is changed. -/
def leftOf (found : Option Member) (name : String) (updates : List Update) : List Expr :=
  match found with
  | none => []
  | some m => if ∃ w ∈ updates, w.name = name ∧ (m.isSingle ∨ w.isSet) then [] else m.values

/-- A change leaves of a member what it adds to, and leaves its own value until that is lost. -/
theorem leftOf_change (found : Option Member) (u : Update) (later : List Update) :
    leftOf (some (u.change found)) u.name later =
      leftOf found u.name (u :: later) ++ if u.IsLost later then [] else [u.value] := by
  cases u with
  | set name value =>
    have displaced : leftOf found name (.set name value :: later) = [] := by
      cases found <;> simp [leftOf]
    rw [name_set, displaced]
    simp [leftOf, change, IsLost, Member.isSingle, Member.values]
  | add name value =>
    -- a sequence and the value added to it are gone together, by a later value that is set
    by_cases gone : ∃ w ∈ later, w.name = name ∧ w.isSet <;>
      rcases found with _ | ⟨_, old⟩ | ⟨_, values⟩ <;>
        simp [leftOf, change, IsLost, Member.isSingle, Member.values, gone]

/-- What is held after changes is what they leave of the member that was there, and after it the
values that are not lost. -/
theorem held_applyAll_append (members : List Member) (name : String) (updates : List Update) :
    Member.held name (applyAll members updates) =
      leftOf (Member.named? name members) name updates ++ left IsLost name updates := by
  induction updates generalizing members with
  | nil =>
    simp only [applyAll, List.foldl_nil, left, List.append_nil, leftOf, Member.held]
    cases Member.named? name members <;> simp
  | cons u later ih =>
    rw [applyAll_cons, ih, named?_apply, left]
    by_cases isName : u.name = name
    · subst isName
      rw [if_pos rfl, leftOf_change, List.append_assoc]
      by_cases lost : u.IsLost later <;> simp [lost]
    · have unchanged : leftOf (Member.named? name members) name (u :: later) =
          leftOf (Member.named? name members) name later := by
        cases Member.named? name members <;> simp [leftOf, isName]
      simp [isName, unchanged]

/-- What is held after changes from no members on are the values that are not lost, in order. -/
theorem held_applyAll (name : String) (updates : List Update) :
    Member.held name (applyAll [] updates) = left IsLost name updates :=
  held_applyAll_append [] name updates

theorem length_left_isLost_le (name : String) (updates : List Update) :
    (left IsLost name updates).length ≤ (left IsReplaced name updates).length := by
  induction updates with
  | nil => exact Nat.le_refl 0
  | cons u later ih =>
    have := @IsReplaced.isLost later u
    grind [left]

theorem forall_split_cons {p : Update → List Update → Prop} {u : Update} {later : List Update} :
    (∀ before w rest, u :: later = before ++ w :: rest → p w rest) ↔
      p u later ∧ ∀ before w rest, later = before ++ w :: rest → p w rest := by
  constructor
  · intro all
    exact ⟨all [] u later rfl, fun before w rest isLater =>
      all (u :: before) w rest (by rw [isLater, List.cons_append])⟩
  · rintro ⟨first, others⟩ before w rest isSplit
    cases before with
    | nil =>
      obtain ⟨rfl, rfl⟩ := List.cons.inj isSplit
      exact first
    | cons b before => exact others before w rest (List.cons.inj isSplit).2

/-- The same values are left if only replaced values are taken for gone just when every value that
is lost is replaced. -/
theorem left_isLost_eq_iff (name : String) (updates : List Update) :
    left IsLost name updates = left IsReplaced name updates ↔
      ∀ before u later, updates = before ++ u :: later →
        u.name = name → u.IsLost later → u.IsReplaced later := by
  induction updates with
  | nil => simp [left]
  | cons u later ih =>
    rw [forall_split_cons (p := fun w rest => w.name = name → w.IsLost rest → w.IsReplaced rest),
      ← ih, left, left]
    have shorter := length_left_isLost_le name later
    by_cases isName : u.name = name
    · by_cases replaced : u.IsReplaced later
      · simp [replaced, replaced.isLost]
      · by_cases lost : u.IsLost later
        · -- the value is left only if it takes being replaced to be gone
          simp only [isName, lost, replaced, not_true_eq_false, and_false, not_false_eq_true,
            and_self, if_true, if_false]
          constructor
          · intro same
            rw [same, List.length_cons] at shorter
            omega
          · intro absurd
            cases absurd.1 trivial trivial
        · simp [isName, lost, replaced]
    · simp [isName]

end Update

end Polyscript.Model
