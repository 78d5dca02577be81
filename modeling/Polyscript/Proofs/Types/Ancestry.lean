import Mathlib.Logic.Relation
import Polyscript.Types.Resolver

/-!
# The ancestry of classes

A class is a throwable when a chain of supertypes leads from it to the root of the throwables.
Classes may extend each other in a circle, reach one class in several ways or name supertypes that
nothing is known of, so the search for such a chain gives each class up once it has been visited.
No chain is lost by this: what is left of a chain behind the last class that is given up starts at
a supertype of that class, and the supertypes are still to be visited.

A search that keeps the classes it has seen, and looks them all up again, gives the same answer.
The classes that are pending in its course are the one it starts with and each supertype in the
table once at most, so it ends.

## Main definitions

* `ExtendsIn`, `Resolver.Extends`: a class names another one among its supertypes.
* `Resolver.search`: the search in rounds, with the classes that it has seen.

## Main statement

* `Resolver.isThrowable_iff`: the search ends, and finds the root where a chain leads to it.
-/

namespace Polyscript

open Relation (ReflTransGen)
open Source (ClassInfo)

/-- Whether a class is among the supertypes that a table has for another one. -/
def ExtendsIn (known : List (String × ClassInfo)) (name super : String) : Prop :=
  ∃ entry ∈ known.find? (·.1 == name), super ∈ entry.2.supertypes

variable {known : List (String × ClassInfo)} {current name root super : String}

/-- A class without an entry extends none. -/
theorem ExtendsIn.find?_ne_none (link : ExtendsIn known name super) :
    known.find? (·.1 == name) ≠ none := by
  obtain ⟨entry, found, -⟩ := link
  rw [Option.mem_def.1 found]
  exact Option.some_ne_none entry

/-! ### Chains that avoid a class -/

theorem find?_afterVisit_self (current : String) (known : List (String × ClassInfo)) :
    (afterVisit current known).find? (·.1 == current) = none := by
  simp [afterVisit]

theorem find?_afterVisit (other : name ≠ current) :
    (afterVisit current known).find? (·.1 == name) = known.find? (·.1 == name) := by
  rw [afterVisit, List.find?_filter]
  congr 1
  funext entry
  by_cases isName : entry.1 = name
  · simp [isName, other]
  · simp [isName]

theorem extends_afterVisit_iff :
    ExtendsIn (afterVisit current known) name super ↔ name ≠ current ∧ ExtendsIn known name super := by
  by_cases same : name = current
  · subst same
    exact iff_of_false (fun link => link.find?_ne_none (find?_afterVisit_self ..))
      (fun both => both.1 rfl)
  · simp only [ExtendsIn, find?_afterVisit same, same, ne_eq, not_false_eq_true, true_and]

/-- From a class without an entry no chain leads anywhere else. -/
theorem eq_of_chain (unknown : known.find? (·.1 == name) = none)
    (chain : ReflTransGen (ExtendsIn known) name root) : name = root := by
  rcases chain.cases_head with same | ⟨super, link, -⟩
  · exact same
  · exact absurd unknown link.find?_ne_none

/-- A chain either avoids a class or goes on, behind the last time it meets the class, from one
of its supertypes. -/
theorem chain_avoids {entry : String × ClassInfo}
    (found : known.find? (·.1 == current) = some entry)
    (chain : ReflTransGen (ExtendsIn known) name root) :
    ReflTransGen (ExtendsIn (afterVisit current known)) name root ∨
      ∃ super ∈ entry.2.supertypes,
        ReflTransGen (ExtendsIn (afterVisit current known)) super root := by
  -- from the end of the chain, so that the last time it meets the class is the first to be found
  induction chain using ReflTransGen.head_induction_on with
  | refl => exact .inl .refl
  | @head name super link _ ih =>
    rcases ih with avoids | later
    · by_cases same : name = current
      · subst same
        obtain ⟨entry', found', isSuper⟩ := link
        obtain rfl : entry = entry' := Option.some.inj (found.symm.trans found')
        exact .inr ⟨super, isSuper, avoids⟩
      · exact .inl (.head (extends_afterVisit_iff.2 ⟨same, link⟩) avoids)
    · exact .inr later

/-- A chain leads from a class or one of the pending ones to another class just where one that
avoids the class leads there from a supertype of the class or a pending one. -/
theorem exists_chain_afterVisit_iff {entry : String × ClassInfo} (notRoot : current ≠ root)
    (found : known.find? (·.1 == current) = some entry) (pending : List String) :
    (∃ name ∈ entry.2.supertypes.reverse ++ pending,
        ReflTransGen (ExtendsIn (afterVisit current known)) name root) ↔
      ∃ name ∈ current :: pending, ReflTransGen (ExtendsIn known) name root := by
  constructor
  · rintro ⟨name, mem, avoids⟩
    have chain : ReflTransGen (ExtendsIn known) name root :=
      ReflTransGen.mono (fun _ _ link => (extends_afterVisit_iff.1 link).2) _ _ avoids
    rcases List.mem_append.1 mem with isSuper | isPending
    · have link : ExtendsIn known current name := ⟨entry, found, List.mem_reverse.1 isSuper⟩
      exact ⟨current, List.mem_cons_self, chain.head link⟩
    · exact ⟨name, List.mem_cons_of_mem _ isPending, chain⟩
  · rintro ⟨name, mem, chain⟩
    rcases chain_avoids found chain with avoids | ⟨super, isSuper, avoids⟩
    · rcases List.mem_cons.1 mem with rfl | isPending
      · -- the class itself has no entry any more
        exact absurd (eq_of_chain (find?_afterVisit_self ..) avoids) notRoot
      · exact ⟨name, List.mem_append_right _ isPending, avoids⟩
    · exact ⟨super, List.mem_append_left _ (List.mem_reverse.2 isSuper), avoids⟩

/-! ### What the search finds -/

theorem reachesRoot_self (root : String) (known : List (String × ClassInfo))
    (pending : List String) : reachesRoot root known (root :: pending) := by
  rw [reachesRoot, if_pos rfl]

theorem reachesRoot_of_unknown (notRoot : current ≠ root)
    (unknown : known.find? (·.1 == current) = none) (pending : List String) :
    reachesRoot root known (current :: pending) = reachesRoot root known pending := by
  rw [reachesRoot, if_neg notRoot]
  split
  next => rfl
  next found => exact absurd (unknown.symm.trans found) (by simp)

theorem reachesRoot_of_known {entry : String × ClassInfo} (notRoot : current ≠ root)
    (found : known.find? (·.1 == current) = some entry) (pending : List String) :
    reachesRoot root known (current :: pending) =
      reachesRoot root (afterVisit current known) (entry.2.supertypes.reverse ++ pending) := by
  rw [reachesRoot, if_neg notRoot]
  split
  next unknown => exact absurd (found.symm.trans unknown) (by simp)
  next found' =>
    obtain rfl := Option.some.inj (found.symm.trans found')
    rfl

/-- The search finds the root just where a chain leads to it from one of the pending classes. -/
theorem reachesRoot_iff (root : String) (known : List (String × ClassInfo))
    (pending : List String) :
    reachesRoot root known pending ↔
      ∃ name ∈ pending, ReflTransGen (ExtendsIn known) name root := by
  induction known, pending using reachesRoot.induct root with
  | case1 known => simp [reachesRoot]
  | case2 known pending =>
    exact iff_of_true (reachesRoot_self ..) ⟨root, List.mem_cons_self, .refl⟩
  | case3 known current pending notRoot unknown ih =>
    rw [reachesRoot_of_unknown notRoot unknown, ih]
    constructor
    · rintro ⟨name, mem, chain⟩
      exact ⟨name, List.mem_cons_of_mem _ mem, chain⟩
    · rintro ⟨name, mem, chain⟩
      rcases List.mem_cons.1 mem with rfl | isPending
      · exact absurd (eq_of_chain unknown chain) notRoot
      · exact ⟨name, isPending, chain⟩
  | case4 known current pending notRoot key info found ih =>
    rw [reachesRoot_of_known notRoot found, ih, exists_chain_afterVisit_iff notRoot found]

/-! ### The search in rounds -/

namespace Resolver

/-- The search for the root of the throwables, with the classes seen so far and those that are
pending, and no answer if it has not ended after a number of rounds. -/
def search (r : Resolver) : Nat → List String → List String → Option Bool
  | 0, _, _ => none
  | _ + 1, _, [] => some false
  | rounds + 1, seen, current :: pending =>
    if current = r.names.throwableClass then some true
    else if current ∈ seen then r.search rounds seen pending
    else
      match r.program.class? current with
      | none => r.search rounds (current :: seen) pending
      | some info => r.search rounds (current :: seen) (info.supertypes.reverse ++ pending)

/-- How many supertypes a table has, of all classes together. -/
def supertypeCount : List (String × ClassInfo) → Nat
  | [] => 0
  | (_, info) :: rest => info.supertypes.length + supertypeCount rest

theorem supertypeCount_afterVisit_le (current : String) (known : List (String × ClassInfo)) :
    supertypeCount (afterVisit current known) ≤ supertypeCount known := by
  induction known with
  | nil => exact Nat.le_refl 0
  | cons entry rest ih =>
    by_cases same : entry.1 = current
    · have dropped : afterVisit current (entry :: rest) = afterVisit current rest := by
        simp [afterVisit, same]
      rw [dropped]
      exact Nat.le_trans ih (Nat.le_add_left ..)
    · have kept : afterVisit current (entry :: rest) = entry :: afterVisit current rest := by
        simp [afterVisit, same]
      rw [kept]
      exact Nat.add_le_add_left ih _

/-- The supertypes of a class are counted no longer once it has been visited. -/
theorem supertypeCount_afterVisit {entry : String × ClassInfo}
    (found : known.find? (·.1 == current) = some entry) :
    entry.2.supertypes.length + supertypeCount (afterVisit current known) ≤
      supertypeCount known := by
  induction known with
  | nil => cases found
  | cons first rest ih =>
    by_cases same : first.1 = current
    · have dropped : afterVisit current (first :: rest) = afterVisit current rest := by
        simp [afterVisit, same]
      obtain rfl : first = entry := by simpa [same] using found
      rw [dropped]
      exact Nat.add_le_add_left (supertypeCount_afterVisit_le current rest) _
    · have kept : afterVisit current (first :: rest) = first :: afterVisit current rest := by
        simp [afterVisit, same]
      have further := ih (by simpa [same] using found)
      rw [kept]
      simp only [supertypeCount]
      omega

variable (r : Resolver) {seen : List String}

/-- The entries of the classes that a search has not seen. -/
def unseen (seen : List String) : List (String × ClassInfo) :=
  r.program.classes.entries.filter (·.1 ∉ seen)

theorem unseen_nil : r.unseen [] = r.program.classes.entries := by
  simp [unseen]

theorem unseen_cons (current : String) (seen : List String) :
    r.unseen (current :: seen) = afterVisit current (r.unseen seen) := by
  rw [unseen, unseen, afterVisit, List.filter_filter]
  refine List.filter_congr fun entry _ => ?_
  rw [Bool.eq_iff_iff]
  simp

theorem find?_unseen_of_mem (isSeen : current ∈ seen) :
    (r.unseen seen).find? (·.1 == current) = none := by
  simp only [unseen, List.find?_eq_none, List.mem_filter, beq_iff_eq]
  rintro entry ⟨-, isUnseen⟩ rfl
  simp [isSeen] at isUnseen

/-- What is known of a class that has not been seen is in its entry. -/
theorem class?_eq (isUnseen : current ∉ seen) :
    r.program.class? current = ((r.unseen seen).find? (·.1 == current)).map Prod.snd := by
  rw [Source.Program.class?, Table.find?, unseen, List.find?_filter]
  congr 2
  funext entry
  rw [Bool.eq_iff_iff, beq_iff_eq, Std.compare_eq_iff_eq]
  by_cases same : entry.1 = current <;> simp [same, isUnseen]

/-- A class without an entry is given up without a change. -/
theorem afterVisit_of_unknown (unknown : known.find? (·.1 == current) = none) :
    afterVisit current known = known := by
  rw [List.find?_eq_none] at unknown
  exact List.filter_eq_self.2 fun entry mem => by simpa using unknown entry mem

/-- The search in rounds gives the answer of the search that gives classes up, after as many
rounds as classes can still become pending. -/
theorem search_eq (rounds : Nat) (seen pending : List String)
    (enough : supertypeCount (r.unseen seen) + pending.length < rounds) :
    r.search rounds seen pending =
      some (reachesRoot r.names.throwableClass (r.unseen seen) pending) := by
  induction rounds generalizing seen pending with
  | zero => exact absurd enough (Nat.not_lt_zero _)
  | succ rounds ih =>
    cases pending with
    | nil => simp [search, reachesRoot]
    | cons current pending =>
      rw [List.length_cons] at enough
      rw [search]
      by_cases isRoot : current = r.names.throwableClass
      · rw [if_pos isRoot, isRoot, reachesRoot_self]
      rw [if_neg isRoot]
      by_cases isSeen : current ∈ seen
      · -- a class that has been seen is one whose entry is gone
        rw [if_pos isSeen, reachesRoot_of_unknown isRoot (r.find?_unseen_of_mem isSeen)]
        exact ih seen pending (by omega)
      rw [if_neg isSeen, r.class?_eq isSeen]
      cases found : (r.unseen seen).find? (·.1 == current) with
      | none =>
        -- it is kept as seen all the same, which takes no entry away
        have same : r.unseen (current :: seen) = r.unseen seen := by
          rw [unseen_cons, afterVisit_of_unknown found]
        rw [reachesRoot_of_unknown isRoot found, ← same]
        exact ih (current :: seen) pending (by rw [same]; omega)
      | some entry =>
        -- its supertypes become pending and are counted in the table no longer
        have fewer := supertypeCount_afterVisit found
        rw [reachesRoot_of_known isRoot found, ← unseen_cons]
        refine ih (current :: seen) (entry.2.supertypes.reverse ++ pending) ?_
        rw [unseen_cons, List.length_append, List.length_reverse]
        omega

/-- Whether the tables of a program have a class among the supertypes of another one. -/
def Extends (name super : String) : Prop :=
  ∃ info ∈ r.program.class? name, super ∈ info.supertypes

theorem extends_iff (name super : String) :
    r.Extends name super ↔ ExtendsIn r.program.classes.entries name super := by
  have known : r.program.class? name =
      (r.program.classes.entries.find? (·.1 == name)).map Prod.snd := by
    rw [← r.unseen_nil]
    exact r.class?_eq List.not_mem_nil
  rw [Extends, ExtendsIn, known]
  cases r.program.classes.entries.find? (·.1 == name) <;> simp

/-- The search for the root of the throwables ends, within as many rounds as there are supertypes
in the table and two more, and a class is found to be a throwable just where a chain of classes,
each among the supertypes of the one before, leads from it to the root. -/
theorem isThrowable_iff (name : String) :
    r.search (supertypeCount r.program.classes.entries + 2) [] [name] =
        some (r.isThrowable name) ∧
      (r.isThrowable name ↔ ReflTransGen r.Extends name r.names.throwableClass) := by
  constructor
  · rw [r.search_eq _ [] [name] (by rw [unseen_nil, List.length_singleton]; omega), unseen_nil]
    rfl
  · have same : r.Extends = ExtendsIn r.program.classes.entries := by
      funext name super
      exact propext (r.extends_iff name super)
    rw [isThrowable, reachesRoot_iff, same]
    simp only [List.mem_singleton, exists_eq_left]

end Resolver

end Polyscript
