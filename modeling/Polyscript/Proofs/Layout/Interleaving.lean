import Mathlib.Data.List.Perm.Basic

/-!
# Interleaved lists

A list interleaves others when it consists of their elements, each list keeping its own order.

## Main definitions

* `Merges`: a list that interleaves two lists.
* `Interleaves`: a list that interleaves any number of lists.
-/

namespace Polyscript

variable {α ι : Type}

/-- A list that takes its elements from two others, of which each keeps its order. -/
inductive Merges : List α → List α → List α → Prop where
  | nil : Merges [] [] []
  | left {l k m : List α} (a : α) (h : Merges l k m) : Merges (a :: l) k (a :: m)
  | right {l k m : List α} (a : α) (h : Merges l k m) : Merges l (a :: k) (a :: m)

namespace Merges

variable {l k m l' k' m' : List α}

theorem nil_left (m : List α) : Merges [] m m := by
  induction m with
  | nil => exact .nil
  | cons a rest ih => exact .right a ih

theorem nil_right (m : List α) : Merges m [] m := by
  induction m with
  | nil => exact .nil
  | cons a rest ih => exact .left a ih

theorem append (first : Merges l k m) (second : Merges l' k' m') :
    Merges (l ++ l') (k ++ k') (m ++ m') := by
  induction first with
  | nil => exact second
  | left a _ ih => exact .left a ih
  | right a _ ih => exact .right a ih

/-- Which of two lists is merged first makes no difference. -/
theorem exchange {n : List α} (outer : Merges l k m) (inner : Merges l' n k) :
    ∃ k', Merges l n k' ∧ Merges l' k' m := by
  induction outer generalizing l' n with
  | nil =>
    cases inner
    exact ⟨[], .nil, .nil⟩
  | left a _ ih =>
    obtain ⟨k', first, second⟩ := ih inner
    exact ⟨a :: k', .left a first, .right a second⟩
  | right a _ ih =>
    cases inner with
    | left _ inner =>
      obtain ⟨k', first, second⟩ := ih inner
      exact ⟨k', first, .left a second⟩
    | right _ inner =>
      obtain ⟨k', first, second⟩ := ih inner
      exact ⟨a :: k', .right a first, .right a second⟩

end Merges

/-- A list that takes its elements from other lists, of which each keeps its order. -/
inductive Interleaves : List (List α) → List α → Prop where
  | nil : Interleaves [] []
  | cons {l k m : List α} {ls : List (List α)} (merges : Merges l k m)
    (rest : Interleaves ls k) : Interleaves (l :: ls) m

namespace Interleaves

variable {ls ks : List (List α)} {l k m : List α}

theorem append (first : Interleaves ls m) (second : Interleaves ks k) :
    Interleaves (ls ++ ks) (m ++ k) := by
  induction first with
  | nil => exact second
  | cons merges _ ih =>
    have merged := merges.append (.nil_left k)
    rw [List.append_nil] at merged
    exact .cons merged ih

theorem singleton (m : List α) : Interleaves [m] m := .cons (.nil_right m) .nil

/-- Two lists that interleave a first list and others, with the two first lists put together. -/
theorem append_head {l' : List α} (first : Interleaves (l :: ls) m)
    (second : Interleaves (l' :: ks) k) : Interleaves ((l ++ l') :: (ls ++ ks)) (m ++ k) := by
  cases first with
  | cons merges rest =>
    cases second with
    | cons merges' rest' => exact .cons (merges.append merges') (rest.append rest')

theorem flatMap {is : List ι} {f : ι → List (List α)} {g : ι → List α}
    (h : ∀ i ∈ is, Interleaves (f i) (g i)) : Interleaves (is.flatMap f) (is.flatMap g) := by
  induction is with
  | nil => exact .nil
  | cons i rest ih =>
    obtain ⟨first, others⟩ := List.forall_mem_cons.1 h
    exact first.append (ih others)

/-- The order of the lists makes no difference. -/
theorem perm (same : ls.Perm ks) (h : Interleaves ls m) : Interleaves ks m := by
  induction same generalizing m with
  | nil => exact h
  | cons l _ ih =>
    cases h with
    | cons merges rest => exact .cons merges (ih rest)
  | swap l l' ls =>
    cases h with
    | cons outer rest =>
      cases rest with
      | cons inner rest =>
        obtain ⟨k, first, second⟩ := outer.exchange inner
        exact .cons second (.cons first rest)
  | trans _ _ ih ih' => exact ih' (ih h)

end Interleaves

end Polyscript
