import Polyscript.Spelling.Statement

/-!
# Drafts that do the same

A draft may write a text in one piece or in several, and may write an empty text without any
effect. Drafts that differ in no more than that are alike: they do the same to every page and
break off with the same fault, and drafts put together from alike drafts are alike.
-/

namespace Polyscript

namespace Draft

/-- Whether two drafts do the same to every page. -/
structure Alike (d d' : Draft) : Prop where
  fault : d.fault = d'.fault
  on : ∀ p, d.on p = d'.on p

variable {a b c a' b' : Draft}

theorem Alike.refl (d : Draft) : d.Alike d := ⟨rfl, fun _ => rfl⟩

theorem Alike.symm (same : a.Alike b) : b.Alike a :=
  ⟨same.fault.symm, fun p => (same.on p).symm⟩

theorem Alike.trans (first : a.Alike b) (second : b.Alike c) : a.Alike c :=
  ⟨first.fault.trans second.fault, fun p => (first.on p).trans (second.on p)⟩

theorem Alike.append (first : a.Alike a') (second : b.Alike b') : (a ++ b).Alike (a' ++ b') := by
  cases broken : a.fault with
  | some fault =>
    rw [append_of_fault broken, append_of_fault (first.fault ▸ broken)]
    exact first
  | none =>
    have unbroken : a'.fault = none := first.fault ▸ broken
    refine ⟨?_, fun p => ?_⟩
    · rw [append_of_unbroken broken, append_of_unbroken unbroken]
      exact second.fault
    · rw [on_append broken, on_append unbroken, first.on, second.on]

theorem Alike.between (before after : Draft) (same : a.Alike a') :
    (before ++ a ++ after).Alike (before ++ a' ++ after) :=
  ((Alike.refl before).append same).append (Alike.refl after)

/-- Texts one after the other are one text. -/
theorem Alike.text_append {s s' : String} (first : a.Alike (text s)) (second : b.Alike (text s')) :
    (a ++ b).Alike (text (s ++ s')) :=
  (first.append second).trans ⟨rfl, fun p => (p.write_append s s').symm⟩

/-- A text without characters can be left out. -/
theorem alike_append_blank (d : Draft) : (d ++ text "").Alike d := by
  have blank : (text "").Alike empty := ⟨rfl, fun _ => rfl⟩
  have without := (Alike.refl d).append blank
  rwa [append_empty] at without

end Draft

namespace Target

/-- The text of the body of a lambda can be replaced by one that does the same. -/
theorem alike_lambda (t : Target) (params : List String) {body body' : Draft}
    (same : body.Alike body') : (t.lambda params (.lines body)).Alike
      (t.lambda params (.lines body')) := by
  have inside (first last : Draft) :
      (first ++ body.indented ++ last).Alike (first ++ body'.indented ++ last) :=
    (same.between _ _).between first last
  cases t with
  | kotlin => exact inside _ _
  | _ => exact (Draft.Alike.refl _).append (inside _ _)

end Target

end Polyscript
