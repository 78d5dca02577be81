import Polyscript.Proofs.Layout.Steady
import Polyscript.Proofs.Spelling.Congruence

/-!
# Counting literals, and being told of them

A draft that marks the ends of its literals is meant for a writer, which counts the open ones;
a draft that is told whether it stands inside a literal is meant for a page alone. Both write
the same if the writer's count agrees with what the draft was told.
-/

namespace Polyscript

/-- A writer does for a draft what a page does for another draft that is told whether it
stands inside a literal. Only in Kotlin has the writer's count to agree with that. -/
structure Draft.Counts (t : Target) (inside : Bool) (d d' : Draft) : Prop where
  fault : d.fault = d'.fault
  keepsLevel : d.KeepsLevel
  page : ∀ w : Writer, (t = .kotlin → (0 < w.jsonLevel ↔ inside = true)) →
    (d.writtenBy w).page = d'.on w.page

namespace Draft

variable {t : Target} {inside : Bool} {d d' e e' : Draft}

/-- What begins or ends no literal is done alike. -/
theorem Counts.mark {m : Mark} (noBegin : m ≠ .enterJson) (noEnd : m ≠ .leaveJson) :
    Counts t inside (mark m) (mark m) := by
  cases m with
  | enterJson => exact absurd rfl noBegin
  | leaveJson => exact absurd rfl noEnd
  | text | indent | unindent | gap => exact ⟨rfl, fun _ => rfl, fun _ _ => rfl⟩

theorem Counts.append (first : Counts t inside d d') (second : Counts t inside e e') :
    Counts t inside (d ++ e) (d' ++ e') := by
  cases broken : d.fault with
  | some fault =>
    rw [append_of_fault broken, append_of_fault (first.fault ▸ broken)]
    exact first
  | none =>
    have broken' : d'.fault = none := first.fault ▸ broken
    refine ⟨?_, first.keepsLevel.append second.keepsLevel, fun w agrees => ?_⟩
    · rw [append_of_unbroken broken, append_of_unbroken broken']
      exact second.fault
    · rw [writtenBy_append broken, on_append broken', second.page, first.page w agrees]
      rwa [first.keepsLevel w]

/-- The block that a writer opens for a literal is the block of a draft that is told to stand
outside. -/
theorem Counts.jsonBlock (same : Counts .kotlin true d d') :
    Counts .kotlin inside (Target.jsonBlock true d) (Target.jsonBlock inside d') := by
  have unbroken : (Draft.mark .enterJson).fault = none := rfl
  have written (w : Writer) : (Target.jsonBlock true d).writtenBy w =
      (d.writtenBy w.enterJson).leaveJson := by
    rw [Target.jsonBlock, if_pos rfl, writtenBy_closedBy, writtenBy_append unbroken]
    rfl
  have entered (w : Writer) : (d.writtenBy w.enterJson).page = d'.on w.enterJson.page :=
    same.page w.enterJson fun _ => iff_of_true (Nat.succ_pos _) rfl
  have level (w : Writer) : (d.writtenBy w.enterJson).jsonLevel - 1 = w.jsonLevel := by
    rw [same.keepsLevel]
    rfl
  refine ⟨?_, fun w => by rw [written]; exact level w, fun w agrees => ?_⟩
  · cases inside <;> exact same.fault
  · rw [written, Writer.leaveJson, level w, entered w]
    cases inside with
    | false =>
      have outermost : w.jsonLevel = 0 := by simpa using agrees rfl
      rw [if_pos outermost, Writer.enterJson, if_pos outermost, Target.jsonBlock, if_neg (by simp),
        on_append rfl, on_closedBy, on_append rfl]
      rfl
    | true =>
      have nested : w.jsonLevel ≠ 0 := Nat.pos_iff_ne_zero.1 ((agrees rfl).2 rfl)
      rw [if_neg nested, Writer.enterJson, if_neg nested, Target.jsonBlock, if_pos rfl,
        on_closedBy, on_append rfl]
      rfl

/-- Counting is kept wherever drafts are put together. -/
theorem Counts.congruence (t : Target) : Draft.Congruence t (Counts t) where
  empty := ⟨rfl, fun _ => rfl, fun _ _ => rfl⟩
  text s := Counts.mark (m := .text s) (by simp) (by simp)
  fail fault := ⟨rfl, fun _ => rfl, fun _ _ => rfl⟩
  append := Counts.append
  indented same :=
    ((Counts.mark (by simp) (by simp)).append same).append (Counts.mark (by simp) (by simp))
  closedBy s same := by
    refine ⟨same.fault, fun w => ?_, fun w agrees => ?_⟩
    · rw [writtenBy_closedBy]
      exact same.keepsLevel w
    · rw [writtenBy_closedBy, on_closedBy]
      exact congrArg (Page.write · s) (same.page w agrees)
  jsonBlock isKotlin same := by
    subst isKotlin
    exact same.jsonBlock
  outside other same := ⟨same.fault, same.keepsLevel, fun w _ => same.page w fun isKotlin =>
    absurd isKotlin other⟩

/-- Being steady is kept wherever drafts are put together. -/
theorem Steady.congruence (t : Target) : Draft.Congruence t fun _ d _ => d.Steady where
  empty := .empty
  text := .text
  fail := .fail
  append := .append
  indented := .indented
  closedBy s same := same.closedBy s
  jsonBlock _ same := by
    rw [Target.jsonBlock, if_pos rfl]
    exact same.literal
  outside _ same := same

end Draft

end Polyscript
