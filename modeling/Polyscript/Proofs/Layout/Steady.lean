import Polyscript.Proofs.Layout.Addition
import Polyscript.Layout.Writer

/-!
# Drafts that leave a writer steady

Whatever a writer is made to do, what it has written stays, and what it writes next does not
depend on that: only an empty line between the parts of a program asks whether the page is
empty. A steady draft has no such line, leaves as many structured literals open as there were
before, even if it breaks off, and restores the depth unless it breaks off.
-/

namespace Polyscript

namespace Page

/-- The page with a text before all that has been written. -/
def behind (before : String) (p : Page) : Page := { p with text := before ++ p.text }

theorem put_behind (before : String) (p : Page) (c : Char) :
    (p.behind before).put c = (p.put c).behind before := by
  have pushed (text : String) (c : Char) : (before ++ text).push c = before ++ text.push c := by
    simp [← String.toList_inj]
  unfold put behind
  by_cases isNewline : c = '\n'
  · simp [isNewline, pushed]
  · by_cases starts : p.atLineStart <;> simp [isNewline, starts, pushed, String.append_assoc]

theorem write_behind (before : String) (p : Page) (s : String) :
    (p.behind before).write s = (p.write s).behind before := by
  unfold write
  induction s.toList generalizing p with
  | nil => rfl
  | cons c rest ih => rw [List.foldl_cons, List.foldl_cons, put_behind, ih]

theorem depth_write (p : Page) (s : String) : (p.write s).depth = p.depth := by
  unfold write
  induction s.toList generalizing p with
  | nil => rfl
  | cons c rest ih =>
    have kept : (p.put c).depth = p.depth := by
      unfold put
      split
      · rfl
      · split <;> rfl
    exact (ih (p.put c)).trans kept

end Page

namespace Writer

variable {w : Writer}

/-- The writer with a text before all that it has written. -/
def behind (before : String) (w : Writer) : Writer := { w with page := w.page.behind before }

/-- Every mark but a gap is followed without regard to what has been written. -/
theorem follow_behind (before : String) {mark : Mark} (notGap : mark ≠ .gap) :
    (w.behind before).follow mark = (w.follow mark).behind before := by
  cases mark with
  | text s => simp [follow, behind, Page.follow, Page.write_behind]
  | indent | unindent => rfl
  | gap => exact absurd rfl notGap
  | enterJson =>
    simp only [follow, enterJson, behind, Page.write_behind]
    split <;> rfl
  | leaveJson =>
    have closed : (w.page.behind before).unindent.write "\n\x7d" =
        (w.page.unindent.write "\n\x7d").behind before :=
      Page.write_behind before w.page.unindent _
    simp only [follow, leaveJson, behind, closed]
    split <;> rfl

/-- No mark changes what indentation looks like. -/
theorem unit_follow (mark : Mark) : (w.follow mark).page.unit = w.page.unit := by
  cases mark with
  | text s => exact w.page.unit_write s
  | indent | unindent => rfl
  | gap =>
    simp only [follow, Page.follow]
    split
    · rfl
    · exact w.page.unit_write "\n"
  | enterJson =>
    simp only [follow, enterJson]
    split
    · exact w.page.unit_write _
    · rfl
  | leaveJson =>
    simp only [follow, leaveJson]
    split
    · exact w.page.unindent.unit_write _
    · rfl

end Writer

namespace Draft

variable {d d' e e' : Draft} {w : Writer}

/-- A draft without gaps is written without regard to what has been written before. -/
theorem writtenBy_behind (noGap : .gap ∉ d.marks) (before : String) (w : Writer) :
    d.writtenBy (w.behind before) = (d.writtenBy w).behind before := by
  unfold writtenBy
  generalize d.marks = marks at noGap
  induction marks generalizing w with
  | nil => rfl
  | cons mark rest ih =>
    rw [List.mem_cons, not_or] at noGap
    rw [List.foldl_cons, List.foldl_cons, Writer.follow_behind before (Ne.symm noGap.1),
      ih _ noGap.2]

theorem unit_writtenBy (d : Draft) (w : Writer) : (d.writtenBy w).page.unit = w.page.unit := by
  unfold writtenBy
  induction d.marks generalizing w with
  | nil => rfl
  | cons mark rest ih => exact (ih (w.follow mark)).trans (Writer.unit_follow mark)

/-- Whether a draft leaves as many literals open as there were before. -/
def KeepsLevel (d : Draft) : Prop := ∀ w, (d.writtenBy w).jsonLevel = w.jsonLevel

theorem KeepsLevel.append (first : d.KeepsLevel) (second : e.KeepsLevel) :
    (d ++ e).KeepsLevel := by
  intro w
  cases broken : d.fault with
  | some fault => rw [append_of_fault broken, first w]
  | none => rw [writtenBy_append broken, second, first]

theorem KeepsLevel.concat {ds : List Draft} (all : ∀ d ∈ ds, d.KeepsLevel) :
    (concat ds).KeepsLevel := by
  induction ds with
  | nil => exact fun w => rfl
  | cons d rest ih =>
    obtain ⟨first, others⟩ := List.forall_mem_cons.1 all
    exact first.append (ih others)

/-- A draft without gaps that leaves as many literals open as there were before and, unless
it breaks off, does not change the depth. -/
structure Steady (d : Draft) : Prop where
  noGap : .gap ∉ d.marks
  keepsLevel : d.KeepsLevel
  depth : d.fault = none → ∀ w, (d.writtenBy w).page.depth = w.page.depth

theorem Steady.empty : Steady .empty where
  noGap := List.not_mem_nil
  keepsLevel _ := rfl
  depth _ _ := rfl

theorem Steady.text (s : String) : Steady (.text s) where
  noGap := by simp [Draft.text]
  keepsLevel _ := rfl
  depth _ w := w.page.depth_write s

theorem Steady.fail (fault : Unsupported) : Steady (.fail fault) where
  noGap := List.not_mem_nil
  keepsLevel _ := rfl
  depth unbroken := nomatch unbroken

theorem gap_notMem_append (first : .gap ∉ d.marks) (second : .gap ∉ e.marks) :
    .gap ∉ (d ++ e).marks := by
  cases broken : d.fault with
  | some fault => rwa [append_of_fault broken]
  | none =>
    rw [append_of_unbroken broken]
    exact fun mem => (List.mem_append.1 mem).elim first second

theorem Steady.append (first : d.Steady) (second : e.Steady) : (d ++ e).Steady where
  noGap := gap_notMem_append first.noGap second.noGap
  keepsLevel := first.keepsLevel.append second.keepsLevel
  depth unbroken w := by
    cases broken : d.fault with
    | some fault => rw [append_of_fault broken, broken] at unbroken; cases unbroken
    | none =>
      rw [append_of_unbroken broken] at unbroken
      rw [writtenBy_append broken, second.depth unbroken, first.depth broken]

/-- One level deeper, the depth is restored unless the draft breaks off there. -/
theorem Steady.indented (steady : d.Steady) : d.indented.Steady where
  noGap :=
    gap_notMem_append (gap_notMem_append (by simp [mark]) steady.noGap) (by simp [mark])
  keepsLevel :=
    KeepsLevel.append (KeepsLevel.append (fun _ => rfl) steady.keepsLevel) fun _ => rfl
  depth unbroken w := by
    have deeper : (mark .indent ++ d).fault = d.fault := by
      rw [append_of_unbroken rfl]
    cases broken : d.fault with
    | some fault =>
      rw [Draft.indented, append_of_fault (deeper.trans broken), deeper, broken] at unbroken
      cases unbroken
    | none =>
      rw [Draft.indented, writtenBy_append (deeper.trans broken), writtenBy_append rfl]
      have kept := steady.depth broken ((mark .indent).writtenBy w)
      change (d.writtenBy ((mark .indent).writtenBy w)).page.depth - 1 = w.page.depth
      rw [kept]
      rfl

theorem Steady.closedBy (s : String) (steady : d.Steady) : (d.closedBy [.text s]).Steady where
  noGap := by simp [Draft.closedBy, steady.noGap]
  keepsLevel w := by
    rw [writtenBy_closedBy]
    exact steady.keepsLevel w
  depth unbroken w := by
    rw [writtenBy_closedBy]
    exact ((d.writtenBy w).page.depth_write s).trans (steady.depth unbroken w)

/-- A structured literal ends whether or not it breaks off. The block that is opened for it
is indented once, and taken back once. -/
theorem Steady.literal (steady : d.Steady) :
    ((mark .enterJson ++ d).closedBy [.leaveJson]).Steady where
  noGap := by
    have noGap : .gap ∉ (mark .enterJson ++ d).marks :=
      gap_notMem_append (by simp [mark]) steady.noGap
    simp [Draft.closedBy, noGap]
  keepsLevel w := by
    rw [writtenBy_closedBy, writtenBy_append rfl]
    change (d.writtenBy w.enterJson).jsonLevel - 1 = w.jsonLevel
    rw [steady.keepsLevel]
    rfl
  depth unbroken w := by
    have entered : d.fault = none := by
      rwa [Draft.closedBy, append_of_unbroken rfl] at unbroken
    rw [writtenBy_closedBy, writtenBy_append rfl]
    have level := steady.keepsLevel w.enterJson
    have depth := steady.depth entered w.enterJson
    change (d.writtenBy w.enterJson).leaveJson.page.depth = w.page.depth
    have reopened : (d.writtenBy w.enterJson).jsonLevel - 1 = w.jsonLevel := by
      rw [level]
      rfl
    by_cases outermost : w.jsonLevel = 0
    · have deeper : w.enterJson.page.depth = w.page.depth + 1 := by
        simp [Writer.enterJson, outermost, Page.indent, Page.depth_write]
      simp [Writer.leaveJson, reopened, outermost, Page.unindent, Page.depth_write, depth, deeper]
    · have same : w.enterJson.page = w.page := by simp [Writer.enterJson, outermost]
      simp [Writer.leaveJson, reopened, outermost, depth, same]

end Draft

end Polyscript
