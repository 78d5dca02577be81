import Polyscript.Proofs.Layout.Addition
import Polyscript.Proofs.Spelling.Unbroken

/-!
# What a draft begins with

A draft that is carried out behind the beginning of a line adds text to the page. The text begins
with the first character that the draft has a mark for: no indentation comes before it, and what
stands on the page makes no difference.

## Main definitions

* `Draft.opening`: the character with which a draft begins.
* `Draft.Precedes`: a draft with which another one begins.
* `Page.Extends`: pages that differ in text at the end.

## Main statements

* `Draft.extends_on`: what a draft adds begins with its opening.
* `Draft.Precedes.opening_iff`: a draft opens a brace if the one that it begins with does.
-/

namespace Polyscript

/-- The characters that a mark stands for behind the beginning of a line. -/
def Mark.chars : Mark → List Char
  | .text s => s.toList
  | .gap => ['\n']
  | .indent | .unindent | .enterJson | .leaveJson => []

namespace Page

open Layout (EndsLine endsLine_append_newline)

variable {p p' p'' : Page} {first second : Option Char}

/-- Whether the text of a page is that of another one with more text behind it, and the character
with which that begins. -/
def Extends (p : Page) (first : Option Char) (p' : Page) : Prop :=
  ∃ added : String, p'.text = p.text ++ added ∧ added.toList.head? = first

theorem Extends.of_text (same : p'.text = p.text) : p.Extends none p' :=
  ⟨"", by rw [same, String.append_empty], rfl⟩

theorem Extends.trans (h : p.Extends first p') (h' : p'.Extends second p'') :
    p.Extends (first.or second) p'' := by
  obtain ⟨added, same, begins⟩ := h
  obtain ⟨more, same', begins'⟩ := h'
  refine ⟨added ++ more, by rw [same', same, String.append_assoc], ?_⟩
  rw [String.toList_append, List.head?_append, begins, begins']

theorem put_text (p : Page) (c : Char) :
    ∃ before : String, (p.put c).text = p.text ++ before.push c := by
  have pushed (before : String) : (p.text ++ before).push c = p.text ++ before.push c := by
    simp [← String.toList_inj]
  unfold put
  split
  next isNewline => exact ⟨"", by simpa [isNewline] using pushed ""⟩
  next =>
    split
    · exact ⟨_, pushed _⟩
    · exact ⟨"", by simp⟩

theorem exists_extends_write (p : Page) (s : String) : ∃ first, p.Extends first (p.write s) := by
  unfold write
  induction s.toList generalizing p with
  | nil => exact ⟨none, .of_text rfl⟩
  | cons c rest ih =>
    obtain ⟨before, same⟩ := p.put_text c
    obtain ⟨_, further⟩ := ih (p.put c)
    have one : p.Extends (before.push c).toList.head? (p.put c) := ⟨_, same, rfl⟩
    exact ⟨_, one.trans further⟩

theorem exists_extends_follow (p : Page) (m : Mark) : ∃ first, p.Extends first (p.follow m) := by
  cases m with
  | text s => exact p.exists_extends_write s
  | gap =>
    rw [follow]
    split
    · exact ⟨none, .of_text rfl⟩
    · exact p.exists_extends_write "\n"
  | indent | unindent | enterJson | leaveJson => exact ⟨none, .of_text rfl⟩

/-- Whatever is carried out on a page, its text stays. -/
theorem exists_extends (marks : List Mark) (p : Page) :
    ∃ first, p.Extends first (marks.foldl follow p) := by
  induction marks generalizing p with
  | nil => exact ⟨none, .of_text rfl⟩
  | cons m rest ih =>
    obtain ⟨_, one⟩ := p.exists_extends_follow m
    obtain ⟨_, further⟩ := ih (p.follow m)
    exact ⟨_, one.trans further⟩

/-- Whether something has been written on the line at the end of a page. -/
structure Begun (p : Page) : Prop where
  isEmpty : p.isEmpty = false
  atLineStart : p.atLineStart = false

theorem Begun.extends_write (begun : p.Begun) (s : String) :
    p.Extends s.toList.head? (p.write s) := by
  unfold write
  cases s.toList with
  | nil => exact .of_text rfl
  | cons c rest =>
    -- the first character is written as it is, and decides
    have one : p.Extends (some c) (p.put c) := by
      refine ⟨String.singleton c, ?_, by simp⟩
      have pushed : p.text.push c = p.text ++ String.singleton c := by simp
      unfold put
      split
      next isNewline => rw [← pushed, isNewline]
      next => rw [begun.atLineStart, if_neg Bool.false_ne_true, ← pushed]
    obtain ⟨_, further⟩ := (p.put c).exists_extends_write (String.ofList rest)
    rw [write, String.toList_ofList] at further
    exact one.trans further

/-- A mark is carried out as if nothing stood on the page. A page on which a line has been begun
stays one unless the mark stands for a character. -/
theorem Begun.follow (begun : p.Begun) (m : Mark) :
    p.Extends m.chars.head? (p.follow m) ∧ (m.chars = [] → (p.follow m).Begun) := by
  cases m with
  | text s =>
    refine ⟨begun.extends_write s, fun blank => ?_⟩
    have isEmpty : s = "" := String.toList_inj.1 blank
    rw [isEmpty]
    exact begun
  | gap =>
    rw [Page.follow, begun.isEmpty]
    exact ⟨begun.extends_write "\n", fun blank => absurd blank (List.cons_ne_nil _ _)⟩
  | indent | unindent | enterJson | leaveJson => exact ⟨.of_text rfl, fun _ => ⟨begun.1, begun.2⟩⟩

theorem Begun.extends_foldl (begun : p.Begun) (marks : List Mark) :
    p.Extends (marks.flatMap Mark.chars).head? (marks.foldl Page.follow p) := by
  induction marks generalizing p with
  | nil => exact .of_text rfl
  | cons m rest ih =>
    obtain ⟨one, stays⟩ := begun.follow m
    rw [List.flatMap_cons, List.head?_append, List.foldl_cons]
    -- the marks up to the first one that stands for a character leave the page as it was
    cases chars : m.chars with
    | nil => exact (chars ▸ one).trans (ih (stays chars))
    | cons c cs =>
      obtain ⟨_, further⟩ := exists_extends rest (p.follow m)
      have whole := one.trans further
      rwa [chars] at whole

/-- Whether a line begins at the end of a page only where its text says so. -/
def IsMarked (p : Page) : Prop := p.atLineStart = true → EndsLine p.text.toList

theorem IsMarked.put (p : Page) (c : Char) : (p.put c).IsMarked := by
  intro starts
  by_cases isNewline : c = '\n'
  · rw [Page.put, if_pos isNewline, String.toList_push]
    exact endsLine_append_newline _
  · rw [Page.put, if_neg isNewline] at starts
    split at starts
    next => cases starts
    next begun => exact absurd starts begun

theorem IsMarked.write (h : p.IsMarked) (s : String) : (p.write s).IsMarked := by
  unfold Page.write
  induction s.toList generalizing p with
  | nil => exact h
  | cons c rest ih => exact ih (.put p c)

theorem IsMarked.follow (h : p.IsMarked) (m : Mark) : (p.follow m).IsMarked := by
  cases m with
  | text s => exact h.write s
  | gap =>
    rw [Page.follow]
    split
    · exact h
    · exact h.write "\n"
  | indent | unindent | enterJson | leaveJson => exact h

/-- On every page that is written from its beginning, text that does not end a line has begun
one. -/
theorem begun_of_getLast (unit : String) {marks : List Mark} {c : Char}
    (last : (marks.foldl follow (blank unit)).text.toList.getLast? = some c) (inLine : c ≠ '\n') :
    (marks.foldl follow (blank unit)).Begun := by
  -- an arbitrary page may claim to be at the beginning of a line in the middle of one, but what
  -- marks make of a blank page does not
  have isMarked (p : Page) (h : p.IsMarked) : (marks.foldl follow p).IsMarked := by
    clear last
    induction marks generalizing p with
    | nil => exact h
    | cons m rest ih => exact ih _ (h.follow m)
  have reached := isMarked (blank unit) fun _ => .inl rfl
  generalize marks.foldl follow (blank unit) = p at last reached
  have nonempty : p.text.toList ≠ [] := by
    intro isEmpty
    rw [isEmpty] at last
    cases last
  refine ⟨?_, ?_⟩
  · rw [isEmpty, Bool.eq_false_iff]
    intro isEmpty
    rw [String.isEmpty_iff] at isEmpty
    exact nonempty (congrArg String.toList isEmpty)
  · by_contra starts
    rcases reached (Bool.not_eq_false _ |>.mp starts) with isEmpty | ends
    · exact nonempty isEmpty
    · rw [last] at ends
      exact inLine (Option.some.inj ends)

/-- A text without an end of a line stands as it is at the end of the page. -/
theorem exists_text_write {s : String} (noNewline : '\n' ∉ s.toList) (p : Page) :
    ∃ before, (p.write s).text = before ++ s := by
  rw [write]
  cases chars : s.toList with
  | nil =>
    have isEmpty : s = "" := String.toList_inj.1 chars
    exact ⟨p.text, by rw [isEmpty, String.append_empty]; rfl⟩
  | cons c rest =>
    rw [chars, List.mem_cons, not_or] at noNewline
    have inside : (p.put c).atLineStart = false := by
      rw [put, if_neg (Ne.symm noNewline.1)]
      split
      · rfl
      next begun => exact Bool.eq_false_iff.2 begun
    obtain ⟨before, same⟩ := p.put_text c
    have whole : before.push c ++ String.ofList rest = before ++ s := by
      simp [← String.toList_inj, chars]
    rw [List.foldl_cons, foldl_put_of_inside rest noNewline.2 inside]
    refine ⟨p.text ++ before, ?_⟩
    simp only [same, String.append_assoc, whole]

end Page

namespace Draft

variable {d e f : Draft} {c : Char}

/-- The character with which a draft begins. -/
def opening (d : Draft) : Option Char := (d.marks.flatMap Mark.chars).head?

/-- What a draft adds where a line has been begun begins with its opening. -/
theorem extends_on (d : Draft) {p : Page} (begun : p.Begun) : p.Extends d.opening (d.on p) :=
  begun.extends_foldl d.marks

@[simp] theorem opening_empty : Draft.empty.opening = none := rfl

@[simp] theorem opening_text (s : String) : (text s).opening = s.toList.head? := by
  simp [opening, text, Mark.chars]

theorem opening_append (unbroken : d.Unbroken) (e : Draft) :
    (d ++ e).opening = d.opening.or e.opening := by
  rw [opening, append_of_unbroken unbroken, List.flatMap_append, List.head?_append]
  rfl

@[simp] theorem opening_text_append (s : String) (e : Draft) :
    (text s ++ e).opening = s.toList.head?.or e.opening := by
  rw [opening_append (unbroken_text s), opening_text]

/-- Whether a draft is another one with something behind it that opens no brace. -/
def Precedes (d whole : Draft) : Prop := ∃ rest, whole = d ++ rest ∧ rest.opening ≠ some '\x7b'

theorem Precedes.refl (d : Draft) : d.Precedes d :=
  ⟨.empty, (append_empty d).symm, by simp⟩

theorem Precedes.trans (first : d.Precedes e) (second : e.Precedes f) : d.Precedes f := by
  obtain ⟨rest, rfl, noBrace⟩ := first
  obtain ⟨further, rfl, noBrace'⟩ := second
  refine ⟨rest ++ further, append_assoc _ _ _, ?_⟩
  by_cases unbroken : rest.Unbroken
  · rw [opening_append unbroken]
    cases opens : rest.opening with
    | none => exact noBrace'
    | some c => rwa [opens] at noBrace
  · obtain ⟨fault, broken⟩ := Option.ne_none_iff_exists'.1 unbroken
    rwa [append_of_fault broken]

/-- A text that opens no brace may stand behind a draft, and anything behind the text. -/
theorem precedes_text {s : String} (begins : s.toList.head? = some c) (noBrace : c ≠ '\x7b')
    (d rest : Draft) : d.Precedes (d ++ (text s ++ rest)) := by
  refine ⟨_, rfl, ?_⟩
  rw [opening_text_append, begins]
  exact fun same => noBrace (Option.some.inj same)

/-- A draft opens a brace if the one that it begins with does, and else not. -/
theorem Precedes.opening_iff (h : d.Precedes e) :
    e.opening = some '\x7b' ↔ d.opening = some '\x7b' := by
  obtain ⟨rest, rfl, noBrace⟩ := h
  by_cases unbroken : d.Unbroken
  · -- what stands behind counts only if the draft is empty, and opens no brace then
    rw [opening_append unbroken]
    cases d.opening <;> simp [noBrace]
  · obtain ⟨fault, broken⟩ := Option.ne_none_iff_exists'.1 unbroken
    rw [append_of_fault broken]

/-- What a draft begins with does not break off unless the draft does. -/
theorem Precedes.unbroken (h : d.Precedes e) (unbroken : e.Unbroken) : d.Unbroken := by
  obtain ⟨rest, rfl, _⟩ := h
  exact (unbroken_append.1 unbroken).1

end Draft

end Polyscript
