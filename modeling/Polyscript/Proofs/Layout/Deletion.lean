import Polyscript.Proofs.Layout.Addition

/-!
# Texts that differ in lines of formatting

A line of formatting is blank or, after its indentation, a comment. One text thins another
when it is the other without some of its lines of formatting. If all the lines that a text adds
to another one are blank or comments, the other one thins it.
-/

namespace Polyscript

namespace Layout

/-- Whether a line is blank or, after its indentation, a comment. -/
def IsFormatting (sign unit : String) (line : List Char) : Prop :=
  line = [] ∨ ∃ depth rest, line = copies unit depth ++ (sign.toList ++ rest)

/-- Some lines of formatting are deleted from lines. -/
inductive Deletes (sign unit : String) : List (List Char) → List (List Char) → Prop where
  | nil : Deletes sign unit [] []
  | keep {lines lines'} (line : List Char) (rest : Deletes sign unit lines lines') :
    Deletes sign unit (line :: lines) (line :: lines')
  | delete {lines lines'} {line : List Char} (formatting : IsFormatting sign unit line)
    (rest : Deletes sign unit lines lines') : Deletes sign unit (line :: lines) lines'

/-- Lines that have ended, as one text. -/
def ended (lines : List (List Char)) : List Char := lines.flatMap (· ++ ['\n'])

/-- A text and the text that is left when some whole lines of formatting are deleted from
it. What stands after the last end of a line is kept. -/
def Thins (sign unit : String) (text text' : String) : Prop :=
  ∃ lines lines' rest, Deletes sign unit lines lines' ∧ (∀ line ∈ lines, '\n' ∉ line) ∧
    '\n' ∉ rest ∧ text.toList = ended lines ++ rest ∧ text'.toList = ended lines' ++ rest

variable {sign unit : String}

theorem Deletes.append {lines lines' further further' : List (List Char)}
    (first : Deletes sign unit lines lines') (second : Deletes sign unit further further') :
    Deletes sign unit (lines ++ further) (lines' ++ further') := by
  induction first with
  | nil => exact second
  | keep line _ ih => exact .keep line ih
  | delete formatting _ ih => exact .delete formatting ih

theorem ended_append_singleton (lines : List (List Char)) (line : List Char) :
    ended (lines ++ [line]) = ended lines ++ line ++ ['\n'] := by
  simp [ended]

/-- A text from whose last line on nothing has been written ends with the end of a line. -/
theorem rest_eq_nil {lines : List (List Char)} {rest : List Char} (noNewline : '\n' ∉ rest)
    (ends : EndsLine (ended lines ++ rest)) : rest = [] := by
  by_contra some
  rcases ends with nothing | last
  · exact some (List.append_eq_nil_iff.1 nothing).2
  · rw [List.getLast?_append_of_ne_nil _ some] at last
    exact noNewline (List.mem_of_getLast? last)

theorem newline_notMem_copies (unbroken : '\n' ∉ unit.toList) (depth : Nat) :
    '\n' ∉ copies unit depth := by
  intro mem
  obtain ⟨copy, isUnit, mem⟩ := List.mem_flatten.1 mem
  rw [List.eq_of_mem_replicate isUnit] at mem
  exact unbroken mem

/-- The text of an added line without its end is a line of formatting. -/
theorem exists_formatting {line : String} (depth : Nat) (unbroken : '\n' ∉ unit.toList)
    (formatting : line = "" ∨ ∃ rest, line = sign ++ rest) (noNewline : '\n' ∉ line.toList) :
    ∃ chars, indentedLine unit depth line = chars ++ ['\n'] ∧ IsFormatting sign unit chars ∧
      '\n' ∉ chars := by
  by_cases isBlank : line = ""
  · exact ⟨[], by simp [indentedLine, isBlank], .inl rfl, List.not_mem_nil⟩
  · obtain ⟨comment, isComment⟩ := formatting.resolve_left isBlank
    refine ⟨copies unit depth ++ line.toList, by simp [indentedLine, isBlank],
      .inr ⟨depth, comment.toList, ?_⟩, ?_⟩
    · rw [isComment, String.toList_append]
    · simp [newline_notMem_copies unbroken, noNewline]

/-- If all the lines that are added are lines of formatting, the text without them thins the
one with them. -/
theorem Adds.thins {ls : List String} {text text' : String} (unbroken : '\n' ∉ unit.toList)
    (formatting : ∀ line ∈ ls, (line = "" ∨ ∃ rest, line = sign ++ rest) ∧ '\n' ∉ line.toList)
    (h : Adds unit ls text.toList text'.toList) : Thins sign unit text text' := by
  unfold Thins
  generalize text.toList = cs, text'.toList = cs' at h
  induction h with
  | nil => exact ⟨[], [], [], .nil, List.forall_mem_nil _, List.not_mem_nil, rfl, rfl⟩
  | keep c _ ih =>
    obtain ⟨lines, lines', rest, deletes, whole, last, rfl, rfl⟩ := ih formatting
    by_cases isNewline : c = '\n'
    · -- the line begun becomes a whole one in both texts, and both keep it
      refine ⟨lines ++ [rest], lines' ++ [rest], [], deletes.append (.keep rest .nil), ?_,
        List.not_mem_nil, ?_, ?_⟩
      · exact List.forall_mem_append.2 ⟨whole, List.forall_mem_singleton.2 last⟩
      · simp [ended_append_singleton, isNewline]
      · simp [ended_append_singleton, isNewline]
    · refine ⟨lines, lines', rest ++ [c], deletes, whole, ?_, by simp, by simp⟩
      simp [last, Ne.symm isNewline]
  | @add ls _ _ depth line begins _ ih =>
    obtain ⟨before, own⟩ := List.forall_mem_append.1 formatting
    obtain ⟨formatting, noNewline⟩ := List.forall_mem_singleton.1 own
    obtain ⟨lines, lines', rest, deletes, whole, last, rfl, rfl⟩ := ih before
    -- a line is added where one begins, so it becomes a whole line of the first text
    obtain rfl := rest_eq_nil last begins
    obtain ⟨chars, written, isFormatting, noNewline⟩ :=
      exists_formatting depth unbroken formatting noNewline
    have deleted : Deletes sign unit (lines ++ [chars]) lines' := by
      simpa using deletes.append (.delete isFormatting .nil)
    refine ⟨lines ++ [chars], lines', [], deleted, ?_, List.not_mem_nil, ?_, rfl⟩
    · exact List.forall_mem_append.2 ⟨whole, List.forall_mem_singleton.2 noNewline⟩
    · simp [ended_append_singleton, written]

end Layout

end Polyscript
