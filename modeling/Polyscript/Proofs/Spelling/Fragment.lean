import Polyscript.Proofs.Layout.Addition
import Polyscript.Spelling.Statement

/-!
# The lines of fragments

A fragment is written line by line: a blank line as an empty one, a comment as a comment of the
language with the same text, and any other line not at all. So it can be left out where a line
begins, and what is left out are its lines.
-/

namespace Polyscript

/-- The text of the comment that a line of source text is. -/
def commentText? (line : List Char) : Option String :=
  match Text.trim line with
  | '/' :: '/' :: text => some (String.ofList (Text.trim text))
  | _ => none

/-- The texts of the comments of a fragment. -/
def fragmentComments (fragment : String) : List String :=
  (Text.lines fragment.toList).filterMap commentText?

namespace Target

open Draft (Adds)

variable {t : Target}

/-- The line that is written for a line of source text. -/
def writtenLine? (t : Target) (line : List Char) : Option String :=
  if Text.trim line = [] then some "" else (commentText? line).map t.comment

/-- The lines that are written for a fragment. -/
def fragmentLines (t : Target) (fragment : String) : List String :=
  (Text.lines fragment.toList).filterMap t.writtenLine?

/-- The characters of a text without blanks at its ends are characters of the text. -/
theorem mem_of_mem_trim {text : List Char} {c : Char} (mem : c ∈ Text.trim text) : c ∈ text := by
  have mem := (List.dropWhile_sublist _).subset (List.mem_reverse.1 mem)
  exact (List.dropWhile_sublist _).subset (List.mem_reverse.1 mem)

/-- A comment begins with the sign of comments. -/
theorem comment_eq (text : String) : ∃ rest, t.comment text = t.commentSign ++ rest := by
  unfold comment
  split
  · exact ⟨"", (String.append_empty).symm⟩
  · exact ⟨" " ++ text, String.append_assoc⟩

theorem comment_ne_empty (text : String) : t.comment text ≠ "" := by
  obtain ⟨rest, isComment⟩ := t.comment_eq text
  rw [isComment]
  cases t <;> simp [commentSign]

theorem newline_notMem_comment {text : String} (noNewline : '\n' ∉ text.toList) :
    '\n' ∉ (t.comment text).toList := by
  unfold comment
  split <;> cases t <;> simp [commentSign, noNewline]

/-- The text of a comment is a part of its line. -/
theorem newline_notMem_commentText {line : List Char} {text : String} (noNewline : '\n' ∉ line)
    (isComment : commentText? line = some text) : '\n' ∉ text.toList := by
  unfold commentText? at isComment
  split at isComment
  next rest trimmed =>
    obtain rfl := Option.some.inj isComment
    rw [String.toList_ofList]
    intro mem
    refine noNewline (mem_of_mem_trim (trimmed ▸ ?_))
    exact List.mem_cons_of_mem _ (List.mem_cons_of_mem _ (mem_of_mem_trim mem))
  next => cases isComment

/-- What is written for a line is blank or a comment, and a single line. -/
theorem writtenLine_formatting {line : List Char} {written : String} (noNewline : '\n' ∉ line)
    (isWritten : t.writtenLine? line = some written) :
    (written = "" ∨ ∃ rest, written = t.commentSign ++ rest) ∧ '\n' ∉ written.toList := by
  unfold writtenLine? at isWritten
  split at isWritten
  · obtain rfl := Option.some.inj isWritten
    exact ⟨.inl rfl, List.not_mem_nil⟩
  · obtain ⟨text, isComment, rfl⟩ := Option.map_eq_some_iff.1 isWritten
    exact ⟨.inr (comment_eq text),
      newline_notMem_comment (newline_notMem_commentText noNewline isComment)⟩

theorem fragmentLines_formatting (fragment : String) :
    ∀ line ∈ t.fragmentLines fragment,
      (line = "" ∨ ∃ rest, line = t.commentSign ++ rest) ∧ '\n' ∉ line.toList := by
  intro line mem
  obtain ⟨source, isLine, isWritten⟩ := List.mem_filterMap.1 mem
  exact writtenLine_formatting (Text.newline_notMem_of_mem_lines isLine) isWritten

/-- The lines of a fragment that are not blank are its comments. -/
theorem fragmentLines_filter (fragment : String) :
    (t.fragmentLines fragment).filter (· ≠ "") = (fragmentComments fragment).map t.comment := by
  unfold fragmentLines fragmentComments
  rw [List.filter_filterMap, List.map_filterMap]
  refine List.filterMap_congr fun line _ => ?_
  unfold writtenLine?
  by_cases blank : Text.trim line = []
  · have noComment : commentText? line = none := by
      unfold commentText?
      rw [blank]
    simp [blank, noComment]
  · cases isComment : commentText? line with
    | none => simp [blank]
    | some text => simp [blank, comment_ne_empty]

/-- A line of a fragment is written as itself or not at all. -/
theorem adds_fragmentLine {line : List Char} (noNewline : '\n' ∉ line) :
    Adds .lineStart .lineStart (t.writtenLine? line).toList (t.fragmentLine line) .empty := by
  unfold fragmentLine
  split
  next blank =>
    rw [writtenLine?, if_pos blank]
    exact Adds.added List.not_mem_nil rfl fun _ => rfl
  next text trimmed =>
    have isComment : commentText? line = some (String.ofList (Text.trim text)) := by
      simp only [commentText?, trimmed]
    rw [writtenLine?, if_neg (by simp [trimmed]), isComment]
    refine Adds.added (newline_notMem_comment (newline_notMem_commentText noNewline isComment))
      rfl ?_
    exact fun p => (p.write_append _ _).symm
  next other notBlank notComment =>
    have isNone : commentText? line = none := by
      unfold commentText?
      split
      next text trimmed => exact absurd trimmed (notComment text)
      next => rfl
    rw [writtenLine?, if_neg notBlank, isNone]
    exact .empty

/-- A fragment adds its lines where a line begins. -/
theorem adds_fragment (fragment : String) :
    Adds .lineStart .lineStart (t.fragmentLines fragment) (t.fragment fragment) .empty := by
  unfold Target.fragment fragmentLines
  have lines : ∀ line ∈ Text.lines fragment.toList, '\n' ∉ line :=
    fun line mem => Text.newline_notMem_of_mem_lines mem
  generalize Text.lines fragment.toList = all at lines ⊢
  induction all with
  | nil => exact .empty
  | cons line rest ih =>
    obtain ⟨first, others⟩ := List.forall_mem_cons.1 lines
    have together := (adds_fragmentLine (t := t) first).append (ih others)
    cases written : t.writtenLine? line with
    | none =>
      rw [List.filterMap_cons_none written]
      rw [written] at together
      exact together
    | some s =>
      rw [List.filterMap_cons_some written]
      rw [written] at together
      exact together

end Target

end Polyscript
