import Mathlib.Data.List.Basic
import Polyscript.Layout.Draft

/-!
# Drafts that differ in lines

One text adds lines to another when it is the other with some whole lines put in, each of which
stands where a line begins: at the beginning of the text or behind the end of a line. Which
lines are added is told, in their order; an added line is indented to some depth, and a line
without characters is not.

Two drafts are related when they break off with the same fault or make of a page and of one that
it adds lines to again such pages. Where a line can be added, a line begins; so what a draft
needs to begin with, and where it ends, is a part of the relation.
-/

namespace Polyscript

namespace Layout

/-- As many copies of a unit as a depth says. -/
def copies (unit : String) (depth : Nat) : List Char := (List.replicate depth unit.toList).flatten

/-- A line at a depth, with its end. A line without characters has no indentation. -/
def indentedLine (unit : String) (depth : Nat) (line : String) : List Char :=
  (if line = "" then [] else copies unit depth ++ line.toList) ++ ['\n']

/-- Whether a line begins behind a text. -/
def EndsLine (text : List Char) : Prop := text = [] ∨ text.getLast? = some '\n'

/-- A text that adds lines to another one, character by character from the beginning. -/
inductive Adds (unit : String) : List String → List Char → List Char → Prop where
  | nil : Adds unit [] [] []
  | keep {ls : List String} {text text' : List Char} (c : Char) (h : Adds unit ls text text') :
    Adds unit ls (text ++ [c]) (text' ++ [c])
  | add {ls : List String} {text text' : List Char} (depth : Nat) (line : String)
    (begins : EndsLine text) (h : Adds unit ls text text') :
    Adds unit (ls ++ [line]) (text ++ indentedLine unit depth line) text'

variable {unit : String} {ls : List String} {text text' : List Char}

theorem Adds.append (h : Adds unit ls text text') (cs : List Char) :
    Adds unit ls (text ++ cs) (text' ++ cs) := by
  induction cs generalizing text text' with
  | nil => simpa using h
  | cons c rest ih => simpa using ih (h.keep c)

theorem endsLine_append_newline (text : List Char) : EndsLine (text ++ ['\n']) :=
  .inr List.getLast?_concat

end Layout

open Layout

namespace Page

/-- The indentation at a depth consists of copies of the unit. -/
theorem toList_indentation (unit : String) (depth : Nat) :
    (indentation unit depth).toList = copies unit depth := by
  rw [indentation, copies, String.toList_join, List.flatMap_replicate]

/-- After a text that ends with the end of a line, a line begins. -/
theorem atLineStart_write {s : String} (ends : s.toList.getLast? = some '\n') (p : Page) :
    (p.write s).atLineStart = true := by
  obtain ⟨front, split⟩ := List.getLast?_eq_some_iff.1 ends
  rw [write, split, List.foldl_append]
  rfl

theorem unit_write (p : Page) (s : String) : (p.write s).unit = p.unit := by
  unfold write
  induction s.toList generalizing p with
  | nil => rfl
  | cons c rest ih =>
    have kept : (p.put c).unit = p.unit := by
      unfold put
      split
      · rfl
      · split <;> rfl
    exact (ih (p.put c)).trans kept

theorem isEmpty_write_newline (p : Page) : (p.write "\n").isEmpty = false := by
  simp [write, put, isEmpty]

/-- Within a line, characters are written as they are. -/
theorem foldl_put_of_inside (cs : List Char) (noNewline : '\n' ∉ cs) {p : Page}
    (inside : p.atLineStart = false) :
    cs.foldl put p = { p with text := p.text ++ String.ofList cs } := by
  induction cs generalizing p with
  | nil => simp
  | cons c rest ih =>
    rw [List.mem_cons, not_or] at noNewline
    rw [List.foldl_cons, put, if_neg (Ne.symm noNewline.1), if_neg (by simp [inside]),
      ih noNewline.2 (by exact inside)]
    congr 1
    apply String.toList_inj.1
    simp

/-- Where a line begins, the text of a line is written after its indentation. -/
theorem write_line {line : String} (noNewline : '\n' ∉ line.toList) {p : Page}
    (starts : p.atLineStart = true) :
    p.write (line ++ "\n") =
      { p with text := p.text ++ String.ofList (indentedLine p.unit p.depth line) } := by
  rw [write_append, write, write]
  cases chars : line.toList with
  | nil =>
    have isEmpty : line = "" := String.toList_inj.1 chars
    simp only [indentedLine, isEmpty, put, starts, String.reduceToList, List.foldl_nil,
      List.foldl_cons, if_true, List.nil_append]
    rfl
  | cons c rest =>
    have nonempty : line ≠ "" := by
      intro isEmpty
      rw [isEmpty] at chars
      cases chars
    rw [chars, List.mem_cons, not_or] at noNewline
    rw [List.foldl_cons, put, if_neg (Ne.symm noNewline.1), if_pos starts,
      foldl_put_of_inside rest noNewline.2 rfl, indentedLine, if_neg nonempty]
    simp only [put, starts, String.reduceToList, List.foldl_cons, List.foldl_nil, if_true]
    congr 1
    apply String.toList_inj.1
    simp [chars, toList_indentation]

/-- A page and one that it adds lines to. Both go on in the same way. -/
structure Adds (ls : List String) (p p' : Page) : Prop where
  unit : p.unit = p'.unit
  depth : p.depth = p'.depth
  atLineStart : p.atLineStart = p'.atLineStart
  text : Layout.Adds p.unit ls p.text.toList p'.text.toList
  begins : p.atLineStart = true → EndsLine p.text.toList

variable {ls : List String} {p p' : Page}

/-- An empty page adds nothing to itself. -/
theorem blank_adds (unit : String) : (blank unit).Adds [] (blank unit) where
  unit := rfl
  depth := rfl
  atLineStart := rfl
  text := .nil
  begins _ := .inl rfl

theorem Adds.put (h : p.Adds ls p') (c : Char) : (p.put c).Adds ls (p'.put c) := by
  obtain ⟨unit, depth, atLineStart, text, begins⟩ := h
  unfold Page.put
  by_cases isNewline : c = '\n'
  · rw [if_pos isNewline, if_pos isNewline]
    refine ⟨unit, depth, rfl, ?_, fun _ => ?_⟩
    · simpa using text.keep '\n'
    · simpa using endsLine_append_newline p.text.toList
  · rw [if_neg isNewline, if_neg isNewline, ← atLineStart, ← unit, ← depth]
    split
    next starts =>
      -- the depths are the same, so the line begins with the same indentation
      refine ⟨rfl, rfl, rfl, ?_, nofun⟩
      simpa using text.append ((indentation p.unit p.depth).toList ++ [c])
    next inside =>
      refine ⟨rfl, rfl, rfl, ?_, fun starts => absurd starts inside⟩
      simpa using text.keep c

theorem Adds.write (h : p.Adds ls p') (s : String) : (p.write s).Adds ls (p'.write s) := by
  unfold Page.write
  induction s.toList generalizing p p' with
  | nil => exact h
  | cons c rest ih => exact ih (h.put c)

theorem Adds.indent (h : p.Adds ls p') : p.indent.Adds ls p'.indent :=
  ⟨h.unit, congrArg (· + 1) h.depth, h.atLineStart, h.text, h.begins⟩

theorem Adds.unindent (h : p.Adds ls p') : p.unindent.Adds ls p'.unindent :=
  ⟨h.unit, congrArg (· - 1) h.depth, h.atLineStart, h.text, h.begins⟩

/-- Every mark but a gap is followed in the same way on both pages. -/
theorem Adds.follow {mark : Mark} (notGap : mark ≠ .gap) (h : p.Adds ls p') :
    (p.follow mark).Adds ls (p'.follow mark) := by
  cases mark with
  | text s => exact h.write s
  | indent => exact h.indent
  | unindent => exact h.unindent
  | gap => exact absurd rfl notGap
  | enterJson | leaveJson => exact h

/-- A line may be written on the first page alone where a line begins. -/
theorem Adds.write_line {line : String} (noNewline : '\n' ∉ line.toList) (h : p.Adds ls p')
    (starts : p.atLineStart = true) : (p.write (line ++ "\n")).Adds (ls ++ [line]) p' := by
  rw [Page.write_line noNewline starts]
  refine ⟨h.unit, h.depth, h.atLineStart, ?_, fun _ => ?_⟩
  · simpa using h.text.add p.depth line (h.begins starts)
  · unfold indentedLine
    simpa [← List.append_assoc] using endsLine_append_newline _

end Page

/-- Where two pages stand. -/
inductive Place where
  | anywhere
  | lineStart
  /-- Between the parts of a program: a line begins, and either both pages are empty or
  neither is. -/
  | between

/-- Whether two pages stand at a place. -/
def Place.Holds : Place → Page → Page → Prop
  | .anywhere, _, _ => True
  | .lineStart, p, _ => p.atLineStart = true
  | .between, p, p' => p.atLineStart = true ∧ p.isEmpty = p'.isEmpty

/-- Two drafts that break off with the same fault or lead from pages, of which the first adds
lines to the second, to such pages with further lines added. The pages have to be at one place
before and are at another one afterwards. -/
structure Draft.Adds (before after : Place) (ls : List String) (d d' : Draft) : Prop where
  fault : d.fault = d'.fault
  pages : d.fault = none → ∀ ks (p p' : Page), p.Adds ks p' → before.Holds p p' →
    (d.on p).Adds (ks ++ ls) (d'.on p') ∧ after.Holds (d.on p) (d'.on p')

namespace Draft

variable {a b c : Place} {ls ks : List String} {d d' e e' : Draft}

/-- No draft changes what indentation looks like. -/
theorem unit_on (d : Draft) (p : Page) : (d.on p).unit = p.unit := by
  unfold on
  induction d.marks generalizing p with
  | nil => rfl
  | cons mark rest ih =>
    have kept : (p.follow mark).unit = p.unit := by
      cases mark with
      | text s => exact p.unit_write s
      | indent | unindent | enterJson | leaveJson => rfl
      | gap =>
        simp only [Page.follow]
        split
        · rfl
        · exact p.unit_write "\n"
    exact (ih (p.follow mark)).trans kept

theorem Adds.append (first : Adds a b ls d d') (second : Adds b c ks e e') :
    Adds a c (ls ++ ks) (d ++ e) (d' ++ e') := by
  cases broken : d.fault with
  | some fault =>
    rw [append_of_fault broken, append_of_fault (first.fault.symm.trans broken)]
    exact ⟨first.fault, fun unbroken => by rw [broken] at unbroken; cases unbroken⟩
  | none =>
    have broken' := first.fault.symm.trans broken
    refine ⟨?_, fun unbroken before p p' h place => ?_⟩
    · rw [append_of_unbroken broken, append_of_unbroken broken']
      exact second.fault
    · rw [append_of_unbroken broken] at unbroken
      rw [on_append broken, on_append broken', ← List.append_assoc]
      obtain ⟨h, place⟩ := first.pages broken before p p' h place
      exact second.pages unbroken _ _ _ h place

/-- A draft that adds nothing where it leads related pages to related pages. -/
theorem Adds.of_pages (pages : ∀ ks (p p' : Page), p.Adds ks p' → a.Holds p p' →
    (d.on p).Adds ks (d.on p') ∧ b.Holds (d.on p) (d.on p')) : Adds a b [] d d where
  fault := rfl
  pages _ ks p p' h place := by
    rw [List.append_nil]
    exact pages ks p p' h place

theorem Adds.text (s : String) : Adds a .anywhere [] (.text s) (.text s) :=
  .of_pages fun _ _ _ h _ => ⟨h.write s, trivial⟩

/-- A text that ends with the end of a line. -/
theorem Adds.line {s : String} (ends : s.toList.getLast? = some '\n') :
    Adds a .lineStart [] (.text s) (.text s) :=
  .of_pages fun _ p _ h _ => ⟨h.write s, p.atLineStart_write ends⟩

theorem Adds.fail (fault : Unsupported) : Adds a b ls (.fail fault) (.fail fault) where
  fault := rfl
  pages unbroken := nomatch unbroken

theorem Adds.empty : Adds a a [] .empty .empty :=
  .of_pages fun _ _ _ h place => ⟨h, place⟩

/-- Between the parts of a program an empty line can be asked for. -/
theorem Adds.gap : Adds .between .lineStart [] (.mark .gap) (.mark .gap) := by
  refine .of_pages fun ks p p' h place => ?_
  change (p.follow .gap).Adds ks (p'.follow .gap) ∧ (p.follow .gap).atLineStart = true
  -- an empty page has no gap, so it matters that the two are empty together
  simp only [Page.follow, ← place.2]
  split
  · exact ⟨h, place.1⟩
  · exact ⟨h.write "\n", p.atLineStart_write rfl⟩

/-- The marks that close a draft lead from related pages to related pages. -/
theorem Adds.closedBy {marks : List Mark} (noGap : .gap ∉ marks)
    (h : Adds a .anywhere ls d d') :
    Adds a .anywhere ls (d.closedBy marks) (d'.closedBy marks) where
  fault := h.fault
  pages unbroken ks p p' adds place := by
    rw [on_closedBy, on_closedBy]
    refine ⟨?_, trivial⟩
    have adds := (h.pages unbroken ks p p' adds place).1
    clear h unbroken
    generalize d.on p = q, d'.on p' = q' at adds
    induction marks generalizing q q' with
    | nil => exact adds
    | cons mark rest ih =>
      rw [List.mem_cons, not_or] at noGap
      exact ih noGap.2 _ _ (adds.follow (Ne.symm noGap.1))

/-- What may stand anywhere may begin a line. -/
theorem Adds.starting (h : Adds .anywhere .anywhere ls d d') : Adds a .anywhere ls d d' :=
  ⟨h.fault, fun unbroken ks p p' adds _ => h.pages unbroken ks p p' adds trivial⟩

/-- Where a draft leads to is somewhere. -/
theorem Adds.ending (h : Adds a b ls d d') : Adds a .anywhere ls d d' :=
  ⟨h.fault, fun unbroken ks p p' adds place =>
    ⟨(h.pages unbroken ks p p' adds place).1, trivial⟩⟩

/-- A part of a program ends its last line, so neither page is empty afterwards. -/
theorem Adds.part (h : Adds a .anywhere ls d d') :
    Adds a .between ls (d ++ .text "\n") (d' ++ .text "\n") := by
  have newline : Adds .anywhere .between [] (.text "\n") (.text "\n") :=
    .of_pages fun _ p p' h _ => ⟨h.write "\n", p.atLineStart_write rfl,
      p.isEmpty_write_newline.trans p'.isEmpty_write_newline.symm⟩
  have together := h.append newline
  rwa [List.append_nil] at together

/-- A draft that writes a line can be left out where a line begins. -/
theorem Adds.added {line : String} (noNewline : '\n' ∉ line.toList) (unbroken : d.fault = none)
    (writes : ∀ p, d.on p = p.write (line ++ "\n")) :
    Adds .lineStart .lineStart [line] d .empty where
  fault := unbroken
  pages _ _ p p' h starts := by
    rw [writes]
    refine ⟨h.write_line noNewline starts, ?_⟩
    exact Page.atLineStart_write (s := line ++ "\n") (by simp) p

end Draft

end Polyscript
