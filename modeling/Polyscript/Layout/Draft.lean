import Polyscript.Layout.Page
import Polyscript.Unsupported

/-!
# Drafts

A draft says what is to be done to a page without knowing the page: which texts to
write, where to change the depth. A draft may break off with a fault; what was to be
done before the fault is still done, and what follows a broken draft is left out.

Drafts are put together with `++`. Since a draft knows nothing of the page, the same
construct is always drafted in the same way wherever it stands.
-/

namespace Polyscript

/-- One thing to do to a page. -/
inductive Mark where
  | text (s : String)
  | indent
  | unindent
  /-- An empty line, unless the page is empty. -/
  | gap
  /-- A structured literal of Kotlin begins. -/
  | enterJson
  /-- A structured literal of Kotlin has ended. -/
  | leaveJson
  deriving DecidableEq

/-- Do one thing to a page. On a page alone, where structured literals begin and end makes
no difference; `Writer` counts the open ones. -/
def Page.follow (p : Page) : Mark → Page
  | .text s => p.write s
  | .indent => p.indent
  | .unindent => p.unindent
  | .gap => if p.isEmpty then p else p.write "\n"
  | .enterJson | .leaveJson => p

/-- What is to be done to a page, and the fault with which it breaks off, if any. -/
structure Draft where
  marks : List Mark
  fault : Option Unsupported

namespace Draft

/-- Nothing to do. -/
def empty : Draft := ⟨[], none⟩

instance : Inhabited Draft := ⟨empty⟩

/-- Write a text. -/
def text (s : String) : Draft := ⟨[.text s], none⟩

instance : Coe String Draft := ⟨text⟩

/-- Do one thing. -/
def mark (m : Mark) : Draft := ⟨[m], none⟩

/-- Break off. -/
def fail (fault : Unsupported) : Draft := ⟨[], some fault⟩

/-- One draft after another; a broken one is the last. -/
def append (first second : Draft) : Draft :=
  match first.fault with
  | some _ => first
  | none => ⟨first.marks ++ second.marks, second.fault⟩

instance : Append Draft := ⟨append⟩

theorem empty_append (d : Draft) : empty ++ d = d := rfl

/-- What follows a broken draft is left out. -/
theorem append_of_fault {first : Draft} {fault : Unsupported} (broken : first.fault = some fault)
    (second : Draft) : first ++ second = first := by
  change append first second = first
  simp [append, broken]

theorem append_of_unbroken {first : Draft} (unbroken : first.fault = none) (second : Draft) :
    first ++ second = ⟨first.marks ++ second.marks, second.fault⟩ := by
  change append first second = _
  simp [append, unbroken]

theorem append_empty (d : Draft) : d ++ empty = d := by
  obtain ⟨marks, fault⟩ := d
  cases fault with
  | some fault => exact append_of_fault rfl empty
  | none => simp [append_of_unbroken, empty]

theorem append_assoc (first second third : Draft) :
    first ++ second ++ third = first ++ (second ++ third) := by
  obtain ⟨marks, fault⟩ := first
  cases fault with
  | some fault => simp [append_of_fault]
  | none =>
    obtain ⟨marks', fault'⟩ := second
    cases fault' with
    | some fault' => simp [append_of_unbroken, append_of_fault]
    | none => simp [append_of_unbroken]

/-- A draft that is closed by further marks even if it is broken. -/
def closedBy (d : Draft) (marks : List Mark) : Draft := ⟨d.marks ++ marks, d.fault⟩

/-- A draft one level deeper. The depth is not restored if the draft is broken. -/
def indented (d : Draft) : Draft := mark .indent ++ d ++ mark .unindent

/-- Drafts with a separator between them. -/
def joined (separator : String) : List Draft → Draft
  | [] => empty
  | [d] => d
  | d :: rest => d ++ text separator ++ joined separator rest

/-- Drafts one after another. -/
def concat : List Draft → Draft
  | [] => empty
  | d :: rest => d ++ concat rest

/-- Carry a draft out on a page. -/
def on (d : Draft) (p : Page) : Page := d.marks.foldl Page.follow p

/-- An unbroken draft is carried out before the one that follows it. -/
theorem on_append {first : Draft} (unbroken : first.fault = none) (second : Draft) (p : Page) :
    (first ++ second).on p = second.on (first.on p) := by
  rw [append_of_unbroken unbroken]
  exact List.foldl_append

/-- The closing marks are followed whether or not the draft is broken. -/
theorem on_closedBy (d : Draft) (marks : List Mark) (p : Page) :
    (d.closedBy marks).on p = marks.foldl Page.follow (d.on p) :=
  List.foldl_append

end Draft

end Polyscript
