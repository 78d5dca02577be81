import Mathlib.Data.List.Forall2
import Polyscript.Proofs.Layout.Addition

/-!
# Drafts assembled alike

Two drafts are assembled alike when they are put together in the same way from pieces, each of
which is filled in with one draft here and with another one there. All that is not a piece,
the texts and the changes of depth, is the same in both. The pieces are listed in the order in
which they stand, and each of them is filled in once.

What a piece may be filled in with is left open, and so is whether structured literals begin and
end between the pieces. So one statement on how a construct is put together serves every question
about drafts and their pieces: which lines one draft adds to the other, where in a draft a piece
is written, and which literals stand in it.

## Main statements

* `Draft.Assembles.adds`: a draft adds the lines that its pieces add, in their order.
* `Draft.Assembles.infix_of_mem`: what fills a piece is written in the whole.
-/

namespace Polyscript

variable {ι : Type}

/-- What drafts are put together from. -/
structure Filling (ι : Type) where
  /-- What a piece may be filled in with: two drafts, at a place that holds before and after. -/
  fills : ι → Place → Draft → Draft → Prop
  /-- Whether structured literals may begin and end between the pieces. -/
  literals : Prop

/-- Whether the depth is changed, and nothing else. -/
def Mark.IsStep : Mark → Prop
  | .indent | .unindent => True
  | .text _ | .gap | .enterJson | .leaveJson => False

/-- Whether a text is written or the depth is changed. -/
def Mark.isPlain : Mark → Bool
  | .text _ | .indent | .unindent => true
  | .gap | .enterJson | .leaveJson => false

namespace Draft

/-- Two drafts that are put together in the same way from pieces. As with drafts that add lines
to each other, it is a part of the relation what they need to begin with and where they end. -/
inductive Assembles (fills : Filling ι) : Place → Place → List ι → Draft → Draft → Prop where
  | piece {i : ι} {a : Place} {d d' : Draft} (filled : fills.fills i a d d') :
    Assembles fills a a [i] d d'
  | text {a : Place} (s : String) : Assembles fills a .anywhere [] (.text s) (.text s)
  /-- A text that ends with the end of a line. -/
  | line {a : Place} {s : String} (ends : s.toList.getLast? = some '\n') :
    Assembles fills a .lineStart [] (.text s) (.text s)
  /-- What breaks off at once is written without its pieces. -/
  | fail {a b : Place} {is : List ι} (fault : Unsupported) :
    Assembles fills a b is (.fail fault) (.fail fault)
  | empty {a : Place} : Assembles fills a a [] .empty .empty
  | step {a : Place} {m : Mark} (isStep : m.IsStep) : Assembles fills a a [] (.mark m) (.mark m)
  /-- Between the parts of a program an empty line can be asked for. -/
  | gap : Assembles fills .between .lineStart [] (.mark .gap) (.mark .gap)
  | append {a b c : Place} {is js : List ι} {d d' e e' : Draft}
    (first : Assembles fills a b is d d') (second : Assembles fills b c js e e') :
    Assembles fills a c (is ++ js) (d ++ e) (d' ++ e')
  | closedBy {a : Place} {is : List ι} {d d' : Draft} {marks : List Mark}
    (plain : marks.all Mark.isPlain) (h : Assembles fills a .anywhere is d d') :
    Assembles fills a .anywhere is (d.closedBy marks) (d'.closedBy marks)
  /-- The ends of a structured literal are marked even if it breaks off. -/
  | literal {is : List ι} {d d' : Draft} (marked : fills.literals)
    (h : Assembles fills .anywhere .anywhere is d d') :
    Assembles fills .anywhere .anywhere is ((Draft.mark .enterJson ++ d).closedBy [.leaveJson])
      ((Draft.mark .enterJson ++ d').closedBy [.leaveJson])
  /-- What may stand anywhere may begin a line. -/
  | starting {a : Place} {is : List ι} {d d' : Draft}
    (h : Assembles fills .anywhere .anywhere is d d') : Assembles fills a .anywhere is d d'
  /-- Where a draft leads to is somewhere. -/
  | ending {a b : Place} {is : List ι} {d d' : Draft}
    (h : Assembles fills a b is d d') : Assembles fills a .anywhere is d d'
  /-- A part of a program ends its last line. -/
  | part {a : Place} {is : List ι} {d d' : Draft} (h : Assembles fills a .anywhere is d d') :
    Assembles fills a .between is (d ++ .text "\n") (d' ++ .text "\n")

/-- Drafts assembled alike that stand within a line or go over whole lines. -/
abbrev AssemblesWithin (fills : Filling ι) : List ι → Draft → Draft → Prop :=
  Assembles fills .anywhere .anywhere

/-- Drafts of lines that are assembled alike. -/
abbrev AssemblesLines (fills : Filling ι) : List ι → Draft → Draft → Prop :=
  Assembles fills .lineStart .lineStart

/-! ### Things in order -/

/-- Things of two lists that are assembled alike one after the other, with the pieces of all of
them. -/
inductive Spread {α β : Type} (R : List ι → α → β → Prop) : List ι → List α → List β → Prop where
  | nil : Spread R [] [] []
  | cons {is js : List ι} {a : α} {b : β} {as : List α} {bs : List β} (first : R is a b)
    (rest : Spread R js as bs) : Spread R (is ++ js) (a :: as) (b :: bs)

/-- Two things that may be missing, with their pieces. -/
inductive Optional {α β : Type} (R : List ι → α → β → Prop) :
    List ι → Option α → Option β → Prop where
  | none : Optional R [] none none
  | some {is : List ι} {a : α} {b : β} (h : R is a b) : Optional R is (some a) (some b)

theorem Spread.length_eq {α β : Type} {R : List ι → α → β → Prop} {is : List ι} {as : List α}
    {bs : List β} (h : Spread R is as bs) : as.length = bs.length := by
  induction h with
  | nil => rfl
  | cons _ _ ih => simp [ih]

theorem Spread.map {α β γ δ : Type} {R : List ι → α → β → Prop} {S : List ι → γ → δ → Prop}
    {f : α → γ} {g : β → δ} (kept : ∀ is a b, R is a b → S is (f a) (g b)) {is : List ι}
    {as : List α} {bs : List β} (h : Spread R is as bs) : Spread S is (as.map f) (bs.map g) := by
  induction h with
  | nil => exact .nil
  | cons first _ ih => exact .cons (kept _ _ _ first) ih

/-- Two images of one list. -/
theorem spread_map {α β γ : Type} {R : List ι → α → β → Prop} {f : γ → α} {g : γ → β}
    {pieces : γ → List ι} (l : List γ) (h : ∀ x, R (pieces x) (f x) (g x)) :
    Spread R (l.flatMap pieces) (l.map f) (l.map g) := by
  induction l with
  | nil => exact .nil
  | cons x rest ih => exact .cons (h x) ih

theorem Optional.toList {α β : Type} {R : List ι → α → β → Prop} {is : List ι} {a : Option α}
    {b : Option β} (h : Optional R is a b) : Spread R is a.toList b.toList := by
  cases h with
  | none => exact .nil
  | some h => simpa using Spread.cons h .nil

/-! ### Drafts put together -/

section Together

variable {fills : Filling ι} {a b : Place} {is js : List ι} {d d' e e' : Draft}
  {ds ds' : List Draft}

theorem Assembles.append_text (h : Assembles fills a b is d d') (s : String) :
    Assembles fills a .anywhere is (d ++ .text s) (d' ++ .text s) := by
  have together := h.append (.text s)
  rwa [List.append_nil] at together

theorem Assembles.text_append (s : String) (h : Assembles fills .anywhere b is d d') :
    Assembles fills a b is (.text s ++ d) (.text s ++ d') :=
  (Assembles.text s).append h

theorem Assembles.append_line {s : String} (ends : s.toList.getLast? = some '\n')
    (h : Assembles fills a b is d d') :
    Assembles fills a .lineStart is (d ++ .text s) (d' ++ .text s) := by
  have together := h.append (.line ends)
  rwa [List.append_nil] at together

theorem Assembles.indented (h : Assembles fills a b is d d') :
    Assembles fills a b is d.indented d'.indented := by
  have deeper : Assembles fills a b is (mark .indent ++ d) (mark .indent ++ d') :=
    (Assembles.step (m := .indent) trivial).append h
  have together := deeper.append (.step (m := .unindent) trivial)
  rwa [List.append_nil] at together

/-- What may stand anywhere can stand at the beginning of a line, and lines end with one. -/
theorem AssemblesWithin.lines {s : String} (ends : s.toList.getLast? = some '\n')
    (h : AssemblesWithin fills is d d') :
    AssemblesLines fills is (d ++ .text s) (d' ++ .text s) :=
  Assembles.append_line ends h.starting

/-- Lines one level deeper after a text that ends a line. -/
theorem AssemblesLines.opened {opening : String} (ends : opening.toList.getLast? = some '\n')
    (lines : AssemblesLines fills is d d') :
    Assembles fills a .anywhere is (.text opening ++ d.indented) (.text opening ++ d'.indented) :=
  ((Assembles.line ends).append lines.indented).ending

/-- Lines one level deeper after a head whose last text ends a line. -/
theorem AssemblesLines.suite {opening : String} (ends : opening.toList.getLast? = some '\n')
    (head : Assembles fills a b is d d') (lines : AssemblesLines fills js e e') :
    Assembles fills a .anywhere (is ++ js) (d ++ .text opening ++ e.indented)
      (d' ++ .text opening ++ e'.indented) :=
  ((head.append_line ends).append lines.indented).ending

theorem Assembles.concat (h : Spread (Assembles fills a a) is ds ds') :
    Assembles fills a a is (Draft.concat ds) (Draft.concat ds') := by
  induction h with
  | nil => exact .empty
  | cons first _ ih => exact first.append ih

theorem AssemblesWithin.joined (separator : String)
    (h : Spread (AssemblesWithin fills) is ds ds') :
    AssemblesWithin fills is (Draft.joined separator ds) (Draft.joined separator ds') := by
  induction h with
  | nil => exact .empty
  | cons first others ih =>
    cases others with
    | nil => rwa [List.append_nil]
    | cons _ _ => exact (first.append_text separator).append ih

end Together

/-! ### What is kept -/

/-- What is put together from pieces is so from pieces that may be filled in with more. -/
theorem Assembles.mono {fills more : Filling ι} {a b : Place} {is : List ι} {d d' : Draft}
    (h : Assembles fills a b is d d')
    (filled : ∀ i c e e', fills.fills i c e e' → more.fills i c e e')
    (literals : fills.literals → more.literals) : Assembles more a b is d d' := by
  induction h with
  | piece h => exact .piece (filled _ _ _ _ h)
  | text s => exact .text s
  | line ends => exact .line ends
  | fail fault => exact .fail fault
  | empty => exact .empty
  | step isStep => exact .step isStep
  | gap => exact .gap
  | append _ _ ih ih' => exact .append ih ih'
  | closedBy plain _ ih => exact .closedBy plain ih
  | literal marked _ ih => exact .literal (literals marked) ih
  | starting _ ih => exact .starting ih
  | ending _ ih => exact .ending ih
  | part _ ih => exact .part ih

/-- A draft adds to another one the lines that its pieces add, in the order of the pieces. -/
theorem Assembles.adds {fills : Filling ι} {a b : Place} {is : List ι} {d d' : Draft}
    (h : Assembles fills a b is d d') (lines : ι → List String)
    (pieces : ∀ i ∈ is, ∀ c e e', fills.fills i c e e' → Adds c c (lines i) e e') :
    Adds a b (is.flatMap lines) d d' := by
  induction h with
  | piece filled =>
    simpa using pieces _ (List.mem_singleton_self _) _ _ _ filled
  | text s => exact .text s
  | line ends => exact .line ends
  | fail fault => exact .fail fault
  | empty => exact .empty
  | @step place m isStep =>
    have notGap : m ≠ .gap := by
      rintro rfl
      exact isStep
    refine .of_pages fun ks p p' adds holds => ⟨adds.follow notGap, ?_⟩
    -- a change of depth leaves the text, and with it the place, as it is
    cases m with
    | indent | unindent => cases place <;> exact holds
    | _ => exact absurd isStep id
  | gap => exact .gap
  | append _ _ ih ih' =>
    obtain ⟨left, right⟩ := List.forall_mem_append.1 pieces
    rw [List.flatMap_append]
    exact (ih left).append (ih' right)
  | closedBy plain _ ih =>
    refine (ih pieces).closedBy fun isGap => ?_
    exact absurd (List.all_eq_true.1 plain _ isGap) (by decide)
  | literal _ _ ih =>
    -- on a page alone the ends of a literal make no difference
    have begun : Adds .anywhere .anywhere [] (.mark .enterJson) (.mark .enterJson) :=
      .of_pages fun _ _ _ adds _ => ⟨adds, trivial⟩
    exact (begun.append (ih pieces)).closedBy (by decide)
  | starting _ ih => exact (ih pieces).starting
  | ending _ ih => exact (ih pieces).ending
  | part _ ih => exact (ih pieces).part

/-- If a draft does not break off, what fills a piece does not either and is written in it. -/
theorem Assembles.infix_of_mem {fills : Filling ι} {a b : Place} {is : List ι} {d d' : Draft}
    (h : Assembles fills a b is d d') (unbroken : d.fault = none) {i : ι} (mem : i ∈ is) :
    ∃ c e e', fills.fills i c e e' ∧ e.fault = none ∧ e.marks <:+: d.marks := by
  induction h with
  | @piece j c e e' filled =>
    obtain rfl := List.mem_singleton.1 mem
    exact ⟨c, e, e', filled, unbroken, List.infix_rfl⟩
  | fail => cases unbroken
  | text | line | empty | step | gap => cases mem
  | @append _ _ _ _ _ d d' e e' _ _ ih ih' =>
    -- the first draft is unbroken, or it would be all there is
    cases broken : d.fault with
    | some fault =>
      rw [append_of_fault broken, broken] at unbroken
      cases unbroken
    | none =>
      rw [append_of_unbroken broken] at unbroken ⊢
      rcases List.mem_append.1 mem with left | right
      · obtain ⟨c, f, f', filled, ok, written⟩ := ih broken left
        exact ⟨c, f, f', filled, ok, written.trans (List.prefix_append _ _).isInfix⟩
      · obtain ⟨c, f, f', filled, ok, written⟩ := ih' unbroken right
        exact ⟨c, f, f', filled, ok, written.trans (List.suffix_append _ _).isInfix⟩
  | closedBy _ _ ih =>
    obtain ⟨c, f, f', filled, ok, written⟩ := ih unbroken mem
    exact ⟨c, f, f', filled, ok, written.trans (List.prefix_append _ _).isInfix⟩
  | @literal _ d _ _ _ ih =>
    have unbroken : d.fault = none := unbroken
    obtain ⟨c, f, f', filled, ok, written⟩ := ih unbroken mem
    have within : d.marks <:+: .enterJson :: d.marks ++ [.leaveJson] := ⟨[.enterJson], _, rfl⟩
    exact ⟨c, f, f', filled, ok, written.trans within⟩
  | starting _ ih | ending _ ih => exact ih unbroken mem
  | @part _ _ d _ _ ih =>
    cases broken : d.fault with
    | some fault =>
      rw [append_of_fault broken, broken] at unbroken
      cases unbroken
    | none =>
      obtain ⟨c, f, f', filled, ok, written⟩ := ih broken mem
      rw [append_of_unbroken broken]
      exact ⟨c, f, f', filled, ok, written.trans (List.prefix_append _ _).isInfix⟩

end Draft

end Polyscript
