import Polyscript.Proofs.Layout.Addition
import Polyscript.Proofs.Spelling.Unbroken

/-!
# Scanning a text for brackets

A scanner reads a text from the left and keeps the brackets that are open. What is quoted and
what is a comment is skipped. It stops at a bracket that closes no open one, and at a line that
ends between quotes.

A draft leads a scanner from one state to another if that is where it is after the draft, on
whatever page the draft is carried out. The indentation that a page puts in does not matter, as
long as it has nothing in it that a scanner would notice.

## Main definitions

* `Scanner`, `Scanner.step`: a scanner and how it reads a character.
* `Text.IsBalanced`: texts in which all brackets are closed at the end.
* `Draft.Leads`, `Draft.IsClosed`: where a draft leads a scanner, and drafts that close whatever
  they open.
-/

namespace Polyscript

/-- What a scanner is in the middle of. -/
inductive Scanner.Mode where
  | code
  /-- Behind a slash, which another one makes the beginning of a comment. -/
  | slash
  | comment
  | quoted
  /-- Behind a backslash between quotes, which protects the next character. -/
  | escaped
  deriving DecidableEq

/-- A scanner with the brackets that are missing to what is open, the innermost first. -/
structure Scanner where
  mode : Scanner.Mode
  missing : List Char
  deriving DecidableEq

namespace Scanner

/-- A scanner within code. -/
abbrev code (missing : List Char) : Scanner := ⟨.code, missing⟩

/-- A bracket is closed if it is the innermost one. -/
def close (c : Char) : List Char → Option Scanner
  | [] => none
  | d :: rest => if c = d then some (code rest) else none

/-- Read a character of code. -/
def stepCode (missing : List Char) (c : Char) : Option Scanner :=
  match c with
  | '"' => some ⟨.quoted, missing⟩
  | '/' => some ⟨.slash, missing⟩
  | '(' => some (code (')' :: missing))
  | '[' => some (code (']' :: missing))
  | '\x7b' => some (code ('\x7d' :: missing))
  | ')' | ']' | '\x7d' => close c missing
  | _ => some (code missing)

/-- Read a character. -/
def step : Scanner → Char → Option Scanner
  | ⟨.code, missing⟩, c => stepCode missing c
  | ⟨.slash, missing⟩, c => if c = '/' then some ⟨.comment, missing⟩ else stepCode missing c
  | ⟨.comment, missing⟩, c => some ⟨if c = '\n' then .code else .comment, missing⟩
  | ⟨.quoted, missing⟩, c =>
    match c with
    | '"' => some (code missing)
    | '\\' => some ⟨.escaped, missing⟩
    | '\n' => none
    | _ => some ⟨.quoted, missing⟩
  | ⟨.escaped, missing⟩, c => if c = '\n' then none else some ⟨.quoted, missing⟩

/-- Read a text. -/
def scan (s : Scanner) (text : List Char) : Option Scanner := text.foldlM step s

/-- The characters that have a meaning for a scanner within code. -/
def delimiters : List Char := ['(', ')', '[', ']', '\x7b', '\x7d', '"', '/']

/-- Whether a text has no brackets, quotes or slashes. -/
def IsPlain (text : String) : Prop := ∀ c ∈ text.toList, c ∉ delimiters

instance (text : String) : Decidable (IsPlain text) :=
  List.decidableBAll (p := (· ∉ delimiters)) text.toList

variable {s s' s'' : Scanner} {missing : List Char} {c : Char}

@[simp] theorem scan_nil : s.scan [] = some s := rfl

theorem scan_cons (c : Char) (rest : List Char) :
    s.scan (c :: rest) = (s.step c).bind (scan · rest) :=
  List.foldlM_cons

theorem scan_append (text rest : List Char) :
    s.scan (text ++ rest) = (s.scan text).bind (scan · rest) :=
  List.foldlM_append

theorem scan_append_of {text rest : List Char} (first : s.scan text = some s')
    (second : s'.scan rest = some s'') : s.scan (text ++ rest) = some s'' := by
  rw [scan_append, first]
  exact second

/-- Nothing that a name or a number has in it is a delimiter. -/
theorem notWord_of_mem_delimiters (mem : c ∈ delimiters) :
    c.isAlpha = false ∧ c ≠ '_' ∧ c ≠ '$' ∧ c.isDigit = false := by
  simp only [delimiters, List.mem_cons, List.not_mem_nil, or_false] at mem
  rcases mem with rfl | rfl | rfl | rfl | rfl | rfl | rfl | rfl <;> decide

theorem stepCode_of_notMem (plain : c ∉ delimiters) : stepCode missing c = some (code missing) := by
  unfold stepCode
  split <;> first | rfl | exact absurd (by decide) plain

theorem scan_of_plain {text : List Char} (plain : ∀ c ∈ text, c ∉ delimiters) :
    (code missing).scan text = some (code missing) := by
  induction text with
  | nil => rfl
  | cons c rest ih =>
    obtain ⟨first, others⟩ := List.forall_mem_cons.1 plain
    rw [scan_cons, step, stepCode_of_notMem first]
    exact ih others

/-- A line ends within code or with a comment. -/
theorem mode_of_newline (next : s.step '\n' = some s') : s'.mode = .code := by
  obtain ⟨mode, missing⟩ := s
  cases mode with
  | quoted | escaped => cases next
  | code | slash | comment =>
    obtain rfl := Option.some.inj next
    rfl

end Scanner

open Scanner

/-- Whether all brackets of a text are closed, each one behind those that were opened later, and
it ends neither between quotes nor within a comment. -/
def Text.IsBalanced (text : String) : Prop := (code []).scan text.toList = some (code [])

instance (text : String) : Decidable (Text.IsBalanced text) :=
  inferInstanceAs (Decidable (_ = _))

example : Text.IsBalanced "f([\"(\\\"\"]) // [\n" := by decide
example : ¬Text.IsBalanced "f([)]" := by decide
example : ¬Text.IsBalanced "f(\")\n" := by decide

namespace Page

variable {p : Page} {s s' : Scanner}

/-- A page with a text behind which a scanner is in a state. Its indentation is plain, and put in
within code only. -/
structure Scans (p : Page) (s : Scanner) : Prop where
  plain : IsPlain p.unit
  text : (code []).scan p.text.toList = some s
  starts : p.atLineStart = true → s.mode = .code

theorem scans_blank {indent : String} (plain : IsPlain indent) : (blank indent).Scans (code []) :=
  ⟨plain, rfl, fun _ => rfl⟩

theorem plain_indentation {unit : String} (plain : IsPlain unit) (depth : Nat) :
    IsPlain (indentation unit depth) := by
  intro c mem
  rw [indentation, String.toList_join, List.mem_flatMap] at mem
  obtain ⟨copy, isCopy, mem⟩ := mem
  rw [List.eq_of_mem_replicate isCopy] at mem
  exact plain c mem

theorem Scans.put (h : p.Scans s) {c : Char} (next : s.step c = some s') : (p.put c).Scans s' := by
  have last : s.scan [c] = some s' := by rw [scan_cons, next]; rfl
  unfold Page.put
  split
  next isNewline =>
    refine ⟨h.plain, ?_, fun _ => mode_of_newline (isNewline ▸ next)⟩
    rw [String.toList_push, ← isNewline]
    exact scan_append_of h.text last
  next =>
    split
    next starts =>
      -- the indentation comes first, and a line begins within code
      refine ⟨h.plain, ?_, fun starts => absurd starts Bool.false_ne_true⟩
      obtain ⟨mode, missing⟩ := s
      obtain rfl := h.starts starts
      have indented :=
        scan_append_of h.text (scan_of_plain (plain_indentation h.plain p.depth))
      rw [String.toList_push, String.toList_append]
      exact scan_append_of indented last
    next inside =>
      refine ⟨h.plain, ?_, fun starts => absurd starts inside⟩
      rw [String.toList_push]
      exact scan_append_of h.text last

theorem Scans.write (h : p.Scans s) {text : String} (read : s.scan text.toList = some s') :
    (p.write text).Scans s' := by
  unfold Page.write
  generalize text.toList = chars at read
  induction chars generalizing p s with
  | nil =>
    obtain rfl := Option.some.inj read
    exact h
  | cons c rest ih =>
    rw [scan_cons] at read
    obtain ⟨between, next, read⟩ := Option.bind_eq_some_iff.1 read
    exact ih (h.put next) read

end Page

namespace Draft

variable {d e : Draft} {s s' s'' : Scanner} {missing missing' : List Char}

/-- Whether a draft, unless it breaks off, leads a scanner from one state to another. -/
def Leads (d : Draft) (s s' : Scanner) : Prop :=
  d.Unbroken → ∀ p : Page, p.Scans s → (d.on p).Scans s'

theorem Leads.text {text : String} (read : s.scan text.toList = some s') :
    (Draft.text text).Leads s s' :=
  fun _ _ h => h.write read

theorem Leads.append (first : d.Leads s s') (second : e.Leads s' s'') : (d ++ e).Leads s s'' := by
  intro unbroken p h
  obtain ⟨ofFirst, ofSecond⟩ := unbroken_append.1 unbroken
  rw [on_append ofFirst]
  exact second ofSecond _ (first ofFirst _ h)

/-- A text behind a draft. -/
theorem Leads.write (h : d.Leads s s') {text : String} (read : s'.scan text.toList = some s'') :
    (d ++ Draft.text text).Leads s s'' :=
  h.append (.text read)

/-- Whether a draft closes whatever it opens. -/
def IsClosed (d : Draft) : Prop := ∀ missing, d.Leads (code missing) (code missing)

/-- A closed draft behind another one. -/
theorem Leads.then (h : d.Leads s (code missing)) (closed : e.IsClosed) :
    (d ++ e).Leads s (code missing) :=
  h.append (closed missing)

theorem IsClosed.empty : IsClosed .empty := fun _ _ _ h => h

theorem IsClosed.fail (fault : Unsupported) : IsClosed (.fail fault) :=
  fun _ unbroken => absurd unbroken (not_unbroken_fail fault)

/-- A text without brackets. -/
theorem IsClosed.text {text : String} (plain : IsPlain text) : IsClosed (.text text) :=
  fun _ => .text (scan_of_plain plain)

theorem IsClosed.append (first : d.IsClosed) (second : e.IsClosed) : (d ++ e).IsClosed :=
  fun missing => (first missing).then second

theorem IsClosed.write (h : d.IsClosed) {text : String} (plain : IsPlain text) :
    (d ++ Draft.text text).IsClosed :=
  h.append (.text plain)

/-- A closed draft behind a text. -/
theorem IsClosed.text_append (text : String) (plain : IsPlain text) (h : d.IsClosed) :
    (Draft.text text ++ d).IsClosed :=
  (IsClosed.text plain).append h

theorem IsClosed.joined (separator : String) (plain : IsPlain separator) {ds : List Draft}
    (all : ∀ d ∈ ds, d.IsClosed) : (Draft.joined separator ds).IsClosed := by
  induction ds with
  | nil => exact .empty
  | cons d rest ih =>
    obtain ⟨first, others⟩ := List.forall_mem_cons.1 all
    cases rest with
    | nil => exact first
    | cons => exact (first.write plain).append (ih others)

theorem IsClosed.concat {ds : List Draft} (all : ∀ d ∈ ds, d.IsClosed) :
    (Draft.concat ds).IsClosed := by
  induction ds with
  | nil => exact .empty
  | cons d rest ih =>
    obtain ⟨first, others⟩ := List.forall_mem_cons.1 all
    exact first.append (ih others)

theorem IsClosed.mark {m : Mark} (notText : ∀ text, m ≠ .text text) : IsClosed (.mark m) := by
  intro missing _ p h
  cases m with
  | text s => exact absurd rfl (notText s)
  | gap =>
    change (if p.isEmpty then p else p.write "\n").Scans _
    split
    · exact h
    · exact h.write rfl
  | indent | unindent | enterJson | leaveJson => exact ⟨h.plain, h.text, h.starts⟩

theorem IsClosed.indented (h : d.IsClosed) : d.indented.IsClosed :=
  ((IsClosed.mark (by simp)).append h).append (.mark (by simp))

end Draft

end Polyscript
