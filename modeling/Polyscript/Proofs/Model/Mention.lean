import Polyscript.Proofs.Model.Written
import Polyscript.Proofs.Spelling.Name
import Polyscript.Proofs.Spelling.Written

/-!
# Names in a program

A program mentions names where it binds them and where it refers to them. Every mention is
written as a word: the name itself where it stands alone, and otherwise what the target language
makes of it. The same place may need names that the program does not have.

## Main definitions

* `Mention`: a name with what it stands for.
* `Site`: a place of a program where names are written.
* `Site.bound`, `Site.used`: the names that a site binds, and those that it refers to.

## Main statements

* `Unit.writes_mention`: every name that is mentioned is written as its word.
-/

namespace Polyscript.Model

variable {t : Target} {indent text : String} {unit : Unit} {d : Draft}

/-- A name in a program: of a variable, of a method of the enclosing instance, or a name that is
written as it stands. -/
inductive Mention where
  | var (name : String) (scope : Scope)
  | method (name : String)
  | plain (name : String)
  deriving DecidableEq

namespace Mention

/-- The word that a name is written as. -/
def word (t : Target) : Mention → String
  | .var name scope => t.variableName name scope
  | .method name => t.methodName name
  | .plain name => name

/-- The name of a local variable or of a parameter. -/
def local? : Mention → Option String
  | .var name .variable | .var name .parameter | .plain name => some name
  | _ => none

/-- Whether a name is written as it stands whatever it is. -/
def isPlain : Mention → Bool
  | .plain _ => true
  | _ => false

end Mention

theorem Mention.word_of_local {m : Mention} {name : String} (named : m.local? = some name) :
    m.word t = if m.isPlain then name else t.identifier name := by
  cases m with
  | var other scope => cases scope <;> cases named <;> simp [Mention.word, Mention.isPlain]
  | method other => cases named
  | plain other =>
    obtain rfl := Option.some.inj named
    rfl

/-- A place of a program where names are written. -/
inductive Site where
  | field (field : Field)
  | method (method : Method)
  | part (part : Part)

/-- Whether a place is one of a program. -/
def Unit.HasSite (unit : Unit) : Site → Prop
  | .field f => f ∈ unit.fields
  | .method m => m ∈ unit.methods
  | .part p => unit.Renders p

namespace Site

/-- Whether a draft is one of a place. -/
def Drafts (t : Target) : Site → Draft → Prop
  | .field f, d => d = f.draft t
  | .method m, d => d = m.draft t
  | .part p, d => p.Drafts t d

/-- The name for a key or a value in an iteration over a map. Kotlin takes it as it stands. -/
def entry (t : Target) (name : String) : Mention :=
  match t with
  | .kotlin => .plain name
  | _ => .var name .parameter

/-- The names that a place binds. -/
def bound (t : Target) : Site → List Mention
  | .field f => [.var f.name .field]
  | .method m =>
    .method m.signature.name ::
      (t.writtenParams m.signature m.paramNames).map (.var · .parameter)
  | .part (.stmt (.varDecl scope _ name _)) => [.var name scope]
  | .part (.stmt (.tryCatch _ param _)) => [.var param .variable]
  | .part (.stmt (.sequenceFor id ..)) => [.var id .variable]
  | .part (.stmt (.forEach element ..)) => [.var element .variable]
  | .part (.expr _ (.lambda function)) => function.paramNames.map (.var · .parameter)
  | .part (.expr _ (.asyncHandler handler)) => [.var handler.name .parameter]
  | .part (.expr _ (.access (.mapForEach _ key value _))) => [entry t key, entry t value]
  | _ => []

/-- The names that a place refers to. JavaScript has no name for a result in what is asked of
its error. -/
def used (t : Target) : Site → List Mention
  | .part (.expr _ (.identifier name scope)) => [.var name scope]
  | .part (.expr _ (.asyncResult name _)) => [.var name .parameter]
  | .part (.expr _ (.asyncCall name _ op)) =>
    if t = .javascript ∧ op ≠ .result then [] else [.plain name]
  | .part (.expr _ (.asyncHandler handler)) =>
    if t ≠ .javascript ∧ handler.isSplit then [.plain handler.name] else []
  | .part (.expr _ (.invocation receiver site)) =>
    if receiver.isThis then [.method site.method.name] else []
  | .part (.expr _ (.methodReference receiver signature)) =>
    if receiver.isThis then [.method signature.name] else []
  | _ => []

/-- The names that a place mentions. -/
def mentions (t : Target) (site : Site) : List Mention := site.bound t ++ site.used t

end Site

/-! ### One place -/

theorem Position.writes_finish {word : String} (position : Position) (terminator : String)
    (h : d.Writes word) : (position.finish terminator d).Writes word := by
  cases position with
  | part => exact h
  | line | body => exact (h.append_right _).append_right _

theorem Position.unbroken_finish {position : Position} {terminator : String} :
    (position.finish terminator d).Unbroken ↔ d.Unbroken := by
  cases position <;> simp [Position.finish]

theorem writes_entry (map : d.Unbroken) {key value name : String}
    (mem : name ∈ [key, value]) (body : BodyDraft) :
    (t.mapForEach d key value body).Writes ((Site.entry t name).word t) := by
  have written := t.writes_mapForEach map mem body
  cases t <;> exact written

theorem AsyncHandler.writes_param (handler : AsyncHandler) {param : String}
    (mem : param ∈ t.handlerParams handler.name) (inside : Bool) :
    (handler.draft t inside).Writes (t.identifier param) := by
  obtain ⟨name, paramType, resultType, body, succeeded, failed⟩ := handler
  cases succeeded <;> cases failed <;> exact Target.writes_lambda mem _

/-- What the branches of a callback depend on is asked by the name of its parameter. -/
theorem AsyncHandler.writes_check (notJs : t ≠ .javascript) {handler : AsyncHandler}
    (isSplit : handler.isSplit) (inside : Bool) :
    (handler.draft t inside).Writes handler.name := by
  obtain ⟨name, paramType, resultType, body, succeeded, failed⟩ := handler
  have asked (op : AsyncOp) : (Draft.text (t.asyncCall name op)).Writes name :=
    Target.writes_asyncCall (absurd · notJs) name
  cases succeeded <;> cases failed
  case none.none => cases isSplit
  all_goals exact Target.writes_split (asked _) _ _ _

/-- A name that a statement binds is written as its word. -/
theorem Stmt.writes_bound {s : Stmt} {m : Mention} (mem : m ∈ (Site.part (.stmt s)).bound t)
    {inside : Bool} {position : Position} (unbroken : (s.draft t inside position).Unbroken) :
    (s.draft t inside position).Writes (m.word t) := by
  cases s with
  | varDecl scope type name init =>
    obtain rfl := List.mem_singleton.1 mem
    exact position.writes_finish _ (Target.writes_varDecl scope type name _)
  | tryCatch body param handler =>
    obtain rfl := List.mem_singleton.1 mem
    rw [Stmt.draft, Position.unbroken_finish, Target.unbroken_tryCatch] at unbroken
    rw [Mention.word, Target.variableName_variable]
    exact position.writes_finish _ (Target.writes_tryCatch unbroken.1 param)
  | sequenceFor id start stop body =>
    obtain rfl := List.mem_singleton.1 mem
    rw [Stmt.draft, Position.unbroken_finish, Target.unbroken_sequenceFor] at unbroken
    obtain ⟨start, stop, _⟩ := unbroken
    rw [Mention.word, Target.variableName_variable]
    exact position.writes_finish _ (Target.writes_sequenceFor start stop id)
  | forEach element type iterable body =>
    obtain rfl := List.mem_singleton.1 mem
    rw [Stmt.draft, Position.unbroken_finish, Target.unbroken_forEach] at unbroken
    rw [Mention.word, Target.variableName_variable]
    exact position.writes_finish _ (Target.writes_forEach unbroken.1 element)
  | _ => cases mem

/-- A name that an expression binds is written as its word. -/
theorem Expr.writes_bound {e : Expr} {isStatement inside : Bool} {m : Mention}
    (mem : m ∈ (Site.part (.expr isStatement e)).bound t)
    (unbroken : (e.draft t inside isStatement).Unbroken) :
    (e.draft t inside isStatement).Writes (m.word t) := by
  cases e with
  | lambda function =>
    obtain ⟨paramNames, paramTypes, body⟩ := function
    obtain ⟨name, isParam, rfl⟩ := List.mem_map.1 mem
    rw [Mention.word, Target.variableName_parameter]
    exact Target.writes_lambda isParam _
  | asyncHandler handler =>
    obtain rfl := List.mem_singleton.1 mem
    rw [Mention.word, Target.variableName_parameter]
    exact handler.writes_param (t.mem_handlerParams handler.name) inside
  | access operation =>
    cases operation with
    | mapForEach map key value body =>
      rw [Expr.draft, Access.draft, Target.unbroken_mapForEach] at unbroken
      obtain ⟨name, isEntry, rfl⟩ : ∃ name ∈ [key, value], m = Site.entry t name := by
        simpa [Site.bound] using mem
      exact writes_entry unbroken.1 isEntry _
    | _ => cases mem
  | _ => cases mem

/-- A name that a place binds is written as its word. -/
theorem Site.writes_bound {site : Site} {m : Mention} (mem : m ∈ site.bound t)
    (isDraft : site.Drafts t d) (unbroken : d.Unbroken) : d.Writes (m.word t) := by
  cases site with
  | field f =>
    obtain rfl := List.mem_singleton.1 mem
    obtain rfl := isDraft
    exact Target.writes_varDecl _ _ _ _
  | method function =>
    obtain rfl := isDraft
    rcases List.mem_cons.1 mem with rfl | mem
    · exact Target.writes_methodName _ _ _
    · obtain ⟨name, isParam, rfl⟩ := List.mem_map.1 mem
      rw [Mention.word, Target.variableName_parameter]
      exact Target.writes_method isParam _
  | part p =>
    cases p with
    | block b => cases mem
    | stmt s =>
      obtain ⟨inside, position, rfl⟩ := Part.drafts_stmt.1 isDraft
      exact Stmt.writes_bound mem unbroken
    | expr isStatement e =>
      obtain ⟨inside, rfl⟩ := Part.drafts_expr.1 isDraft
      exact Expr.writes_bound mem unbroken

/-- A name that a place refers to is written as its word. -/
theorem Site.writes_used {site : Site} {m : Mention} (mem : m ∈ site.used t)
    (isDraft : site.Drafts t d) (unbroken : d.Unbroken) : d.Writes (m.word t) := by
  cases site with
  | field | method => cases mem
  | part p =>
    cases p with
    | block | stmt => cases mem
    | expr isStatement e =>
      obtain ⟨inside, rfl⟩ := Part.drafts_expr.1 isDraft
      cases e with
      | identifier name scope =>
        obtain rfl := List.mem_singleton.1 mem
        exact Draft.writes_text _
      | asyncResult name type =>
        obtain rfl := List.mem_singleton.1 mem
        exact Draft.writes_text _
      | asyncCall name type op =>
        rw [Site.used] at mem
        split at mem
        next => cases mem
        next named =>
          obtain rfl := List.mem_singleton.1 mem
          refine Target.writes_asyncCall (fun isJs => ?_) name
          by_contra error
          exact named ⟨isJs, error⟩
      | asyncHandler handler =>
        rw [Site.used] at mem
        split at mem
        next isSplit =>
          obtain rfl := List.mem_singleton.1 mem
          exact AsyncHandler.writes_check isSplit.1 isSplit.2 inside
        next => cases mem
      | invocation receiver site =>
        rw [Site.used] at mem
        split at mem
        next isThis =>
          obtain rfl := List.mem_singleton.1 mem
          rw [Expr.draft, isThis]
          exact Target.writes_invocation _ _
        next => cases mem
      | methodReference receiver signature =>
        rw [Site.used] at mem
        split at mem
        next isThis =>
          obtain rfl := List.mem_singleton.1 mem
          rw [Expr.draft, isThis]
          exact Target.writes_methodReference (Expr.unbroken_of_isThis isThis) _ _
        next => cases mem
      | _ => cases mem

/-! ### Programs -/

/-- Nothing is mentioned by a literal. -/
theorem Site.notLiteral_of_mem {p : Part} {m : Mention} (mem : m ∈ (Site.part p).mentions t) :
    p.isLiteral = false := by
  cases p with
  | expr isStatement e =>
    cases e with
    | literal => cases mem
    | _ => rfl
  | _ => rfl

/-- Every place of a program that is not a literal is written. -/
theorem Unit.exists_site_draft (ok : unit.render t indent = .ok text) {site : Site}
    (has : unit.HasSite site) (notLiteral : ∀ p, site = .part p → p.isLiteral = false) :
    ∃ d, site.Drafts t d ∧ d.Unbroken ∧ d.marks <:+: (unit.draft t).marks := by
  have unbroken : (unit.draft t).Unbroken := Unit.fault_of_render ok
  obtain ⟨declared, _⟩ := Draft.unbroken_append.1 unbroken
  obtain ⟨fields, methods⟩ := Draft.unbroken_append.1 declared
  cases site with
  | field f =>
    have mem := List.mem_map_of_mem (f := fun f : Field => f.draft t ++ t.terminator ++ "\n") has
    have lines := Draft.unbroken_concat.1 fields _ mem
    have own : (f.draft t).marks <:+: (f.draft t ++ t.terminator ++ "\n").marks :=
      (Draft.infix_append_right _ _).trans (Draft.infix_append_right _ _)
    have within := own.trans (Draft.infix_concat fields mem)
    refine ⟨f.draft t, rfl, by simpa using lines, within.trans ?_⟩
    exact (Draft.infix_append_right _ _).trans (Draft.infix_append_right _ _)
  | method m =>
    have mem := List.mem_map_of_mem
      (f := fun m : Method => Draft.mark .gap ++ m.draft t ++ "\n") has
    have lines := Draft.unbroken_concat.1 methods _ mem
    have own : (m.draft t).marks <:+: (Draft.mark .gap ++ m.draft t ++ "\n").marks :=
      (Draft.infix_append_left (Draft.unbroken_mark .gap) _).trans (Draft.infix_append_right _ _)
    have within := own.trans (Draft.infix_concat methods mem)
    refine ⟨m.draft t, rfl, by simpa using lines, within.trans ?_⟩
    exact (Draft.infix_append_left fields _).trans (Draft.infix_append_right _ _)
  | part p => exact Unit.exists_draft ok has (notLiteral p rfl)

/-- Whether the text of a program has a word at a place: in a draft of the place that is a stretch
of the draft of the program. -/
def Unit.WritesAt (t : Target) (unit : Unit) (site : Site) (word : String) : Prop :=
  ∃ d, site.Drafts t d ∧ d.marks <:+: (unit.draft t).marks ∧ d.Writes word

/-- Every name that a program mentions is written as its word, at the place that mentions it. -/
theorem Unit.writes_mention (ok : unit.render t indent = .ok text) {site : Site}
    (has : unit.HasSite site) {m : Mention} (mem : m ∈ site.mentions t) :
    unit.WritesAt t site (m.word t) := by
  have notLiteral : ∀ p, site = .part p → p.isLiteral = false := by
    rintro p rfl
    exact Site.notLiteral_of_mem mem
  obtain ⟨d, isDraft, unbroken, within⟩ := Unit.exists_site_draft ok has notLiteral
  rcases List.mem_append.1 mem with isBound | isUsed
  · exact ⟨d, isDraft, within, Site.writes_bound isBound isDraft unbroken⟩
  · exact ⟨d, isDraft, within, Site.writes_used isUsed isDraft unbroken⟩

end Polyscript.Model
