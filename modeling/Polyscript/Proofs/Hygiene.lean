import Polyscript.Proofs.Model.Mention

/-!
# Names that are changed and names that are made up

A name is written in the same way where it is bound and where it is used, but for reserved names
at two kinds of places where a name is written as it stands: for the keys and values of a map in
Kotlin, and in what is asked of an asynchronous result.

Where the source has no name to write, or a reserved one, a name is made up without a look at the
names in use. It is the name of a variable of the source as soon as the source happens to have a
variable of that name.

## Main statements

* `Unit.spelled_alike_iff`: when a binding and a use of a name are written alike.
* `Unit.madeUp_clashes_iff`: when a name that is made up is that of a variable.
-/

namespace Polyscript.Model

variable {t : Target} {indent text : String} {unit : Unit}

/-! ### Bindings and uses -/

/-- Wherever a program binds a name and wherever it uses it, the name is written, and in both
places as the same word exactly if it is not reserved or is written as it stands in both places
or in none of them. -/
theorem Unit.spelled_alike_iff (ok : unit.render t indent = .ok text) {site site' : Site}
    (has : unit.HasSite site) (has' : unit.HasSite site') {b u : Mention} {name : String}
    (bound : b ∈ site.bound t) (used : u ∈ site'.used t) (ofBinding : b.local? = some name)
    (ofUse : u.local? = some name) :
    unit.WritesAt t site (b.word t) ∧ unit.WritesAt t site' (u.word t) ∧
    (b.word t = u.word t ↔ name ∉ t.reserved ∨ b.isPlain = u.isPlain) := by
  refine ⟨Unit.writes_mention ok has (List.mem_append_left _ bound),
    Unit.writes_mention ok has' (List.mem_append_right _ used), ?_⟩
  rw [Mention.word_of_local ofBinding, Mention.word_of_local ofUse, ← Target.identifier_eq_self_iff]
  cases b.isPlain <;> cases u.isPlain <;> simp [eq_comm]

/-! A reserved name, bound where it is changed and used where it is not, or the other way. -/

/-- A program that consists of statements. -/
def Unit.ofStmts (stmts : List Stmt) : Unit where
  name := "demo.App"
  fields := []
  methods := []
  entry := .ofStmts stmts

/-- What is rendered for one of the statements is rendered for the program. -/
theorem Unit.hasSite_ofStmts {s : Stmt} {rest : List Stmt} {stmt : Stmt} {q : Part}
    (mem : stmt ∈ s :: rest) (renders : (Part.stmt stmt).Renders q) :
    (Unit.ofStmts (s :: rest)).HasSite (.part q) :=
  ⟨.block (.ofStmts (s :: rest)), List.mem_singleton_self _,
    .head (List.mem_map_of_mem mem) renders⟩

/-- An iteration over a map under the name `in` for its keys. -/
def keyLoop : Expr :=
  .access (.mapForEach (.identifier "counts" .variable) "in" "count"
    (.block (.ofStmts [.assign (.identifier "last" .variable) (.identifier "in" .parameter)])))

theorem hasSite_keyLoop : (Unit.ofStmts [.expr keyLoop]).HasSite (.part (.expr true keyLoop)) :=
  Unit.hasSite_ofStmts (.head _) (.head (List.mem_singleton_self _) .refl)

/-- The key is used in the iteration. -/
theorem hasSite_key : (Unit.ofStmts [.expr keyLoop]).HasSite
    (.part (.operand (.identifier "in" .parameter))) := by
  refine Unit.hasSite_ofStmts (.head _)
    (.head (List.mem_singleton_self _) (.head (.tail _ (.head _)) ?_))
  exact .head (.head _) (.head (.tail _ (.head _)) .refl)

theorem render_keyLoop : (Unit.ofStmts [.expr keyLoop]).render .kotlin "  " =
    .ok "for ((in, count) in counts) \x7b\n  last = `in`\n\x7d\n" := by
  decide +kernel

theorem spelled_alike_iff_keyLoop :
    (Unit.ofStmts [.expr keyLoop]).WritesAt .kotlin (.part (.expr true keyLoop)) "in" ∧
    (Unit.ofStmts [.expr keyLoop]).WritesAt .kotlin
      (.part (.operand (.identifier "in" .parameter))) "`in`" ∧
    ("in" = "`in`" ↔ "in" ∉ Target.reserved .kotlin ∨ true = false) := by
  have bound : Mention.plain "in" ∈ (Site.part (.expr true keyLoop)).bound .kotlin := .head _
  have used : Mention.var "in" .parameter ∈
      (Site.part (.operand (.identifier "in" .parameter))).used .kotlin :=
    .head _
  exact Unit.spelled_alike_iff render_keyLoop hasSite_keyLoop hasSite_key bound used rfl rfl

/-- Whether a program binds a local variable under one word and uses it under another one. -/
def Unit.SpellsApart (t : Target) (unit : Unit) (name : String) : Prop :=
  ∃ site site' b u, unit.HasSite site ∧ unit.HasSite site' ∧ b ∈ site.bound t ∧
    u ∈ site'.used t ∧ b.local? = some name ∧ u.local? = some name ∧ b.word t ≠ u.word t

/-- A callback that asks a result of the name `in` for its value. -/
def valueCallback : Expr :=
  .asyncHandler {
    name := "in"
    paramType := .parameterized ⟨"io.vertx.core.AsyncResult", .asyncResult⟩ [.string]
    resultType := .string
    body := .expr (.asyncCall "in" .string .result)
    succeeded := none
    failed := none }

/-- The key of a map is bound as it stands in Kotlin and used under another word. The parameter
of a callback is bound under another word in every language and asked as it stands. -/
theorem reserved_spelled_apart :
    (Unit.ofStmts [.expr keyLoop]).SpellsApart .kotlin "in" ∧
    (Unit.ofStmts [.expr keyLoop]).render .kotlin "  " =
      .ok "for ((in, count) in counts) \x7b\n  last = `in`\n\x7d\n" ∧
    (∀ t, (Unit.ofStmts [.expr valueCallback]).SpellsApart t "in") ∧
    (Unit.ofStmts [.expr valueCallback]).render .ruby "  " =
      .ok "lambda \x7b |in_| in.result \x7d\n" := by
  have ofCallback : (Unit.ofStmts [.expr valueCallback]).HasSite
      (.part (.expr true valueCallback)) :=
    Unit.hasSite_ofStmts (.head _) (.head (List.mem_singleton_self _) .refl)
  have ofCall : (Unit.ofStmts [.expr valueCallback]).HasSite
      (.part (.operand (.asyncCall "in" .string .result))) :=
    Unit.hasSite_ofStmts (.head _) (.head (List.mem_singleton_self _) (.head (.head _) .refl))
  refine ⟨⟨_, _, .plain "in", .var "in" .parameter, hasSite_keyLoop, hasSite_key, .head _, .head _,
    rfl, rfl, by decide +kernel⟩, render_keyLoop, fun t => ?_, by decide +kernel⟩
  refine ⟨_, _, .var "in" .parameter, .plain "in", ofCallback, ofCall, .head _, ?_, rfl, rfl, ?_⟩
  · cases t <;> exact .head _
  · cases t <;> decide +kernel

/-! ### Names that are made up -/

namespace Mention

/-- A name without regard to whether it is reserved. -/
def base (t : Target) : Mention → String
  | .var name _ | .plain name => name
  | .method name => t.cased name

/-- The word for a name if it were not reserved. -/
def stem (t : Target) : Mention → String
  | .var name scope => t.sigil scope ++ name
  | .method name => t.cased name
  | .plain name => name

/-- Whether a name is written as another word because it is reserved. -/
def isChanged (t : Target) (m : Mention) : Bool := !m.isPlain && t.reserved.contains (m.base t)

theorem word_of_not_isChanged {m : Mention} (same : m.isChanged t = false) :
    m.word t = m.stem t := by
  cases m with
  | plain name => rfl
  | var name scope =>
    have free : name ∉ t.reserved := by simpa [isChanged, isPlain, base] using same
    rw [word, stem, t.variableName_eq, Target.identifier_of_notMem free]
  | method name =>
    have free : t.cased name ∉ t.reserved := by simpa [isChanged, isPlain, base] using same
    rw [word, stem, t.methodName_eq, Target.identifier_of_notMem free]

/-- A name that is changed is reserved, and there is nothing more about it than the sign of its
scope. -/
theorem word_of_isChanged {m : Mention} (changed : m.isChanged t) :
    m.base t ∈ t.reserved ∧ ∃ scope, m.stem t = t.sigil scope ++ m.base t ∧
      m.word t = t.sigil scope ++ t.identifier (m.base t) := by
  refine ⟨by simpa using (Bool.and_eq_true_iff.1 changed).2, ?_⟩
  cases m with
  | plain name => cases changed
  | var name scope => exact ⟨scope, rfl, t.variableName_eq name scope⟩
  | method name =>
    have noSign : t.sigil .variable = "" := by cases t <;> rfl
    refine ⟨.variable, ?_, ?_⟩
    · rw [noSign, String.empty_append]
      rfl
    · rw [noSign, String.empty_append]
      exact t.methodName_eq name

end Mention

/-- What a place needs besides the names of the source: in JavaScript a name for the error of a
result, and in JavaScript and Kotlin parameters for a function that stands for a method
reference. -/
inductive Site.Needs : Target → Site → String → Prop where
  | error (isStatement : Bool) (handler : AsyncHandler) :
    Needs .javascript (.part (.expr isStatement (.asyncHandler handler))) (handler.name ++ "_err")
  | check (isStatement : Bool) (name : String) (type : TypeInfo) {op : AsyncOp}
    (ofError : op ≠ .result) :
    Needs .javascript (.part (.expr isStatement (.asyncCall name type op))) (name ++ "_err")
  | param {t : Target} (isFunction : t = .javascript ∨ t = .kotlin) (isStatement : Bool)
    (receiver : Expr) {signature : Signature} {word : String}
    (mem : word ∈ Target.referenceParams signature.params.length) :
    Needs t (.part (.expr isStatement (.methodReference receiver signature))) word

/-- The words that are made up at a place, each with the reserved name that it is for, if it is
for one. -/
inductive Site.MakesUp (t : Target) (site : Site) : Option String → String → Prop where
  | changed {m : Mention} (mem : m ∈ site.mentions t) (changed : m.isChanged t) :
    MakesUp t site (some (m.base t)) (m.word t)
  | needed {word : String} (needs : site.Needs t word) : MakesUp t site none word

/-- What a place needs is written. -/
theorem Site.Needs.writes {d : Draft} {site : Site} {word : String} (needs : Needs t site word)
    (isDraft : site.Drafts t d) (unbroken : d.Unbroken) : d.Writes word := by
  cases needs with
  | error isStatement handler =>
    obtain ⟨inside, rfl⟩ := Part.drafts_expr.1 isDraft
    have param := handler.writes_param (t := .javascript) (.tail _ (.head _)) inside
    rwa [Target.identifier_of_notMem (Target.error_differs _).1] at param
  | check isStatement name type ofError =>
    obtain ⟨inside, rfl⟩ := Part.drafts_expr.1 isDraft
    exact Target.writes_asyncCall_error ofError name
  | param isFunction isStatement receiver mem =>
    obtain ⟨inside, rfl⟩ := Part.drafts_expr.1 isDraft
    rw [Expr.draft, Target.unbroken_methodReference _ _ _ Expr.unbroken_of_isThis] at unbroken
    exact Target.writes_referenceParams isFunction unbroken _ mem

theorem Unit.writes_madeUp (ok : unit.render t indent = .ok text) {site : Site}
    (has : unit.HasSite site) {source : Option String} {word : String}
    (madeUp : site.MakesUp t source word) : unit.WritesAt t site word := by
  cases madeUp with
  | changed mem _ => exact Unit.writes_mention ok has mem
  | needed needs =>
    have notLiteral : ∀ p, site = .part p → p.isLiteral = false := by
      rintro p rfl
      cases needs <;> rfl
    obtain ⟨d, isDraft, unbroken, within⟩ := Unit.exists_site_draft ok has notLiteral
    exact ⟨d, isDraft, within, needs.writes isDraft unbroken⟩

/-- Whether a word is neither a reserved name nor the word for one, with or without a sign, save
perhaps for a given name. -/
def IsFresh (t : Target) (source : Option String) (word : String) : Prop :=
  ∀ name ∈ t.reserved, source ≠ some name → ∀ scope,
    t.sigil scope ++ name ≠ word ∧ t.sigil scope ++ t.identifier name ≠ word

/-- The word for a reserved name is no word for another one. -/
theorem Mention.isFresh {m : Mention} (changed : m.isChanged t) :
    IsFresh t (some (m.base t)) (m.word t) := by
  obtain ⟨reserved, scope', _, isWord⟩ := Mention.word_of_isChanged changed
  have noSign := (Target.head_reserved _ reserved).2
  intro name isReserved other scope
  have noSigns := Target.head_reserved name isReserved
  rw [isWord]
  constructor
  · intro same
    have isIdentifier := Target.sigil_append_inj noSigns.1 noSign same
    rw [isIdentifier] at isReserved
    exact Target.identifier_notMem_reserved _ reserved isReserved
  · intro same
    have alike := Target.sigil_append_inj noSigns.2 noSign same
    exact other (congrArg some (Target.identifier_inj_of_mem reserved isReserved alike.symm))

/-- Only Ruby has signs. -/
theorem isFresh_of_noSign (noSign : ∀ scope, t.sigil scope = "") {source : Option String}
    {word : String} (free : word ∉ t.reserved)
    (differs : ∀ name ∈ t.reserved, t.identifier name ≠ word) : IsFresh t source word := by
  intro name reserved _ scope
  rw [noSign, String.empty_append, String.empty_append]
  exact ⟨fun same => free (same ▸ reserved), differs name reserved⟩

/-- What is made up is no word for a reserved name but the one that it is for. -/
theorem Site.MakesUp.isFresh {site : Site} {source : Option String} {word : String}
    (madeUp : site.MakesUp t source word) : IsFresh t source word := by
  have error (name : String) : IsFresh .javascript none (name ++ "_err") :=
    isFresh_of_noSign (fun scope => by cases scope <;> rfl) (Target.error_differs name).1
      (Target.error_differs name).2
  cases madeUp with
  | changed _ changed => exact Mention.isFresh changed
  | needed needs =>
    cases needs with
    | error isStatement handler => exact error handler.name
    | check isStatement name => exact error name
    | param isFunction isStatement receiver mem =>
      obtain ⟨free, differs⟩ := Target.referenceParams_differ isFunction mem
      have noSign (scope : Scope) : t.sigil scope = "" := by
        rcases isFunction with rfl | rfl <;> cases scope <;> rfl
      exact isFresh_of_noSign noSign free differs

/-- A word that is made up is written where it is needed, and is the word for another name of the
source exactly if that name, reserved or not, is the same text. -/
theorem Unit.madeUp_clashes_iff (ok : unit.render t indent = .ok text) {site site' : Site}
    (has : unit.HasSite site) (has' : unit.HasSite site') {source : Option String} {word : String}
    (madeUp : site.MakesUp t source word) {m : Mention} (mem : m ∈ site'.mentions t)
    (other : source ≠ some (m.base t)) :
    unit.WritesAt t site word ∧ unit.WritesAt t site' (m.word t) ∧
    (m.word t = word ↔ m.stem t = word) := by
  refine ⟨Unit.writes_madeUp ok has madeUp, Unit.writes_mention ok has' mem, ?_⟩
  · cases changed : m.isChanged t with
    | false => rw [Mention.word_of_not_isChanged changed]
    | true =>
      -- a reserved name is never taken, neither as it stands nor by the word for it
      obtain ⟨reserved, scope, isStem, isWord⟩ := Mention.word_of_isChanged changed
      obtain ⟨stem, word⟩ := madeUp.isFresh _ reserved other scope
      rw [isStem, isWord]
      exact iff_of_false word stem

/-- A reference to a method of a variable of the name `it`. -/
def itReference : Expr :=
  .methodReference (.identifier "it" .variable) ⟨"accept", [.string], false, .void⟩

theorem hasSite_itReference :
    (Unit.ofStmts [.expr itReference]).HasSite (.part (.expr true itReference)) :=
  Unit.hasSite_ofStmts (.head _) (.head (.head _) .refl)

theorem hasSite_it : (Unit.ofStmts [.expr itReference]).HasSite
    (.part (.operand (.identifier "it" .variable))) :=
  Unit.hasSite_ofStmts (.head _) (.head (.head _) (.head (.head _) .refl))

theorem render_itReference : (Unit.ofStmts [.expr itReference]).render .javascript "  " =
    .ok "(it) => it.accept(it);\n" := by
  decide +kernel

theorem madeUp_clashes_iff_itReference :
    (Unit.ofStmts [.expr itReference]).WritesAt .javascript (.part (.expr true itReference)) "it" ∧
    (Unit.ofStmts [.expr itReference]).WritesAt .javascript
      (.part (.operand (.identifier "it" .variable))) "it" ∧
    ("it" = "it" ↔ "" ++ "it" = "it") := by
  have madeUp : (Site.part (.expr true itReference)).MakesUp .javascript none "it" :=
    .needed (.param (.inl rfl) true _ (.head _))
  have mem : Mention.var "it" .variable ∈
      (Site.part (.operand (.identifier "it" .variable))).mentions .javascript :=
    .head _
  exact Unit.madeUp_clashes_iff render_itReference hasSite_itReference hasSite_it madeUp mem nofun

/-- Whether a word that is made up at a place is the word for another name. -/
def Unit.Clashes (t : Target) (unit : Unit) (word name : String) : Prop :=
  ∃ site site' source m, unit.HasSite site ∧ unit.HasSite site' ∧ site.MakesUp t source word ∧
    m ∈ site'.mentions t ∧ m.base t = name ∧ source ≠ some name ∧ m.word t = word

/-- The declaration of a variable. -/
def declared (name value : String) : Stmt :=
  .varDecl .variable (.primitive .int) name (some (.literal (.int value)))

/-- A callback for a result of the name `r` that gives a variable of the name `r_err`. -/
def errorCallback : Expr :=
  .asyncHandler {
    name := "r"
    paramType := .parameterized ⟨"io.vertx.core.AsyncResult", .asyncResult⟩ [.string]
    resultType := .string
    body := .expr (.identifier "r_err" .variable)
    succeeded := none
    failed := none }

/-- The parameter of a function that stands for a method reference takes the place of a variable
of its name, and so does the parameter for an error; the word for a reserved name is that of
another variable. -/
theorem madeUp_clashes :
    (Unit.ofStmts [.expr itReference]).Clashes .javascript "it" "it" ∧
    (Unit.ofStmts [.expr itReference]).render .javascript "  " = .ok "(it) => it.accept(it);\n" ∧
    (Unit.ofStmts [declared "r_err" "1", .expr errorCallback]).Clashes .javascript "r_err" "r_err" ∧
    (Unit.ofStmts [declared "r_err" "1", .expr errorCallback]).render .javascript "  " =
      .ok "let r_err = 1;\n(r, r_err) => r_err;\n" ∧
    (∀ t ∈ [Target.javascript, .groovy, .ruby],
      (Unit.ofStmts [declared "in" "1", declared "in_" "2"]).Clashes t "in_" "in_") ∧
    (Unit.ofStmts [declared "in" "1", declared "in_" "2"]).render .ruby "  " =
      .ok "in_ = 1\nin_ = 2\n" := by
  refine ⟨?_, render_itReference, ?_, by decide +kernel, fun t isTarget => ?_, by decide +kernel⟩
  · exact ⟨_, _, none, .var "it" .variable, hasSite_itReference, hasSite_it,
      .needed (.param (.inl rfl) true _ (.head _)), .head _, rfl, nofun, rfl⟩
  · have ofCallback : (Unit.ofStmts [declared "r_err" "1", .expr errorCallback]).HasSite
        (.part (.expr true errorCallback)) :=
      Unit.hasSite_ofStmts (.tail _ (.head _)) (.head (.head _) .refl)
    have ofError : (Unit.ofStmts [declared "r_err" "1", .expr errorCallback]).HasSite
        (.part (.operand (.identifier "r_err" .variable))) :=
      Unit.hasSite_ofStmts (.tail _ (.head _)) (.head (.head _) (.head (.head _) .refl))
    exact ⟨_, _, none, .var "r_err" .variable, ofCallback, ofError, .needed (.error true _),
      .head _, rfl, nofun, rfl⟩
  · have first : (Unit.ofStmts [declared "in" "1", declared "in_" "2"]).HasSite
        (.part (.stmt (declared "in" "1"))) :=
      Unit.hasSite_ofStmts (.head _) .refl
    have second : (Unit.ofStmts [declared "in" "1", declared "in_" "2"]).HasSite
        (.part (.stmt (declared "in_" "2"))) :=
      Unit.hasSite_ofStmts (.tail _ (.head _)) .refl
    have isChanged : (Mention.var "in" .variable).isChanged t ∧
        (Mention.var "in" .variable).word t = "in_" := by
      simp only [List.mem_cons, List.not_mem_nil, or_false] at isTarget
      rcases isTarget with rfl | rfl | rfl <;> decide +kernel
    have isFirst : (Site.part (.stmt (declared "in" "1"))).MakesUp t (some "in") "in_" := by
      rw [← isChanged.2]
      exact .changed (.head _) isChanged.1
    have isSecond : (Mention.var "in_" .variable).word t = "in_" := by
      simp only [List.mem_cons, List.not_mem_nil, or_false] at isTarget
      rcases isTarget with rfl | rfl | rfl <;> decide +kernel
    exact ⟨_, _, some "in", .var "in_" .variable, first, second, isFirst, .head _, rfl,
      by decide +kernel, isSecond⟩

end Polyscript.Model
