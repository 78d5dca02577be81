import Polyscript.Proofs.Model.Written
import Polyscript.Proofs.Spelling.Opening
import Polyscript.Proofs.Spelling.Written

/-!
# Braces behind arrows and behind `puts`

JavaScript reads a brace behind the arrow of a function as the beginning of a block, and Ruby reads
one behind `puts` so. The literals of objects and maps begin with a brace in both languages. They
are written as they are wherever they stand, so the text behind an arrow or behind `puts` begins
with a brace whenever such a literal stands at the left edge of the expression there: the
expression itself, the first operand of an operator, what a field or a method is taken of, and so
on at any depth. Parentheses and brackets hide it.

## Main definitions

* `Part.LeftEdge`: the parts with which what is written of a part begins.
* `Part.OpensBrace`: parts at whose left edge a brace is written.
* `Part.Exposes`: the expressions that stand behind an arrow or behind `puts`.
* `Unit.Emits`: what is written for a draft that stands somewhere in a program.

## Main statements

* `Expr.opening_iff`: an expression is written with a brace at the beginning if it opens one.
* `Unit.emits_brace_iff`: when the text behind an arrow or behind `puts` begins with a brace.
-/

namespace Polyscript

open Draft

namespace Model

variable {t : Target} {indent text : String} {unit : Unit}

/-! ### Left edges -/

/-- The value with which the spelling of an access begins, if it begins with one. -/
def Access.leading? (t : Target) : Access → Option Expr
  | .jsonObjectGet value _ | .jsonObjectPut value _ _ | .jsonArrayGet value _
  | .jsonArrayAdd value _ | .jsonArraySize value | .dataObjectGet value _
  | .dataObjectSet value _ _ | .mapGet value _ | .mapPut value _ _ | .listGet value _
  | .listAdd value _ | .listSize value => some value
  | .jsonObjectEncode value | .jsonArrayEncode value => if t = .kotlin then some value else none
  | .mapForEach value _ _ _ => if t = .groovy ∨ t = .ruby then some value else none

/-- The operand with which the spelling of an expression begins, if it begins with one. -/
def Expr.leading? (t : Target) (isStatement : Bool) : Expr → Option Expr
  | .concat parts => if t = .javascript then parts.head? else none
  | .binary _ e _ | .assign e _ | .field e _ | .instanceOf e _ | .typed e _ => some e
  | .unary op e => if t.isBehind isStatement op then some e else none
  | .conditional e _ _ => if t = .kotlin then none else some e
  | .invocation receiver _ => if receiver.isThis then none else some receiver
  | .methodReference receiver _ =>
    if (t = .groovy ∨ t = .ruby) ∧ receiver.isThis = false then some receiver else none
  | .access operation => operation.leading? t
  | _ => none

/-- The part with which the spelling of a part begins. -/
def Part.leading? (t : Target) : Part → Option Part
  | .expr isStatement e => (e.leading? t isStatement).map .operand
  | .stmt _ | .block _ => none

/-- The parts at the left edge of a part: those that begin where it begins, itself included. -/
def Part.LeftEdge (t : Target) : Part → Part → Prop :=
  Relation.ReflTransGen fun part next => part.leading? t = some next

/-- Whether an expression is a literal that is written between braces. -/
def Expr.isBraced : Expr → Bool
  | .jsonObject _ | .dataObject .. | .newMap => true
  | _ => false

/-- The word of the program itself with which the spelling of an expression begins. -/
def Expr.word (t : Target) : Expr → String
  | .identifier name scope => t.variableName name scope
  | .literal value => t.literal value
  | .invocation receiver site => if receiver.isThis then t.methodName site.method.name else ""
  | .construct type _ | .throwable type _ => if t = .ruby then type.simpleName else ""
  | .cls ref => t.className ref
  | .enumConstant type constant => t.enumConstant type constant
  | .asyncResult name _ => t.variableName name .parameter
  | .asyncCall name _ op => t.asyncCall name op
  | _ => ""

/-- Whether a brace is written at the beginning of a part that is not that of an operand: by a
literal, or by a word that begins with one. -/
def Part.IsBrace (t : Target) : Part → Prop
  | .expr _ e => e.isBraced ∨ (e.word t).toList.head? = some '\x7b'
  | .stmt _ | .block _ => False

/-- Whether a brace is written at the left edge of a part. -/
def Part.OpensBrace (t : Target) (p : Part) : Prop := ∃ q, p.LeftEdge t q ∧ q.IsBrace t

/-- One step along the left edge. -/
theorem Part.opensBrace_iff {p : Part} : p.OpensBrace t ↔
    p.IsBrace t ∨ ∃ q, p.leading? t = some q ∧ q.OpensBrace t := by
  constructor
  · rintro ⟨q, edge, isBrace⟩
    obtain rfl | ⟨next, step, further⟩ := Relation.ReflTransGen.cases_head edge
    · exact .inl isBrace
    · exact .inr ⟨next, step, q, further, isBrace⟩
  · rintro (isBrace | ⟨next, step, q, further, isBrace⟩)
    · exact ⟨p, .refl, isBrace⟩
    · exact ⟨q, .head step further, isBrace⟩

/-- What begins with an operand writes no brace of its own there. -/
theorem Expr.not_isBrace {isStatement : Bool} {e part : Expr}
    (leads : e.leading? t isStatement = some part) : ¬(Part.expr isStatement e).IsBrace t := by
  cases e with
  | invocation receiver site =>
    rw [leading?] at leads
    split at leads
    next => cases leads
    next notThis => simp [Part.IsBrace, isBraced, word, notThis]
  | concat | binary | unary | conditional | assign | field | instanceOf | methodReference | typed
  | access => simp [Part.IsBrace, isBraced, word]
  | _ => cases leads

theorem Expr.mem_receiverParts {receiver : Expr} (notThis : receiver.isThis = false) :
    .operand receiver ∈ receiver.receiverParts := by
  rw [receiverParts, notThis]
  exact List.mem_singleton_self _

theorem Access.leading?_mem {access : Access} {part : Expr}
    (leads : access.leading? t = some part) : .operand part ∈ access.parts := by
  cases access with
  | jsonObjectEncode | jsonArrayEncode | mapForEach =>
    rw [leading?] at leads
    split at leads
    next =>
      obtain rfl := Option.some.inj leads
      exact List.mem_cons_self
    next => cases leads
  | _ =>
    obtain rfl := Option.some.inj leads
    exact List.mem_cons_self

theorem Expr.leading?_mem {isStatement : Bool} {e part : Expr}
    (leads : e.leading? t isStatement = some part) : .operand part ∈ e.parts := by
  cases e with
  | binary | assign | field | instanceOf | typed =>
    obtain rfl := Option.some.inj leads
    exact List.mem_cons_self
  | concat parts =>
    rw [leading?] at leads
    split at leads
    next => exact List.mem_map_of_mem (List.mem_of_head? leads)
    next => cases leads
  | unary | conditional =>
    rw [leading?] at leads
    split at leads <;> cases leads
    exact List.mem_cons_self
  | invocation receiver =>
    rw [leading?] at leads
    split at leads
    next => cases leads
    next notThis =>
      obtain rfl := Option.some.inj leads
      exact List.mem_append_left _ (mem_receiverParts (Bool.eq_false_iff.2 notThis))
  | methodReference receiver =>
    rw [leading?] at leads
    split at leads
    next short =>
      obtain rfl := Option.some.inj leads
      exact mem_receiverParts short.2
    next => cases leads
  | access operation => exact operation.leading?_mem leads
  | _ => cases leads

/-- The part at the left edge is rendered for the part. -/
theorem Part.leading?_mem {p q : Part} (leads : p.leading? t = some q) : q ∈ p.parts := by
  cases p with
  | expr isStatement e =>
    obtain ⟨part, first, rfl⟩ := Option.map_eq_some_iff.1 leads
    exact e.leading?_mem first
  | stmt | block => cases leads

/-! ### What is written at the left edge -/

theorem Access.precedes_draft {access : Access} {part : Expr} {inside : Bool}
    (leads : access.leading? t = some part) :
    (part.draft t inside false).Precedes (access.draft t inside) := by
  cases access with
  | jsonObjectEncode | jsonArrayEncode =>
    rw [leading?] at leads
    split at leads
    next isKotlin =>
      obtain rfl := Option.some.inj leads
      subst isKotlin
      exact Target.precedes_memberCall _ _
    next => cases leads
  | mapForEach =>
    rw [leading?] at leads
    split at leads
    next isMethod =>
      obtain rfl := Option.some.inj leads
      exact Target.precedes_mapForEach isMethod _ _ _
    next => cases leads
  | jsonObjectGet =>
    obtain rfl := Option.some.inj leads
    exact Target.precedes_jsonObjectGet _
  | jsonObjectPut =>
    obtain rfl := Option.some.inj leads
    exact Target.precedes_jsonObjectPut _ _
  | jsonArrayGet =>
    obtain rfl := Option.some.inj leads
    exact Target.precedes_jsonArrayGet
  | jsonArrayAdd =>
    obtain rfl := Option.some.inj leads
    exact Target.precedes_jsonArrayAdd _
  | jsonArraySize =>
    obtain rfl := Option.some.inj leads
    exact Target.precedes_jsonArraySize
  | dataObjectGet =>
    obtain rfl := Option.some.inj leads
    exact Target.precedes_property _
  | dataObjectSet =>
    obtain rfl := Option.some.inj leads
    exact (Target.precedes_property _).trans Target.precedes_assignment
  | mapGet | listGet =>
    obtain rfl := Option.some.inj leads
    exact Target.precedes_element
  | mapPut =>
    obtain rfl := Option.some.inj leads
    exact Target.precedes_element.trans Target.precedes_assignment
  | listAdd =>
    obtain rfl := Option.some.inj leads
    exact Target.precedes_listAdd
  | listSize =>
    obtain rfl := Option.some.inj leads
    exact Target.precedes_listSize

/-- The draft of an expression begins with that of the operand at its left edge. -/
theorem Expr.precedes_draft {isStatement inside : Bool} {e part : Expr}
    (leads : e.leading? t isStatement = some part)
    (unbroken : (e.draft t inside isStatement).Unbroken) :
    (part.draft t inside false).Precedes (e.draft t inside isStatement) := by
  cases e with
  | concat parts =>
    rw [leading?] at leads
    split at leads
    next isJs =>
      subst isJs
      obtain ⟨rest, rfl⟩ := List.head?_eq_some_iff.1 leads
      exact Target.precedes_concatenation _ _
    next => cases leads
  | binary op =>
    obtain rfl := Option.some.inj leads
    exact Target.precedes_binary op
  | assign =>
    obtain rfl := Option.some.inj leads
    exact Target.precedes_assignment
  | field _ name =>
    obtain rfl := Option.some.inj leads
    exact Target.precedes_fieldAccess name
  | instanceOf =>
    obtain rfl := Option.some.inj leads
    -- JavaScript has no test for enums: the draft of one breaks off before the operand
    exact Target.precedes_instanceTest unbroken
  | typed =>
    obtain rfl := Option.some.inj leads
    exact .refl _
  | unary op =>
    rw [leading?] at leads
    split at leads
    next behind =>
      obtain rfl := Option.some.inj leads
      exact Target.precedes_unary _ behind
    next => cases leads
  | conditional =>
    rw [leading?] at leads
    split at leads
    next => cases leads
    next notKotlin =>
      obtain rfl := Option.some.inj leads
      exact Target.precedes_conditional notKotlin
  | invocation receiver site =>
    rw [leading?] at leads
    split at leads
    next => cases leads
    next notThis =>
      obtain rfl := Option.some.inj leads
      rw [Expr.draft, Bool.eq_false_iff.2 notThis]
      exact Target.precedes_invocation _ _
  | methodReference receiver method =>
    rw [leading?] at leads
    split at leads
    next short =>
      obtain rfl := Option.some.inj leads
      rw [Expr.draft, short.2]
      exact Target.precedes_methodReference short.1 _ _
    next => cases leads
  | access operation => exact operation.precedes_draft leads
  | _ => cases leads

/-- The literals between braces begin with one. -/
theorem Expr.opening_of_isBraced (braces : t = .javascript ∨ t = .ruby)
    {isStatement inside : Bool} {e : Expr} (braced : e.isBraced) :
    (e.draft t inside isStatement).opening = some '\x7b' := by
  cases e with
  | jsonObject members =>
    rcases braces with rfl | rfl <;> cases members <;>
      simp [Expr.draft, Member.drafts, Target.jsonObject, Target.mapLiteral, Target.memberLines,
        append_assoc]
  | dataObject type members =>
    rcases braces with rfl | rfl <;> cases members <;>
      simp [Expr.draft, Member.drafts, Target.dataObject, Target.mapLiteral, Target.memberLines,
        append_assoc]
  | newMap => rcases braces with rfl | rfl <;> simp [Expr.draft, Target.newMap]
  | _ => cases braced

/-- An expression that begins with a word of the program is written with the word in front. -/
theorem Expr.precedes_word {isStatement inside : Bool} {e : Expr} (hasWord : e.word t ≠ "") :
    (Draft.text (e.word t)).Precedes (e.draft t inside isStatement) := by
  cases e with
  | identifier | literal | cls | enumConstant | asyncResult | asyncCall => exact .refl _
  | invocation receiver site =>
    by_cases isThis : receiver.isThis
    · rw [word, if_pos isThis, Expr.draft, isThis]
      exact Target.precedes_ownCall _ _
    · exact absurd (if_neg isThis) hasWord
  | construct type | throwable type =>
    by_cases isRuby : t = .ruby
    · subst isRuby
      exact Target.precedes_construction type _
    · exact absurd (if_neg isRuby) hasWord
  | _ => exact absurd rfl hasWord

/-- What begins with neither a word nor an operand opens no brace unless it is such a literal. -/
theorem Expr.not_opening (braces : t = .javascript ∨ t = .ruby) {isStatement inside : Bool}
    {e : Expr} (first : e.leading? t isStatement = none) (wordless : e.word t = "")
    (notBraced : ¬e.isBraced) : (e.draft t inside isStatement).opening ≠ some '\x7b' := by
  cases e with
  | identifier | literal | cls | enumConstant | asyncResult | asyncCall =>
    rw [word] at wordless
    simp [Expr.draft, wordless]
  | this => rcases braces with rfl | rfl <;> simp [Expr.draft, Target.this]
  | concat parts =>
    rcases braces with rfl | rfl
    -- JavaScript adds the parts, and Ruby fills them in between quotes
    · cases parts with
      | nil => simp [Expr.draft, Expr.drafts, Target.concatenation, joined]
      | cons => cases first
    · simp [Expr.draft, Target.concatenation, Target.template, append_assoc]
  | parenthesized inner => simp [Expr.draft, Target.parenthesized, append_assoc]
  | lambda function =>
    obtain ⟨paramNames, paramTypes, body⟩ := function
    rcases braces with rfl | rfl <;> simp [Expr.draft, Target.lambda, append_assoc]
  | asyncHandler handler =>
    obtain ⟨name, paramType, resultType, body, succeeded, failed⟩ := handler
    rcases braces with rfl | rfl <;> cases succeeded <;> cases failed <;>
      simp [Expr.draft, AsyncHandler.draft, Stmt.optionDraft, Target.lambda, append_assoc]
  | jsonObject | dataObject | newMap => exact absurd rfl notBraced
  | jsonArray | list =>
    rcases braces with rfl | rfl <;>
      simp [Expr.draft, Target.jsonArray, Target.listLiteral, append_assoc]
  | newList => rcases braces with rfl | rfl <;> simp [Expr.draft, Target.newList]
  | construct type args =>
    rcases braces with rfl | rfl
    · simp [Expr.draft, Target.construction, append_assoc]
    · have nameless : type.simpleName = "" := wordless
      simp [Expr.draft, Target.construction, append_assoc, nameless]
  | throwable type reason =>
    rcases braces with rfl | rfl
    · simp [Expr.draft, Target.throwable, append_assoc]
    · have nameless : type.simpleName = "" := wordless
      simp [Expr.draft, Target.throwable, Target.construction, append_assoc, nameless]
  | console => simp [Expr.draft, Draft.fail, opening]
  | consolePrint stream arg =>
    rcases braces with rfl | rfl <;> cases stream <;>
      simp [Expr.draft, Target.consolePrint, append_assoc]
  | unary op operand =>
    have before : t.isBehind isStatement op = false := by simpa [leading?] using first
    exact Target.opening_unary _ before
  | conditional =>
    have isKotlin : t = .kotlin := by simpa [leading?] using first
    rcases braces with rfl | rfl <;> cases isKotlin
  | invocation receiver site =>
    have isThis : receiver.isThis = true := by simpa [leading?] using first
    rw [word, if_pos isThis] at wordless
    rw [Expr.draft, isThis, ne_eq, (Target.precedes_ownCall _ _).opening_iff, wordless]
    simp
  | methodReference receiver method =>
    rcases braces with rfl | rfl
    · simp [Expr.draft, Target.methodReference, append_assoc]
    · have isThis : receiver.isThis = true := by simpa [leading?] using first
      simp [Expr.draft, Target.methodReference, isThis, Target.qualifier, append_assoc,
        empty_append]
  | access operation =>
    -- the only accesses that do not begin with their container are calls of a library
    cases operation with
    | jsonObjectEncode | jsonArrayEncode =>
      rcases braces with rfl | rfl <;>
        simp [Expr.draft, Access.draft, Target.jsonEncode, append_assoc]
    | mapForEach =>
      rcases braces with rfl | rfl
      · simp [Expr.draft, Access.draft, Target.mapForEach, append_assoc]
      · simp [leading?, Access.leading?] at first
    | _ => cases first
  | binary | assign | field | instanceOf | typed => cases first

/-- Where no operand stands at the left edge, a brace is written by a literal or by a word. -/
theorem Expr.opening_iff_isBrace (braces : t = .javascript ∨ t = .ruby)
    {isStatement inside : Bool} {e : Expr} (first : e.leading? t isStatement = none) :
    (e.draft t inside isStatement).opening = some '\x7b' ↔
      (Part.expr isStatement e).IsBrace t := by
  by_cases braced : e.isBraced
  · exact iff_of_true (opening_of_isBraced braces braced) (.inl braced)
  have byWord : (Part.expr isStatement e).IsBrace t ↔ (e.word t).toList.head? = some '\x7b' :=
    or_iff_right braced
  rw [byWord]
  by_cases wordless : e.word t = ""
  · rw [wordless]
    exact iff_of_false (not_opening braces first wordless braced) (by decide)
  · rw [(precedes_word wordless).opening_iff, opening_text]

/-- The text of an expression begins with a brace exactly if one is written at its left edge. -/
theorem Expr.opening_iff (braces : t = .javascript ∨ t = .ruby) {isStatement inside : Bool}
    {e : Expr} (unbroken : (e.draft t inside isStatement).Unbroken) :
    (e.draft t inside isStatement).opening = some '\x7b' ↔
      (Part.expr isStatement e).OpensBrace t := by
  -- the induction goes along the left edge
  induction whole : Part.expr isStatement e using Part.induction generalizing isStatement e with
  | step p ih =>
    subst whole
    rw [Part.opensBrace_iff]
    cases first : e.leading? t isStatement with
    | none =>
      have noPart : (Part.expr isStatement e).leading? t = none := by
        rw [Part.leading?, first]
        rfl
      simp [Expr.opening_iff_isBrace braces first, noPart]
    | some part =>
      have leads : (Part.expr isStatement e).leading? t = some (.operand part) := by
        rw [Part.leading?, first]
        rfl
      -- behind the operand no brace is opened, so the question is the same for the operand
      have before := e.precedes_draft first unbroken
      rw [before.opening_iff, ih _ (Part.leading?_mem leads) (before.unbroken unbroken) rfl]
      simp [Expr.not_isBrace first, leads]

/-! ### Behind arrows and behind `puts` -/

/-- Whether an expression of a part stands behind a sign behind which the language reads a brace as
the beginning of a block, and whether it stands as a statement of its own. -/
inductive Part.Exposes : Part → Target → String → Bool → Expr → Prop where
  | lambda (isStatement : Bool) (paramNames : List String) (paramTypes : List TypeInfo)
    (body : Expr) :
    Exposes (.expr isStatement (.lambda ⟨paramNames, paramTypes, .expr body⟩))
      .javascript "=> " false body
  /-- A callback without branches that are kept apart. -/
  | callback (isStatement : Bool) (name : String) (paramType resultType : TypeInfo)
    (body : Expr) :
    Exposes
      (.expr isStatement (.asyncHandler ⟨name, paramType, resultType, .expr body, none, none⟩))
      .javascript "=> " false body
  /-- What is done with the entries of a map. -/
  | entries (isStatement : Bool) (map : Expr) (key value : String) (body : Expr) :
    Exposes (.expr isStatement (.access (.mapForEach map key value (.expr body))))
      .javascript "=> " true body
  | print (isStatement : Bool) (stream : Stream) (arg : Expr) :
    Exposes (.expr isStatement (.consolePrint stream arg)) .ruby "puts " false arg

/-- Whether a text is what is written for a draft at a place of a program, behind all that is
written before it. -/
def Unit.Emits (t : Target) (indent : String) (unit : Unit) (d : Draft)
    (front emitted : String) : Prop :=
  d.Unbroken ∧ ∃ before after : List Mark,
    (unit.draft t).marks = before ++ d.marks ++ after ∧
    (before.foldl Page.follow (.blank indent)).text = front ∧
    ((before ++ d.marks).foldl Page.follow (.blank indent)).text = front ++ emitted

/-- What is written for a draft within a line begins as the draft does. -/
theorem Unit.Emits.head? {d : Draft} {front emitted : String} {c : Char}
    (emits : unit.Emits t indent d front emitted) (last : front.toList.getLast? = some c)
    (inLine : c ≠ '\n') : emitted.toList.head? = d.opening := by
  obtain ⟨_, before, after, _, rfl, written⟩ := emits
  -- the line has been begun, so no indentation comes between
  obtain ⟨added, same, begins⟩ := d.extends_on (Page.begun_of_getLast indent last inLine)
  rw [List.foldl_append] at written
  have equal : emitted = added := by
    have texts := written.symm.trans same
    simpa [← String.toList_inj] using texts
  rw [equal, begins]

/-- What is written for a draft stands in the text of the program. -/
theorem Unit.Emits.exists_text (ok : unit.render t indent = .ok text) {d : Draft}
    {front emitted : String} (emits : unit.Emits t indent d front emitted) :
    ∃ back, text = front ++ emitted ++ back := by
  obtain ⟨_, before, after, split, _, written⟩ := emits
  rw [render, fault_of_render ok] at ok
  obtain rfl := Except.ok.inj ok
  obtain ⟨_, back, same, _⟩ :=
    Page.exists_extends after ((before ++ d.marks).foldl Page.follow (.blank indent))
  refine ⟨back, ?_⟩
  rw [Draft.on, split, List.foldl_append, same, written]

/-- The mark for a sign stands right before what is written for the expression behind it. -/
theorem Part.Exposes.infix {q : Part} {sign : String} {isStatement : Bool} {e : Expr}
    (exposes : q.Exposes t sign isStatement e) {d : Draft} (isDraft : q.Drafts t d)
    (unbroken : d.Unbroken) : ∃ inside s, '\n' ∉ (s ++ sign).toList ∧
      (e.draft t inside isStatement).Unbroken ∧
      .text (s ++ sign) :: (e.draft t inside isStatement).marks <:+: d.marks := by
  cases exposes with
  | lambda _ paramNames =>
    obtain ⟨inside, rfl⟩ := drafts_expr.1 isDraft
    refine ⟨inside, ") ", by decide, (Target.unbroken_lambda _).1 unbroken, ?_⟩
    exact infix_text (d := "(" ++ Target.identifiers .javascript paramNames) (by simp) _ _
  | callback _ name =>
    obtain ⟨inside, rfl⟩ := drafts_expr.1 isDraft
    refine ⟨inside, ") ", by decide, (Target.unbroken_lambda _).1 unbroken, ?_⟩
    exact infix_text (d := "(" ++ Target.identifiers .javascript [name, name ++ "_err"]) (by simp)
      _ _
  | entries _ map key value =>
    obtain ⟨inside, rfl⟩ := drafts_expr.1 isDraft
    obtain ⟨ofMap, ofBody⟩ := (Target.unbroken_mapForEach _ _).1 unbroken
    refine ⟨inside, "]) ", by decide, ofBody, ?_⟩
    let before : Draft := "Object.entries(" ++ map.draft .javascript inside false ++
      ").forEach(([" ++ Target.identifiers .javascript [key, value]
    have ofBefore : before.Unbroken := by simp [before, ofMap]
    exact (infix_text ofBefore _ _).trans (infix_append_right _ ")")
  | print _ stream =>
    obtain ⟨inside, rfl⟩ := drafts_expr.1 isDraft
    have ofArg := (Target.unbroken_consolePrint _).1 unbroken
    cases stream with
    | out => exact ⟨inside, "", by decide, ofArg, List.infix_rfl⟩
    | err => exact ⟨inside, "STDERR.", by decide, ofArg, List.infix_rfl⟩

theorem Part.Exposes.notLiteral {q : Part} {sign : String} {isStatement : Bool} {e : Expr}
    (exposes : q.Exposes t sign isStatement e) : q.isLiteral = false := by
  cases exposes <;> rfl

/-- The signs are those of JavaScript and Ruby, and what stands behind one stands on its line. -/
theorem Part.Exposes.sign {q : Part} {sign : String} {isStatement : Bool} {e : Expr}
    (exposes : q.Exposes t sign isStatement e) :
    (t = .javascript ∨ t = .ruby) ∧ sign.toList.getLast? = some ' ' := by
  cases exposes with
  | lambda | callback | entries => exact ⟨.inl rfl, by decide⟩
  | print => exact ⟨.inr rfl, by decide⟩

/-- What is rendered with an expression behind a sign is written with it behind the sign. -/
theorem Unit.exists_emits (ok : unit.render t indent = .ok text) {q : Part} {sign : String}
    {isStatement : Bool} {e : Expr} (renders : unit.Renders q)
    (exposes : q.Exposes t sign isStatement e) : ∃ inside start emitted,
      unit.Emits t indent (e.draft t inside isStatement) (start ++ sign) emitted := by
  obtain ⟨d, isDraft, unbroken, within⟩ := exists_draft ok renders exposes.notLiteral
  obtain ⟨inside, s, noNewline, ofExpr, behind⟩ := exposes.infix isDraft unbroken
  obtain ⟨before, after, split⟩ := behind.trans within
  -- the sign is the end of the front, whatever indentation the mark for it begins with
  obtain ⟨start, front⟩ := (before.foldl Page.follow (.blank indent)).exists_text_write noNewline
  let upTo : List Mark := before ++ [.text (s ++ sign)]
  have reached : (upTo.foldl Page.follow (.blank indent)).text = start ++ s ++ sign := by
    rw [List.foldl_append, String.append_assoc]
    exact front
  obtain ⟨_, emitted, written, _⟩ := Page.exists_extends (e.draft t inside isStatement).marks
    (upTo.foldl Page.follow (.blank indent))
  refine ⟨inside, start ++ s, emitted, ofExpr, upTo, after, ?_, reached, ?_⟩
  · simpa [upTo] using split.symm
  · rw [List.foldl_append, written, reached]

/-- What is written behind a sign begins with a brace if one is written at the left edge. -/
theorem Unit.Emits.head?_iff {q : Part} {sign : String} {isStatement : Bool} {e : Expr}
    (exposes : q.Exposes t sign isStatement e) {inside : Bool} {start emitted : String}
    (emits : unit.Emits t indent (e.draft t inside isStatement) (start ++ sign) emitted) :
    emitted.toList.head? = some '\x7b' ↔ (Part.expr isStatement e).OpensBrace t := by
  obtain ⟨braces, signEnd⟩ := exposes.sign
  have last : (start ++ sign).toList.getLast? = some ' ' := by
    rw [String.toList_append, List.getLast?_append, signEnd]
    rfl
  rw [emits.head? last (by decide), Expr.opening_iff braces emits.1]

/-- The text behind an arrow of JavaScript or behind `puts` of Ruby begins with a brace exactly if
at the left edge of the expression there stands the literal of an object or of a map, or a word
of the program that begins with a brace itself. Every such expression is written so at some place,
and the same holds of it at every place. -/
theorem Unit.emits_brace_iff (ok : unit.render t indent = .ok text) {q : Part} {sign : String}
    {isStatement : Bool} {e : Expr} (renders : unit.Renders q)
    (exposes : q.Exposes t sign isStatement e) :
    (∃ inside start emitted,
      unit.Emits t indent (e.draft t inside isStatement) (start ++ sign) emitted) ∧
    ∀ inside start emitted,
      unit.Emits t indent (e.draft t inside isStatement) (start ++ sign) emitted →
      (∃ back, text = start ++ sign ++ emitted ++ back) ∧
      (emitted.toList.head? = some '\x7b' ↔ (Part.expr isStatement e).OpensBrace t) :=
  ⟨exists_emits ok renders exposes, fun _ _ _ emits =>
    ⟨emits.exists_text ok, emits.head?_iff exposes⟩⟩

/-- The literal of an object with a port. -/
def portObject : Expr := .jsonObject [.single "port" (.literal (.int "8080"))]

/-- A function that gives an object. -/
def makeObject : Expr := .lambda ⟨[], [], .expr portObject⟩

/-- The member of the object. -/
def portMember : Expr := .access (.jsonObjectGet portObject (.string "port"))

/-- A print of the member. -/
def printPort : Expr := .consolePrint .out portMember

/-- A program that has the function and the print. -/
def portProgram : Unit where
  name := "demo.App"
  fields := []
  methods := []
  entry := .ofStmts [
    .varDecl .variable (.cls ⟨"demo.Supplier", .api⟩) "make" (some makeObject),
    .expr printPort]

/-- What the program is written as in the two languages. -/
def portText : Target → String
  | .ruby =>
    "make = lambda \x7b \x7b\n  \"port\" => 8080\n\x7d \x7d\n" ++
      "puts \x7b\n  \"port\" => 8080\n\x7d[\"port\"]\n"
  | _ =>
    "let make = () => \x7b\n  \"port\" : 8080\n\x7d;\n" ++
      "console.log(\x7b\n  \"port\" : 8080\n\x7d.port);\n"

theorem portProgram_renders_makeObject : portProgram.Renders (.operand makeObject) :=
  ⟨.block portProgram.entry, List.mem_singleton_self _,
    .head List.mem_cons_self (.head List.mem_cons_self .refl)⟩

theorem portProgram_renders_printPort : portProgram.Renders (.expr true printPort) :=
  ⟨.block portProgram.entry, List.mem_singleton_self _,
    .head (List.mem_cons_of_mem _ List.mem_cons_self) (.head List.mem_cons_self .refl)⟩

theorem portObject_opensBrace : (Part.operand portObject).OpensBrace .javascript :=
  ⟨_, .refl, .inl rfl⟩

/-- The object is at the left edge of its member. -/
theorem portMember_opensBrace : (Part.operand portMember).OpensBrace .ruby :=
  ⟨.operand portObject, .single rfl, .inl rfl⟩

/-- Ruby writes a brace behind `puts`. -/
theorem Unit.emits_brace_iff_portProgram :
    portProgram.render .ruby "  " = .ok (portText .ruby) ∧
    ∃ inside start emitted,
      portProgram.Emits .ruby "  " (portMember.draft .ruby inside false) (start ++ "puts ")
        emitted ∧
      emitted.toList.head? = some '\x7b' := by
  have ok : portProgram.render .ruby "  " = .ok (portText .ruby) := by decide +kernel
  have exposes := Part.Exposes.print true .out portMember
  obtain ⟨⟨inside, start, emitted, emits⟩, all⟩ :=
    emits_brace_iff ok portProgram_renders_printPort exposes
  exact ⟨ok, inside, start, emitted, emits,
    (all inside start emitted emits).2.2 portMember_opensBrace⟩

/-- In both languages the program has a brace where a block begins. -/
theorem Unit.braces_emitted :
    (portProgram.render .javascript "  " = .ok (portText .javascript) ∧
      portProgram.Renders (.operand makeObject) ∧
      (Part.operand makeObject).Exposes .javascript "=> " false portObject ∧
      ∃ inside start emitted,
        portProgram.Emits .javascript "  " (portObject.draft .javascript inside false)
          (start ++ "=> ") emitted ∧
        emitted.toList.head? = some '\x7b') ∧
    (portProgram.render .ruby "  " = .ok (portText .ruby) ∧
      portProgram.Renders (.expr true printPort) ∧
      (Part.expr true printPort).Exposes .ruby "puts " false portMember ∧
      ∃ inside start emitted,
        portProgram.Emits .ruby "  " (portMember.draft .ruby inside false)
          (start ++ "puts ") emitted ∧
        emitted.toList.head? = some '\x7b') := by
  have ofArrow := Part.Exposes.lambda false [] [] portObject
  have ofPrint := Part.Exposes.print true .out portMember
  constructor
  · have ok : portProgram.render .javascript "  " = .ok (portText .javascript) := by
      decide +kernel
    obtain ⟨inside, start, emitted, emits⟩ :=
      exists_emits ok portProgram_renders_makeObject ofArrow
    exact ⟨ok, portProgram_renders_makeObject, ofArrow, inside, start, emitted, emits,
      (emits.head?_iff ofArrow).2 portObject_opensBrace⟩
  · have ok : portProgram.render .ruby "  " = .ok (portText .ruby) := by decide +kernel
    obtain ⟨inside, start, emitted, emits⟩ :=
      exists_emits ok portProgram_renders_printPort ofPrint
    exact ⟨ok, portProgram_renders_printPort, ofPrint, inside, start, emitted, emits,
      (emits.head?_iff ofPrint).2 portMember_opensBrace⟩

end Model

end Polyscript
