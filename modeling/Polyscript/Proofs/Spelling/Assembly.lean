import Polyscript.Proofs.Layout.Assembly
import Polyscript.Spelling.Container
import Polyscript.Spelling.Statement

/-!
# Spellings as assemblies

Every spelling puts its drafts together from the drafts of its parts, in the order of the parts
and each of them once. There are two exceptions to the order and to the number: Ruby and Kotlin
write the update of a loop behind its body, and a literal can be written in another way than by
its draft, so that nothing in it may count as a piece.

Where a spelling asks for the lines of a body, it begins a line for them.
-/

namespace Polyscript

open Draft (Assembles AssemblesWithin AssemblesLines Spread Optional)

variable {ι : Type} {fills : Filling ι}

/-- Bodies of lambdas whose drafts are assembled alike. -/
inductive BodyDraft.Assembles (fills : Filling ι) : List ι → BodyDraft → BodyDraft → Prop where
  | expr {is : List ι} {d d' : Draft} (body : AssemblesWithin fills is d d') :
    Assembles fills is (.expr d) (.expr d')
  | lines {is : List ι} {d d' : Draft} (body : AssemblesLines fills is d d') :
    Assembles fills is (.lines d) (.lines d')

theorem BodyDraft.Assembles.asLines {is : List ι} {body body' : BodyDraft}
    (h : BodyDraft.Assembles fills is body body') :
    AssemblesLines fills is body.asLines body'.asLines := by
  cases h with
  | expr body => exact body.lines rfl
  | lines body => exact body

/-- Things drafted alike under the same names. -/
inductive AssemblesNamed {α : Type} (fills : Filling ι) :
    List ι → α × Draft → α × Draft → Prop where
  | mk {is : List ι} {d d' : Draft} (name : α) (h : AssemblesWithin fills is d d') :
    AssemblesNamed fills is (name, d) (name, d')

/-- Branches whose conditions and bodies are drafted alike. -/
inductive AssemblesBranch (fills : Filling ι) :
    List ι → Draft × Draft → Draft × Draft → Prop where
  | mk {is js : List ι} {d d' e e' : Draft} (cond : AssemblesWithin fills is d d')
    (body : AssemblesLines fills js e e') : AssemblesBranch fills (is ++ js) (d, e) (d', e')

namespace Target

variable {t : Target} {is js ks ls : List ι} {d d' e e' f f' : Draft} {ds ds' : List Draft}
  {body body' : BodyDraft}

theorem assembles_braces (lines : AssemblesLines fills is d d') :
    AssemblesWithin fills is (braces d) (braces d') :=
  (lines.opened rfl).append_text _

/-! ### Expressions -/

/-- The parts of a concatenation that are texts may be written without their drafts. -/
theorem assembles_concatenation {parts parts' : List (Option String × Draft)}
    (h : Spread (fun is p p' => AssemblesNamed fills is p p' ∧ (p.1.isSome → is = []))
      is parts parts') :
    AssemblesWithin fills is (t.concatenation parts) (t.concatenation parts') := by
  have template (opening : String) :
      AssemblesWithin fills is (t.template opening parts) (t.template opening parts') := by
    unfold Target.template
    refine .append_text (.text_append _ (.concat (h.map ?_))) _
    rintro _ _ _ ⟨⟨text, same⟩, literal⟩
    cases text with
    | some text =>
      rw [literal rfl]
      exact .text _
    | none => exact .append_text (.text_append _ same) _
  cases t with
  | javascript =>
    refine AssemblesWithin.joined " + " (h.map ?_)
    rintro _ _ _ ⟨⟨_, same⟩, _⟩
    exact same
  | _ => exact template _

theorem assembles_parenthesized (inner : AssemblesWithin fills is d d') :
    AssemblesWithin fills is (parenthesized d) (parenthesized d') :=
  (inner.text_append "(").append_text ")"

theorem assembles_binary (op : Model.BinaryOp) (lhs : AssemblesWithin fills is d d')
    (rhs : AssemblesWithin fills js e e') :
    AssemblesWithin fills (is ++ js) (t.binary op d e) (t.binary op d' e') :=
  (((lhs.append_text " ").append_text _).append_text " ").append rhs

/-- A step by one that Ruby refuses breaks off without its operand. -/
theorem assembles_unary (isStatement isCheck : Bool) (op : Model.UnaryOp)
    (h : AssemblesWithin fills is d d') :
    AssemblesWithin fills is (t.unary isStatement isCheck op d)
      (t.unary isStatement isCheck op d') := by
  cases t with
  | ruby =>
    simp only [unary]
    split
    · split
      · split <;> exact h.append_text _
      · exact .fail _
    · exact h.text_append _
  | javascript =>
    simp only [unary]
    split
    · exact h.append_text _
    · split
      · exact (assembles_parenthesized h).text_append _
      · exact h.text_append _
  | _ =>
    simp only [unary]
    split
    · exact h.append_text _
    · exact h.text_append _

theorem assembles_conditional (cond : AssemblesWithin fills is d d')
    (yes : AssemblesWithin fills js e e') (no : AssemblesWithin fills ks f f') :
    AssemblesWithin fills (is ++ js ++ ks) (t.conditional d e f) (t.conditional d' e' f') := by
  have rest {g g' : Draft} (s : String) (h : AssemblesWithin fills is g g') :
      AssemblesWithin fills (is ++ js ++ ks) (g ++ e ++ .text s ++ f) (g' ++ e' ++ .text s ++ f') :=
    ((h.append yes).append_text s).append no
  unfold conditional
  split
  · exact rest " else " ((cond.text_append "if (").append_text ") ")
  · exact rest " : " (cond.append_text " ? ")

theorem assembles_assignment (target : AssemblesWithin fills is d d')
    (value : AssemblesWithin fills js e e') :
    AssemblesWithin fills (is ++ js) (assignment d e) (assignment d' e') :=
  (target.append_text " = ").append value

theorem assembles_fieldAccess (name : String) (receiver : AssemblesWithin fills is d d') :
    AssemblesWithin fills is (t.fieldAccess d name) (t.fieldAccess d' name) :=
  (receiver.append_text ".").append_text _

theorem assembles_arguments (args : Spread (AssemblesWithin fills) is ds ds') :
    AssemblesWithin fills is (arguments ds) (arguments ds') :=
  .joined ", " args

/-- The receiver is not written if it is `this`. -/
theorem assembles_qualifier {isThis : Bool} (receiver : AssemblesWithin fills is d d')
    (noPiece : isThis → is = []) :
    AssemblesWithin fills is (qualifier isThis d) (qualifier isThis d') := by
  unfold qualifier
  split
  next this =>
    rw [noPiece this]
    exact .empty
  next => exact receiver.append_text "."

theorem assembles_invocation {isThis : Bool} (method : String)
    (receiver : AssemblesWithin fills is d d') (noPiece : isThis → is = [])
    (args : Spread (AssemblesWithin fills) js ds ds') :
    AssemblesWithin fills (is ++ js) (t.invocation isThis d method ds)
      (t.invocation isThis d' method ds') := by
  have head := (assembles_qualifier receiver noPiece).append_text (t.methodName method)
  exact ((head.append_text "(").append (assembles_arguments args)).append_text ")"

theorem assembles_construction (c : ClassType) (args : Spread (AssemblesWithin fills) is ds ds') :
    AssemblesWithin fills is (t.construction c ds) (t.construction c ds') := by
  have called {s : Draft} (head : AssemblesWithin fills [] s s) :
      AssemblesWithin fills is (s ++ arguments ds ++ .text ")") (s ++ arguments ds' ++ .text ")") :=
    (head.append (assembles_arguments args)).append_text ")"
  unfold construction
  split
  · exact called ((Assembles.text _).append_text _)
  · exact called ((Assembles.text _).append_text _)
  · exact called (((Assembles.text _).append_text _).append_text _)

theorem assembles_throwable (c : ClassType) {reason reason' : Option Draft}
    (h : Optional (AssemblesWithin fills) is reason reason') :
    AssemblesWithin fills is (t.throwable c reason) (t.throwable c reason') := by
  unfold throwable
  split
  · have given : AssemblesWithin fills is (reason.getD .empty) (reason'.getD .empty) := by
      cases h with
      | none => exact .empty
      | some h => exact h
    exact (given.text_append _).append_text _
  · exact assembles_construction c h.toList

/-- A test that JavaScript refuses breaks off without what is tested. -/
theorem assembles_instanceTest (c : ClassType) (h : AssemblesWithin fills is d d') :
    AssemblesWithin fills is (t.instanceTest d c) (t.instanceTest d' c) := by
  unfold instanceTest
  split
  · split
    · exact .fail _
    · exact (h.append_text _).append_text _
  · exact (h.append_text _).append_text _
  · exact ((h.append_text _).append_text _).append_text _
  · exact (h.append_text _).append_text _

theorem assembles_arrowBody (h : BodyDraft.Assembles fills is body body') :
    AssemblesWithin fills is (arrowBody body) (arrowBody body') := by
  cases h with
  | expr body => exact body
  | lines body => exact assembles_braces body

theorem assembles_closureBody (h : BodyDraft.Assembles fills is body body') :
    AssemblesWithin fills is (closureBody body) (closureBody body') := by
  cases h with
  | expr body => exact (body.text_append " ").append_text " \x7d"
  | lines body => exact (body.opened rfl).append_text "\x7d"

/-- Names that may be left out are no pieces. -/
theorem assembles_ite {c : Prop} [Decidable c] {a b : Place} {d e : Draft}
    (yes : Assembles fills a b [] d d) (no : Assembles fills a b [] e e) :
    Assembles fills a b [] (if c then d else e) (if c then d else e) := by
  split
  · exact yes
  · exact no

theorem assembles_groovyClosure (params : List String)
    (h : BodyDraft.Assembles fills is body body') :
    AssemblesWithin fills is (groovyClosure params body) (groovyClosure params body') := by
  have names : AssemblesWithin fills [] (if params.isEmpty then Draft.empty
      else " " ++ identifiers .groovy params ++ " ->") (if params.isEmpty then Draft.empty
      else " " ++ identifiers .groovy params ++ " ->") :=
    assembles_ite .empty (((Assembles.text _).append_text _).append_text _)
  exact (names.text_append "\x7b").append (assembles_closureBody h)

theorem assembles_lambda (params : List String) (h : BodyDraft.Assembles fills is body body') :
    AssemblesWithin fills is (t.lambda params body) (t.lambda params body') := by
  cases t with
  | javascript =>
    have head : AssemblesWithin fills [] ("(" ++ identifiers .javascript params ++ ") => ")
        ("(" ++ identifiers .javascript params ++ ") => ") :=
      ((Assembles.text _).append_text _).append_text _
    exact head.append (assembles_arrowBody h)
  | groovy => exact assembles_groovyClosure params h
  | ruby =>
    have names : AssemblesWithin fills [] (if params.isEmpty then Draft.empty
        else " |" ++ identifiers .ruby params ++ "|") (if params.isEmpty then Draft.empty
        else " |" ++ identifiers .ruby params ++ "|") :=
      assembles_ite .empty (((Assembles.text _).append_text _).append_text _)
    exact (names.text_append "lambda \x7b").append (assembles_closureBody h)
  | kotlin =>
    -- the parameters end the first line, so the lines of the body begin one
    have names : Assembles fills .anywhere .lineStart [] (if params.isEmpty then Draft.text "\n"
        else " " ++ identifiers .kotlin params ++ " ->\n") (if params.isEmpty then Draft.text "\n"
        else " " ++ identifiers .kotlin params ++ " ->\n") :=
      assembles_ite (.line rfl) (((Assembles.text _).append_text _).append_line rfl)
    exact ((names.text_append "\x7b").append h.asLines.indented).append_text "\x7d"

/-- Groovy writes the receiver of a reference even if it is `this`. -/
theorem assembles_methodReference {isThis : Bool} (method : String) (arity : Nat)
    (receiver : AssemblesWithin fills is d d') (noPiece : isThis → is = []) :
    AssemblesWithin fills is (t.methodReference isThis d method arity)
      (t.methodReference isThis d' method arity) := by
  have qualified := assembles_qualifier receiver noPiece
  cases t with
  | javascript =>
    have head (params : String) : AssemblesWithin fills [] ("(" ++ params ++ ") => ")
        ("(" ++ params ++ ") => ") :=
      ((Assembles.text _).append_text _).append_text _
    exact ((((head _).append qualified).append_text _).append_text _ |>.append_text _).append_text _
  | groovy => exact (receiver.append_text _).append_text _
  | ruby => exact ((qualified.append_text _).append_text _).append_text _
  | kotlin =>
    have head (params : String) :
        AssemblesWithin fills [] ("\x7b " ++ params) ("\x7b " ++ params) :=
      (Assembles.text _).append_text _
    exact ((((head _).append qualified).append_text _).append_text _ |>.append_text _).append_text _

theorem assembles_consolePrint (stream : Model.Stream) (arg : AssemblesWithin fills is d d') :
    AssemblesWithin fills is (t.consolePrint stream d) (t.consolePrint stream d') := by
  unfold consolePrint
  split
  case h_3 | h_4 => exact arg.text_append _
  all_goals exact (arg.text_append _).append_text _

/-! ### Containers -/

section Containers

variable {ms ms' : List (String × Draft)}

theorem assembles_memberLines (opening closing : String)
    (members : Spread (AssemblesWithin fills) is ds ds') :
    AssemblesWithin fills is (memberLines opening closing ds)
      (memberLines opening closing ds') := by
  have head : AssemblesWithin fills [] (opening ++ "\n") (opening ++ "\n") :=
    (Assembles.text _).append_text _
  have deeper : AssemblesWithin fills is (.mark .indent ++ .joined ",\n" ds)
      (.mark .indent ++ .joined ",\n" ds') :=
    (Assembles.step (m := .indent) trivial).append (AssemblesWithin.joined ",\n" members)
  have back : AssemblesWithin fills [] (.mark .unindent) (.mark .unindent) := .step trivial
  have together := ((((head.append deeper).append back).append_text "\n").append_text closing)
  rwa [List.nil_append, List.append_nil] at together

theorem assembles_entries (separator : String)
    (members : Spread (AssemblesNamed fills) is ms ms') :
    Spread (AssemblesWithin fills) is (t.entries separator ms) (t.entries separator ms') := by
  refine members.map ?_
  rintro _ _ _ ⟨name, same⟩
  have head : AssemblesWithin fills [] (t.quote name ++ separator) (t.quote name ++ separator) :=
    (Assembles.text _).append_text _
  exact head.append same

theorem assembles_mapLiteral (members : Spread (AssemblesNamed fills) is ms ms') :
    AssemblesWithin fills is (t.mapLiteral ms) (t.mapLiteral ms') := by
  have lines (opening closing separator : String) :
      AssemblesWithin fills is (memberLines opening closing (t.entries separator ms))
        (memberLines opening closing (t.entries separator ms')) :=
    assembles_memberLines opening closing (assembles_entries separator members)
  unfold mapLiteral
  cases members with
  | nil => cases t <;> exact .text _
  | cons => cases t <;> exact lines _ _ _

theorem assembles_jsonBlock (marked : fills.literals) (insideJson : Bool)
    (literal : AssemblesWithin fills is d d') :
    AssemblesWithin fills is (jsonBlock insideJson d) (jsonBlock insideJson d') := by
  unfold jsonBlock
  split
  · exact .literal marked literal
  · have deeper : AssemblesWithin fills is (.mark .indent ++ d) (.mark .indent ++ d') :=
      (Assembles.step (m := .indent) trivial).append literal
    exact (deeper.closedBy rfl).text_append _

theorem assembles_pairs (members : Spread (AssemblesNamed fills) is ms ms') :
    AssemblesWithin fills is (pairs ms) (pairs ms') := by
  have head (lineEnd : String) : AssemblesWithin fills [] ("obj(" ++ lineEnd) ("obj(" ++ lineEnd) :=
    (Assembles.text _).append_text _
  have all (separator : String) :=
    (AssemblesWithin.joined separator (assembles_entries (t := .kotlin) " to " members)).indented
  unfold pairs
  rw [members.length_eq]
  exact (((head _).append (all _)).append_text _).append_text _

theorem assembles_jsonObject (marked : fills.literals) (insideJson : Bool)
    (members : Spread (AssemblesNamed fills) is ms ms') :
    AssemblesWithin fills is (t.jsonObject insideJson ms) (t.jsonObject insideJson ms') := by
  unfold jsonObject
  split
  · exact assembles_jsonBlock marked insideJson (assembles_pairs members)
  · exact assembles_mapLiteral members

theorem assembles_listLiteral (values : Spread (AssemblesWithin fills) is ds ds') :
    AssemblesWithin fills is (t.listLiteral ds) (t.listLiteral ds') := by
  unfold listLiteral
  split <;> exact ((assembles_arguments values).text_append _).append_text _

theorem assembles_jsonArray (marked : fills.literals) (insideJson : Bool)
    (values : Spread (AssemblesWithin fills) is ds ds') :
    AssemblesWithin fills is (t.jsonArray insideJson ds) (t.jsonArray insideJson ds') := by
  unfold jsonArray
  split
  · exact assembles_jsonBlock marked insideJson
      (((assembles_arguments values).text_append _).closedBy rfl)
  · exact assembles_listLiteral values

theorem assembles_dataObject (c : ClassType) (members : Spread (AssemblesNamed fills) is ms ms') :
    AssemblesWithin fills is (t.dataObject c ms) (t.dataObject c ms') := by
  have named : Spread (AssemblesWithin fills) is
      (ms.map fun member => t.identifier member.1 ++ " = " ++ member.2)
      (ms'.map fun member => t.identifier member.1 ++ " = " ++ member.2) := by
    refine members.map ?_
    rintro _ _ _ ⟨name, same⟩
    have head :
        AssemblesWithin fills [] (t.identifier name ++ " = ") (t.identifier name ++ " = ") :=
      (Assembles.text _).append_text _
    exact head.append same
  have head (s s' : String) : AssemblesWithin fills [] (s ++ s') (s ++ s') :=
    (Assembles.text s).append_text s'
  unfold dataObject
  split
  · cases members with
    | nil => exact head _ _
    | cons first others =>
      exact ((head _ _).append (AssemblesWithin.joined ",\n" named).indented).append_text _
  · exact assembles_mapLiteral members

theorem assembles_element (container : AssemblesWithin fills is d d')
    (key : AssemblesWithin fills js e e') :
    AssemblesWithin fills (is ++ js) (element d e) (element d' e') :=
  ((container.append_text "[").append key).append_text "]"

theorem assembles_memberCall (method : String) (container : AssemblesWithin fills is d d')
    (args : Spread (AssemblesWithin fills) js ds ds') :
    AssemblesWithin fills (is ++ js) (memberCall d method ds) (memberCall d' method ds') :=
  ((((container.append_text ".").append_text method).append_text "(").append
    (assembles_arguments args)).append_text ")"

theorem spread_singleton (h : AssemblesWithin fills is d d') :
    Spread (AssemblesWithin fills) is [d] [d'] := by
  have single := Spread.cons h .nil
  rwa [List.append_nil] at single

/-- A key that is a literal may be written as a name, without its draft. -/
theorem assembles_jsonMember {text : Option String} (object : AssemblesWithin fills is d d')
    (key : AssemblesWithin fills js e e') (literal : text.isSome → js = []) :
    AssemblesWithin fills (is ++ js) (t.jsonMember d e text) (t.jsonMember d' e' text) := by
  unfold jsonMember
  split
  · split
    · rw [literal rfl, List.append_nil]
      exact (object.append_text _).append_text _
    · exact assembles_element object key
  · exact assembles_element object key

theorem assembles_jsonObjectGet {text : Option String} (object : AssemblesWithin fills is d d')
    (key : AssemblesWithin fills js e e') (literal : text.isSome → js = []) :
    AssemblesWithin fills (is ++ js) (t.jsonObjectGet d e text) (t.jsonObjectGet d' e' text) := by
  unfold jsonObjectGet
  split
  · exact assembles_memberCall _ object (spread_singleton key)
  · exact assembles_jsonMember object key literal

/-- Kotlin puts `null` without the draft of the value. -/
theorem assembles_jsonObjectPut {text : Option String} {isNull : Bool}
    (object : AssemblesWithin fills is d d') (key : AssemblesWithin fills js e e')
    (value : AssemblesWithin fills ks f f') (literal : text.isSome → js = [])
    (null : isNull → ks = []) :
    AssemblesWithin fills (is ++ js ++ ks) (t.jsonObjectPut d e f text isNull)
      (t.jsonObjectPut d' e' f' text isNull) := by
  unfold jsonObjectPut
  split
  · split
    next isNull =>
      rw [null isNull, List.append_nil]
      exact assembles_memberCall _ object (spread_singleton key)
    next =>
      rw [List.append_assoc]
      exact assembles_memberCall _ object (.cons key (spread_singleton value))
  · exact ((assembles_jsonMember object key literal).append_text _).append value

theorem assembles_jsonEncode (value : AssemblesWithin fills is d d') :
    AssemblesWithin fills is (t.jsonEncode d) (t.jsonEncode d') := by
  have call := assembles_memberCall "toString" value .nil
  rw [List.append_nil] at call
  cases t with
  | kotlin => exact call
  | _ => exact (value.text_append _).append_text _

theorem assembles_jsonArrayGet (array : AssemblesWithin fills is d d')
    (index : AssemblesWithin fills js e e') :
    AssemblesWithin fills (is ++ js) (t.jsonArrayGet d e) (t.jsonArrayGet d' e') := by
  unfold jsonArrayGet
  split
  · exact assembles_memberCall _ array (spread_singleton index)
  · exact assembles_element array index

theorem assembles_listAdd (list : AssemblesWithin fills is d d')
    (value : AssemblesWithin fills js e e') :
    AssemblesWithin fills (is ++ js) (t.listAdd d e) (t.listAdd d' e') := by
  unfold listAdd
  split <;> exact assembles_memberCall _ list (spread_singleton value)

/-- Kotlin adds `null` without the draft of the value. -/
theorem assembles_jsonArrayAdd {isNull : Bool} (array : AssemblesWithin fills is d d')
    (value : AssemblesWithin fills js e e') (null : isNull → js = []) :
    AssemblesWithin fills (is ++ js) (t.jsonArrayAdd d e isNull) (t.jsonArrayAdd d' e' isNull) := by
  unfold jsonArrayAdd
  split
  · split
    next isNull =>
      rw [null isNull]
      exact assembles_memberCall _ array .nil
    next => exact assembles_memberCall _ array (spread_singleton value)
  · exact assembles_listAdd array value

theorem assembles_listSize (list : AssemblesWithin fills is d d') :
    AssemblesWithin fills is (t.listSize d) (t.listSize d') := by
  have call := assembles_memberCall "size" list .nil
  rw [List.append_nil] at call
  cases t with
  | groovy => exact call
  | _ => exact list.append_text _

theorem assembles_jsonArraySize (array : AssemblesWithin fills is d d') :
    AssemblesWithin fills is (t.jsonArraySize d) (t.jsonArraySize d') := by
  have call := assembles_memberCall "size" array .nil
  rw [List.append_nil] at call
  unfold jsonArraySize
  split
  · exact call
  · exact assembles_listSize array

theorem assembles_property (name : String) (object : AssemblesWithin fills is d d') :
    AssemblesWithin fills is (t.property d name) (t.property d' name) := by
  have index := assembles_element object (.text (Target.ruby.quote name))
  rw [List.append_nil] at index
  cases t with
  | ruby => exact index
  | _ => exact assembles_fieldAccess name object

theorem assembles_mapForEach (key value : String) (map : AssemblesWithin fills is d d')
    (h : BodyDraft.Assembles fills js body body') :
    AssemblesWithin fills (is ++ js) (t.mapForEach d key value body)
      (t.mapForEach d' key value body') := by
  cases t with
  | javascript =>
    have head (s₁ s₂ s₃ s₄ : String) :
        AssemblesWithin fills is (s₁ ++ d ++ s₂ ++ s₃ ++ s₄) (s₁ ++ d' ++ s₂ ++ s₃ ++ s₄) :=
      (((map.text_append s₁).append_text s₂).append_text s₃).append_text s₄
    exact ((head _ _ _ _).append (assembles_arrowBody h)).append_text ")"
  | groovy => exact (map.append_text ".each ").append (assembles_groovyClosure _ h)
  | ruby =>
    exact (h.asLines.suite rfl ((map.append_text _).append_text _)).append_text "end"
  | kotlin =>
    have head : AssemblesWithin fills [] ("for ((" ++ key ++ ", " ++ value ++ ") in ")
        ("for ((" ++ key ++ ", " ++ value ++ ") in ") :=
      ((((Assembles.text _).append_text _).append_text _).append_text _).append_text _
    exact (h.asLines.suite rfl (head.append map)).append_text "\x7d"

end Containers

/-! ### Statements -/

section Statements

variable {lines lines' handler handler' : Draft} {value value' : Option Draft}

theorem assembles_nestedBlock (h : AssemblesLines fills is d d') :
    AssemblesWithin fills is (t.nestedBlock d) (t.nestedBlock d') := by
  cases t with
  | ruby => exact (h.opened rfl).append_text "end"
  | javascript => exact assembles_braces h
  | _ => exact (assembles_braces h).text_append _

theorem assembles_returnValue (h : Optional (AssemblesWithin fills) is value value') :
    AssemblesWithin fills is (returnValue value) (returnValue value') := by
  cases h with
  | none => exact .text _
  | some h => exact h.text_append _

theorem assembles_varDecl (scope : Model.Scope) (type : TypeInfo) (name : String)
    (h : Optional (AssemblesWithin fills) is value value') :
    AssemblesWithin fills is (t.varDecl scope type name value)
      (t.varDecl scope type name value') := by
  have head (s s' : String) : AssemblesWithin fills [] (s ++ s') (s ++ s') :=
    (Assembles.text s).append_text s'
  cases h with
  | none =>
    cases t with
    | javascript => exact (head _ _).append .empty
    | groovy => exact (head _ _).append (assembles_ite (.text _) .empty)
    | ruby => exact (head _ _).append (.text _)
    | kotlin => exact (head _ _).append (.text _)
  | some h =>
    cases t with
    | ruby => exact (head _ _).append h
    | _ => exact (head _ _).append (h.text_append _)

theorem assembles_conditionals {branches branches' : List (Draft × Draft)}
    (hb : Spread (AssemblesBranch fills) is branches branches')
    (ho : Optional (AssemblesLines fills) js value value') :
    AssemblesWithin fills (is ++ js) (t.conditionals branches value)
      (t.conditionals branches' value') := by
  cases t with
  | ruby =>
    have branch (word : String) : ∀ ks b b', AssemblesBranch fills ks b b' →
        AssemblesWithin fills ks (word ++ b.1 ++ "\n" ++ b.2.indented)
          (word ++ b'.1 ++ "\n" ++ b'.2.indented) := by
      rintro _ _ _ ⟨cond, body⟩
      exact body.suite rfl (cond.text_append word)
    simp only [conditionals]
    refine (Assembles.append (b := .anywhere) (c := .anywhere) (.concat ?_) ?_).append_text "end"
    · -- the first branch is spelled otherwise than the ones after it
      cases hb with
      | nil => exact .nil
      | cons first rest =>
        exact .cons (branch "if " _ _ _ first) (Spread.map (branch "elsif ") rest)
    · cases ho with
      | none => exact .empty
      | some ho => exact ho.opened rfl
  | _ =>
    simp only [conditionals]
    refine (AssemblesWithin.joined " else " (hb.map ?_)).append ?_
    · rintro _ _ _ ⟨cond, body⟩
      exact ((cond.text_append _).append_text _).append (assembles_braces body)
    · cases ho with
      | none => exact .empty
      | some ho => exact (assembles_braces ho).text_append _

theorem assembles_tryCatch (param : String) (hb : AssemblesLines fills is lines lines')
    (hh : AssemblesLines fills js handler handler') :
    AssemblesWithin fills (is ++ js) (t.tryCatch lines param handler)
      (t.tryCatch lines' param handler') := by
  have braced : AssemblesWithin fills is ("try " ++ braces lines) ("try " ++ braces lines') :=
    (assembles_braces hb).text_append _
  cases t with
  | ruby =>
    have begun : AssemblesWithin fills is ("begin\n" ++ lines.indented)
        ("begin\n" ++ lines'.indented) :=
      hb.opened rfl
    have head := (begun.append_text "rescue => ").append_text (identifier .ruby param)
    exact (hh.suite rfl head).append_text "end"
  | kotlin =>
    exact (((braced.append_text _).append_text _).append_text _).append (assembles_braces hh)
  | _ => exact (((braced.append_text _).append_text _).append_text _).append (assembles_braces hh)

theorem assembles_throw (c : ClassType) (h : Optional (AssemblesWithin fills) is value value') :
    AssemblesWithin fills is (t.throw c value) (t.throw c value') := by
  unfold throw
  split
  · cases h with
    | none => exact .text _
    | some h => exact h.text_append _
  · exact (assembles_throwable c h).text_append _

/-- What stands in the update of a loop and what stands in its body, in the order in which the
languages write the two. -/
def inLoop {α : Type} (t : Target) (update body : List α) : List α :=
  match t with
  | .ruby | .kotlin => body ++ update
  | _ => update ++ body

theorem assembles_loop {init init' : Draft} (hi : AssemblesWithin fills is init init')
    (hc : AssemblesWithin fills js d d') (hu : AssemblesWithin fills ks e e')
    (hb : AssemblesLines fills ls lines lines') :
    AssemblesWithin fills (is ++ js ++ t.inLoop ks ls) (t.loop init d e lines)
      (t.loop init' d' e' lines') := by
  -- the update ends the lines of the body in the languages without such loops
  have updated : AssemblesLines fills (ls ++ ks) (lines ++ e ++ .text "\n")
      (lines' ++ e' ++ .text "\n") := by
    rw [Draft.append_assoc, Draft.append_assoc]
    exact hb.append (hu.lines rfl)
  cases t with
  | ruby => exact (updated.suite rfl ((hi.append_text _).append hc)).append_text "end"
  | kotlin =>
    have head := ((hi.append_text "\nwhile (").append hc).append_text ") "
    have loop := AssemblesWithin.lines (s := "\n") rfl (head.append (assembles_braces updated))
    exact (assembles_braces loop).text_append "run "
  | _ =>
    have head := (((hi.text_append (a := .anywhere) "for (").append_text "; ").append
      hc).append_text "; "
    have together := ((head.append hu).append_text ") ").append (assembles_braces hb)
    rwa [List.append_assoc (is ++ js)] at together

theorem assembles_sequenceFor (id : String) (start : AssemblesWithin fills is d d')
    (stop : AssemblesWithin fills js e e') (hb : AssemblesLines fills ks lines lines') :
    AssemblesWithin fills (is ++ js ++ ks) (t.sequenceFor id d e lines)
      (t.sequenceFor id d' e' lines') := by
  have begun {s : Draft} (head : AssemblesWithin fills [] s s) (between : String) :
      AssemblesWithin fills (is ++ js) (s ++ d ++ .text between ++ e)
        (s ++ d' ++ .text between ++ e') :=
    ((head.append start).append_text between).append stop
  have head : AssemblesWithin fills [] ("for (" ++ t.identifier id ++ " in ")
      ("for (" ++ t.identifier id ++ " in ") :=
    ((Assembles.text _).append_text _).append_text _
  cases t with
  | ruby =>
    exact (hb.suite rfl (((begun (.text _) _).append_text _).append_text _)).append_text "end"
  | javascript =>
    -- the variable is written three times, for each of which it takes a text of its own
    have head (s₁ s₂ s₃ s₄ : String) :
        AssemblesWithin fills is (s₁ ++ s₂ ++ s₃ ++ d ++ s₄) (s₁ ++ s₂ ++ s₃ ++ d' ++ s₄) :=
      ((((Assembles.text s₁).append_text s₂).append_text s₃).append start).append_text s₄
    have bounds (s₅ s₆ : String) := (((head "for (let " (identifier .javascript id) " = "
      "; ").append_text s₅).append_text s₆).append stop
    exact ((((bounds _ _).append_text _).append_text _).append_text _).append (assembles_braces hb)
  | _ => exact ((begun head _).append_text _).append (assembles_braces hb)

theorem assembles_forEach (element : String) (iterable : AssemblesWithin fills is d d')
    (hb : AssemblesLines fills js lines lines') :
    AssemblesWithin fills (is ++ js) (t.forEach element d lines) (t.forEach element d' lines') := by
  have head (opening between : String) :
      AssemblesWithin fills is (opening ++ t.identifier element ++ between ++ d)
        (opening ++ t.identifier element ++ between ++ d') :=
    (((Assembles.text opening).append_text _).append_text between).append iterable
  cases t with
  | ruby =>
    exact (hb.suite rfl ((iterable.append_text _).append_text _)).append_text "end"
  | _ => exact ((head _ _).append_text _).append (assembles_braces hb)

theorem assembles_method (signature : Signature) (params : List String)
    (hb : AssemblesLines fills is lines lines') :
    AssemblesWithin fills is (t.method signature params lines)
      (t.method signature params lines') := by
  have head (s₁ s₂ s₃ s₄ : String) :
      AssemblesWithin fills [] (s₁ ++ s₂ ++ s₃ ++ s₄) (s₁ ++ s₂ ++ s₃ ++ s₄) :=
    (((Assembles.text s₁).append_text s₂).append_text s₃).append_text s₄
  cases t with
  | ruby => exact (hb.suite rfl (head _ _ _ _)).append_text "end"
  | kotlin =>
    exact ((((head _ _ _ _).append_text _).append_text _).append_text _).append
      (assembles_braces hb)
  | _ => exact ((head _ _ _ _).append_text _).append (assembles_braces hb)

end Statements

end Target

end Polyscript
