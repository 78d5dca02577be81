import Polyscript.Proofs.Json.Number
import Polyscript.Proofs.Layout.Scanning
import Polyscript.Proofs.Spelling.Fragment

/-!
# Brackets in JavaScript

Every construct of JavaScript closes the brackets that it opens, if its parts do and if the
names in it are plain. Texts are quoted, so it does not matter what is in them.

The lemmas are in the order of the definitions. A proof goes through the texts and the parts of
its construct from the left to the right, as a scanner does.

## Main statements

* `Target.closed_quote`: whatever is quoted, it ends where the quotes do.
* `Target.closed_fragment`: whatever is a comment, it ends with its line.
-/

namespace Polyscript

open Scanner

/-! ### Plain texts -/

namespace Scanner

variable {name other : String}

theorem IsPlain.append (plain : IsPlain name) (plain' : IsPlain other) :
    IsPlain (name ++ other) := by
  intro c mem
  rw [String.toList_append, List.mem_append] at mem
  exact mem.elim (plain c) (plain' c)

/-- A text is plain if its characters are those of a plain one. -/
theorem IsPlain.of_subset (plain : IsPlain name) {text : List Char}
    (subset : text ⊆ name.toList) : IsPlain (String.ofList text) := by
  intro c mem
  rw [String.toList_ofList] at mem
  exact plain c (subset mem)

theorem IsPlain.intercalate {separator : String} (plain : IsPlain separator) {items : List String}
    (all : ∀ item ∈ items, IsPlain item) : IsPlain (separator.intercalate items) := by
  induction items with
  | nil => exact List.forall_mem_nil _
  | cons first rest ih =>
    obtain ⟨here, others⟩ := List.forall_mem_cons.1 all
    cases rest with
    | nil => rwa [String.intercalate_singleton]
    | cons =>
      rw [String.intercalate_cons_cons]
      exact (here.append plain).append (ih others)

theorem IsPlain.simpleName (plain : IsPlain name) : IsPlain (Source.simpleName name) := by
  refine plain.of_subset fun c mem => ?_
  rw [List.mem_reverse] at mem
  exact List.mem_reverse.1 ((List.takeWhile_prefix _).subset mem)

theorem IsPlain.displayName {c : ClassType} (plain : IsPlain c.name) : IsPlain c.displayName := by
  unfold ClassType.displayName
  dsimp only
  split
  · exact plain.of_subset (List.drop_subset _ _)
  · exact plain

end Scanner

/-- The spelling of a number. -/
def Model.Literal.spelling? : Model.Literal → Option String
  | .int spelling | .long spelling | .float spelling | .double spelling => some spelling
  | .null | .string _ | .boolean _ | .char _ => none

/-- The name of the class that is named, if it is one of the source. -/
def Model.ClassRef.name? : Model.ClassRef → Option String
  | .throwable type | .api type | .dataObject type | .enum type | .plain type => some type.name
  | .console | .arrays | .jsonObject | .jsonArray | .map | .list => none

namespace Target

open Draft
open Model (Scope Stream Literal UnaryOp BinaryOp AsyncOp ClassRef)

variable {d e f : Draft} {ds : List Draft} {body : BodyDraft} {value : Option Draft}
  {name other : String} {names : List String} {t : Target}

theorem plain_identifier (plain : IsPlain name) : IsPlain (identifier .javascript name) := by
  unfold identifier
  split
  · exact plain.append (by decide)
  · exact plain

theorem plain_identifiers (plain : ∀ name ∈ names, IsPlain name) :
    IsPlain (identifiers .javascript names) :=
  .intercalate (by decide) (List.forall_mem_map.2 fun name mem => plain_identifier (plain name mem))

theorem plain_methodName (plain : IsPlain name) : IsPlain (methodName .javascript name) :=
  plain_identifier plain

theorem plain_variableName (scope : Scope) (plain : IsPlain name) :
    IsPlain (variableName .javascript name scope) :=
  plain_identifier plain

theorem plain_handlerParams (plain : IsPlain name) :
    ∀ param ∈ handlerParams .javascript name, IsPlain param := by
  have error : IsPlain (name ++ "_err") := plain.append (by decide)
  simpa [handlerParams] using ⟨plain, error⟩

theorem plain_asyncCall (plain : IsPlain name) (op : AsyncOp) :
    IsPlain (asyncCall .javascript name op) := by
  have error (text : String) (isPlain : IsPlain text) := plain.append isPlain
  cases op with
  | result => exact plain
  | succeeded => exact error "_err == null" (by decide)
  | failed => exact error "_err != null" (by decide)
  | cause => exact error "_err" (by decide)

theorem plain_referenceParams (count : Nat) : ∀ param ∈ referenceParams count, IsPlain param := by
  unfold referenceParams
  split
  · simpa using (by decide : IsPlain "it")
  · refine List.forall_mem_map.2 fun i _ => ?_
    have digits : IsPlain (toString i) := by
      intro c mem isDelimiter
      rw [Json.toList_toString] at mem
      have noDigit := (notWord_of_mem_delimiters isDelimiter).2.2.2
      exact Bool.eq_false_iff.1 noDigit (Json.isDigit_of_mem_toDigits mem)
    exact IsPlain.append (by decide) digits

/-! ### Quoted texts and comments -/

theorem hexDigit_within : ∀ value < 16, hexDigit value ∉ ['"', '\\', '\n'] := by decide

/-- Between quotes only quotes, backslashes and the ends of lines have a meaning. -/
theorem scan_quoted {c : Char} (within : c ∉ ['"', '\\', '\n']) (missing rest : List Char) :
    scan ⟨.quoted, missing⟩ (c :: rest) = scan ⟨.quoted, missing⟩ rest := by
  simp only [List.mem_cons, List.not_mem_nil, or_false, not_or] at within
  rw [scan_cons]
  unfold step
  split <;> simp_all

/-- What stands for a character between quotes leaves a scanner between them. -/
theorem scan_escapeChar (c : Char) (missing : List Char) :
    scan ⟨.quoted, missing⟩ (escapeChar .javascript c) = some ⟨.quoted, missing⟩ := by
  change scan _ (commonEscape c) = _
  unfold commonEscape
  split
  case h_8 notQuote notBackslash notNewline _ _ _ _ =>
    -- a control character is written as four digits, any other one as it is
    split
    next =>
      have digit (value : Nat) := hexDigit_within (value % 16) (Nat.mod_lt _ (by decide))
      change scan ⟨.quoted, missing⟩ [_, _, _, _] = _
      rw [scan_quoted (digit _), scan_quoted (digit _), scan_quoted (digit _),
        scan_quoted (digit _), scan_nil]
    next => rw [scan_quoted (by simp_all), scan_nil]
  all_goals rfl

/-- Whatever is quoted, the quotes end where they are closed. -/
theorem closed_quote (text : String) : (Draft.text (quote .javascript text)).IsClosed := by
  intro missing
  have between : scan ⟨.quoted, missing⟩ (escape .javascript text).toList =
      some ⟨.quoted, missing⟩ := by
    rw [escape, String.toList_ofList]
    induction text.toList with
    | nil => rfl
    | cons c rest ih =>
      rw [List.flatMap_cons]
      exact scan_append_of (scan_escapeChar c missing) ih
  refine .text ?_
  rw [quote, String.toList_append, String.toList_append]
  exact scan_append_of (scan_append_of rfl between) rfl

theorem scan_comment {text : List Char} (noNewline : '\n' ∉ text) (missing : List Char) :
    scan ⟨.comment, missing⟩ text = some ⟨.comment, missing⟩ := by
  induction text with
  | nil => rfl
  | cons c rest ih =>
    rw [List.mem_cons, not_or] at noNewline
    rw [scan_cons, step, if_neg (Ne.symm noNewline.1)]
    exact ih noNewline.2

/-- A comment ends with its line, whatever it says. -/
theorem closed_comment {text : String} (noNewline : '\n' ∉ text.toList) :
    (Draft.text (comment .javascript text) ++ Draft.text "\n").IsClosed := by
  intro missing
  have read : scan (code missing) (comment .javascript text).toList =
      some ⟨.comment, missing⟩ := by
    unfold comment
    split
    · rfl
    · have opened : scan (code missing) (commentSign .javascript ++ " ").toList =
          some ⟨.comment, missing⟩ := rfl
      rw [String.toList_append]
      exact scan_append_of opened (scan_comment noNewline missing)
  exact (Leads.text read).write rfl

theorem closed_fragmentLine {line : List Char} (noNewline : '\n' ∉ line) :
    (fragmentLine .javascript line).IsClosed := by
  unfold fragmentLine
  split
  · exact .text (by decide)
  next text isComment =>
    have isText : commentText? line = some (String.ofList (Text.trim text)) := by
      simp only [commentText?, isComment]
    exact closed_comment (newline_notMem_commentText noNewline isText)
  · exact .empty

theorem closed_fragment (fragment : String) : (Target.fragment .javascript fragment).IsClosed :=
  .concat (List.forall_mem_map.2 fun _ mem =>
    closed_fragmentLine (Text.newline_notMem_of_mem_lines mem))

/-! ### Expressions -/

theorem closed_literal {literal : Literal} (plain : ∀ spelling ∈ literal.spelling?,
    IsPlain spelling) : (Draft.text (Target.literal .javascript literal)).IsClosed := by
  cases literal with
  | string | char => exact closed_quote _
  | null => exact .text (by decide)
  | boolean value => cases value <;> exact .text (by decide)
  | int spelling | long spelling | float spelling | double spelling =>
    exact .text (plain spelling rfl)

theorem closed_concatenation {parts : List (Option String × Draft)}
    (all : ∀ part ∈ parts, part.2.IsClosed) : (concatenation .javascript parts).IsClosed :=
  .joined " + " (by decide) (List.forall_mem_map.2 all)

theorem closed_parenthesized (h : d.IsClosed) : (parenthesized d).IsClosed :=
  fun _ => ((Leads.text rfl).then h).write rfl

/-- A division has a slash in it, which is not followed by another one. -/
theorem closed_binary (op : BinaryOp) (left : d.IsClosed) (right : e.IsClosed) :
    (binary .javascript op d e).IsClosed := by
  intro missing
  -- what follows the slash is a blank, so the scanner is within code again
  cases op <;> exact (((Leads.write (left _) rfl).write rfl).write rfl).then right

theorem closed_unary (isStatement isCheck : Bool) (op : UnaryOp) (h : d.IsClosed) :
    (unary .javascript isStatement isCheck op d).IsClosed := by
  have symbol : IsPlain op.symbol := by cases op <;> decide
  simp only [unary]
  split
  · exact h.write symbol
  · refine (IsClosed.text symbol).append ?_
    split
    · exact closed_parenthesized h
    · exact h

theorem closed_conditional (cond : d.IsClosed) (yes : e.IsClosed) (no : f.IsClosed) :
    (conditional .javascript d e f).IsClosed :=
  (((cond.write (by decide)).append yes).write (by decide)).append no

theorem closed_assignment (target : d.IsClosed) (value : e.IsClosed) :
    (assignment d e).IsClosed :=
  (target.write (by decide)).append value

theorem closed_fieldAccess (receiver : d.IsClosed) (plain : IsPlain name) :
    (fieldAccess .javascript d name).IsClosed :=
  (receiver.write (by decide)).write (plain_identifier plain)

theorem closed_arguments (all : ∀ d ∈ ds, d.IsClosed) : (arguments ds).IsClosed :=
  .joined ", " (by decide) all

theorem closed_qualifier {isThis : Bool} (receiver : isThis = false → d.IsClosed) :
    (qualifier isThis d).IsClosed := by
  cases isThis with
  | true => exact .empty
  | false => exact (receiver rfl).write (by decide)

theorem closed_invocation {isThis : Bool} (receiver : isThis = false → d.IsClosed)
    (plain : IsPlain name) (args : ∀ d ∈ ds, d.IsClosed) :
    (invocation .javascript isThis d name ds).IsClosed := by
  have called := (closed_qualifier receiver).write (plain_methodName plain)
  exact fun _ => ((Leads.write (called _) rfl).then (closed_arguments args)).write rfl

theorem closed_construction {c : ClassType} (plain : IsPlain c.name)
    (args : ∀ d ∈ ds, d.IsClosed) : (construction .javascript c ds).IsClosed := by
  have named := IsClosed.text_append "new " (by decide) (.text plain.displayName)
  exact fun _ => ((Leads.write (named _) rfl).then (closed_arguments args)).write rfl

theorem closed_throwable (c : ClassType) (reason : ∀ d ∈ value, d.IsClosed) :
    (throwable .javascript c value).IsClosed := by
  have given : (value.getD .empty).IsClosed := by
    cases value with
    | none => exact .empty
    | some d => exact reason d rfl
  exact fun _ => ((Leads.text rfl).then given).write rfl

theorem closed_instanceTest {c : ClassType} (plain : IsPlain c.name) (h : d.IsClosed) :
    (instanceTest .javascript d c).IsClosed := by
  simp only [instanceTest]
  split
  · exact .fail _
  · exact (h.write (by decide)).write plain.simpleName

theorem closed_braces (lines : d.IsClosed) : (braces d).IsClosed :=
  fun _ => ((Leads.text rfl).then lines.indented).write rfl

theorem closed_arrowBody (h : body.plain.IsClosed) : (arrowBody body).IsClosed := by
  cases body with
  | expr d => exact h
  | lines d => exact closed_braces h

theorem closed_lambda (plain : ∀ name ∈ names, IsPlain name) (h : body.plain.IsClosed) :
    (lambda .javascript names body).IsClosed := by
  have params := IsClosed.text (plain_identifiers plain)
  exact fun _ => (((Leads.text rfl).then params).write rfl).then (closed_arrowBody h)

theorem closed_methodReference {isThis : Bool} (receiver : isThis = false → d.IsClosed)
    (plain : IsPlain name) (arity : Nat) :
    (methodReference .javascript isThis d name arity).IsClosed := by
  have params : IsPlain (", ".intercalate (referenceParams arity)) :=
    .intercalate (by decide) (plain_referenceParams arity)
  -- the parameters are written twice: they are taken, and then given to the method
  have head : (Draft.text "(" ++ Draft.text (", ".intercalate (referenceParams arity)) ++
      Draft.text ") => ").IsClosed :=
    fun _ => ((Leads.text rfl).then (.text params)).write rfl
  have called := (head.append (closed_qualifier receiver)).write (plain_methodName plain)
  exact fun _ => ((Leads.write (called _) rfl).then (.text params)).write rfl

theorem closed_consolePrint (stream : Stream) (arg : d.IsClosed) :
    (consolePrint .javascript stream d).IsClosed := by
  intro _
  cases stream <;> exact ((Leads.text rfl).then arg).write rfl

theorem plain_className {cls : ClassRef} (plain : ∀ name ∈ cls.name?, IsPlain name) :
    IsPlain (className .javascript cls) := by
  cases cls with
  | console | arrays | jsonObject | jsonArray | map | list => decide
  | api type | dataObject type | enum type => exact (plain type.name rfl).simpleName
  | throwable type | plain type => exact (plain type.name rfl).displayName

/-! ### Containers -/

theorem closed_mapLiteral {members : List (String × Draft)}
    (all : ∀ m ∈ members, m.2.IsClosed) : (mapLiteral .javascript members).IsClosed := by
  have entry : ∀ d ∈ entries .javascript " : " members, d.IsClosed :=
    List.forall_mem_map.2 fun m mem => ((closed_quote _).write (by decide)).append (all m mem)
  have deeper : (Draft.mark .indent).IsClosed := .mark (by simp)
  have back : (Draft.mark .unindent).IsClosed := .mark (by simp)
  have lines := deeper.append (.joined ",\n" (by decide) entry)
  simp only [mapLiteral]
  split
  · exact fun _ => .text rfl
  · exact fun _ => (((((Leads.text rfl).write rfl).then lines).then back).write rfl).write rfl

theorem closed_listLiteral (all : ∀ d ∈ ds, d.IsClosed) :
    (listLiteral .javascript ds).IsClosed :=
  fun _ => ((Leads.text rfl).then (closed_arguments all)).write rfl

theorem closed_element (container : d.IsClosed) (key : e.IsClosed) : (element d e).IsClosed :=
  fun _ => ((Leads.write (container _) rfl).then key).write rfl

theorem closed_memberCall {method : String} (plain : IsPlain method) (container : d.IsClosed)
    (args : ∀ d ∈ ds, d.IsClosed) : (memberCall d method ds).IsClosed := by
  have named : (d ++ Draft.text "." ++ Draft.text method).IsClosed :=
    (container.write (by decide)).write plain
  exact fun _ => ((Leads.write (named _) rfl).then (closed_arguments args)).write rfl

/-- A member is named behind a point only if its name is the name of a variable. -/
theorem plain_of_isMemberName (isName : isMemberName name) : IsPlain name := by
  intro c mem isDelimiter
  have noLetter := notWord_of_mem_delimiters isDelimiter
  unfold isMemberName at isName
  dsimp only at isName
  split at isName
  next none =>
    rw [none] at mem
    cases mem
  next first rest chars =>
    obtain ⟨starts, others⟩ := Bool.and_eq_true_iff.1 isName
    rw [chars] at mem
    rcases List.mem_cons.1 mem with rfl | mem
    · simp [noLetter] at starts
    · simpa [noLetter] using List.all_eq_true.1 others c mem

theorem closed_jsonMember {text : Option String} (object : d.IsClosed) (key : e.IsClosed) :
    (jsonMember .javascript d e text).IsClosed := by
  cases text with
  | none => exact closed_element object key
  | some name =>
    simp only [jsonMember]
    split
    next isName =>
      have plain := plain_of_isMemberName (Bool.and_eq_true_iff.1 isName).1
      exact (object.write (by decide)).write plain
    next => exact closed_element object key

theorem closed_jsonObjectPut {text : Option String} (isNull : Bool) (object : d.IsClosed)
    (key : e.IsClosed) (value : f.IsClosed) :
    (jsonObjectPut .javascript d e f text isNull).IsClosed :=
  ((closed_jsonMember object key).write (by decide)).append value

theorem closed_jsonEncode (h : d.IsClosed) : (jsonEncode .javascript d).IsClosed :=
  fun _ => ((Leads.text rfl).then h).write rfl

theorem closed_listAdd (list : d.IsClosed) (value : e.IsClosed) :
    (listAdd .javascript d e).IsClosed :=
  closed_memberCall (by decide) list (List.forall_mem_singleton.2 value)

theorem closed_listSize (list : d.IsClosed) : (listSize .javascript d).IsClosed :=
  list.write (by decide)

theorem closed_mapForEach {key value : String} (map : d.IsClosed) (plain : IsPlain key)
    (plain' : IsPlain value) (h : body.plain.IsClosed) :
    (mapForEach .javascript d key value body).IsClosed := by
  have names : ∀ name ∈ [key, value], IsPlain name := by simp [plain, plain']
  have params := IsClosed.text (plain_identifiers names)
  exact fun _ => ((((((Leads.text rfl).then map).write rfl).then params).write rfl).then
    (closed_arrowBody h)).write rfl

/-! ### Statements and declarations -/

theorem closed_nestedBlock (lines : d.IsClosed) : (nestedBlock .javascript d).IsClosed :=
  closed_braces lines

theorem closed_returnValue (h : ∀ d ∈ value, d.IsClosed) : (returnValue value).IsClosed := by
  cases value with
  | none => exact .text (by decide)
  | some d => exact .text_append "return " (by decide) (h d rfl)

theorem closed_varDecl (scope : Scope) (type : TypeInfo) (plain : IsPlain name)
    (init : ∀ d ∈ value, d.IsClosed) : (varDecl .javascript scope type name value).IsClosed := by
  have declared := IsClosed.text_append "let " (by decide) (.text (plain_identifier plain))
  cases value with
  | none => exact declared.append .empty
  | some d => exact declared.append (.text_append " = " (by decide) (init d rfl))

theorem closed_conditionals {branches : List (Draft × Draft)}
    (all : ∀ branch ∈ branches, branch.1.IsClosed ∧ branch.2.IsClosed)
    (otherwise : ∀ d ∈ value, d.IsClosed) : (conditionals .javascript branches value).IsClosed := by
  have branch {cond body : Draft} (condClosed : cond.IsClosed) (bodyClosed : body.IsClosed) :
      (Draft.text "if (" ++ cond ++ Draft.text ") " ++ braces body).IsClosed :=
    fun _ => (((Leads.text rfl).then condClosed).write rfl).then (closed_braces bodyClosed)
  have chain := IsClosed.joined " else " (by decide)
    (List.forall_mem_map.2 fun b mem => branch (all b mem).1 (all b mem).2)
  cases value with
  | none => exact chain.append .empty
  | some d =>
    exact chain.append (.text_append " else " (by decide) (closed_braces (otherwise d rfl)))

theorem closed_tryCatch (body : d.IsClosed) (plain : IsPlain name) (handler : e.IsClosed) :
    (tryCatch .javascript d name e).IsClosed := by
  have guarded := IsClosed.text_append "try " (by decide) (closed_braces body)
  have param := IsClosed.text (plain_identifier plain)
  exact fun _ => (((Leads.write (guarded _) rfl).then param).write rfl).then (closed_braces handler)

theorem closed_throw (c : ClassType) (reason : ∀ d ∈ value, d.IsClosed) :
    (throw .javascript c value).IsClosed :=
  .text_append "throw " (by decide) (closed_throwable c reason)

theorem closed_loop {body : Draft} (init : d.IsClosed) (cond : e.IsClosed) (update : f.IsClosed)
    (lines : body.IsClosed) : (loop .javascript d e f body).IsClosed :=
  fun _ => (((((((Leads.text rfl).then init).write rfl).then cond).write rfl).then update).write
    rfl).then (closed_braces lines)

theorem closed_sequenceFor (plain : IsPlain name) (start : d.IsClosed) (stop : e.IsClosed)
    (body : f.IsClosed) : (sequenceFor .javascript name d e f).IsClosed := by
  have id := IsClosed.text (plain_identifier plain)
  exact fun _ => (((((((((((Leads.text rfl).then id).write rfl).then start).write rfl).then
    id).write rfl).then stop).write rfl).then id).write rfl).then (closed_braces body)

theorem closed_forEach (plain : IsPlain name) (iterable : d.IsClosed) (body : e.IsClosed) :
    (forEach .javascript name d e).IsClosed := by
  have element := IsClosed.text (plain_identifier plain)
  exact fun _ => (((((Leads.text rfl).then element).write rfl).then iterable).write rfl).then
    (closed_braces body)

theorem closed_method {signature : Signature} {params : List String}
    (plain : IsPlain signature.name) (plainParams : ∀ param ∈ params, IsPlain param)
    (body : d.IsClosed) : (method .javascript signature params d).IsClosed := by
  have named := IsClosed.text_append "function " (by decide) (.text (plain_methodName plain))
  have params := IsClosed.text (plain_identifiers plainParams)
  exact fun _ => (((Leads.write (named _) rfl).then params).write rfl).then (closed_braces body)

end Target

end Polyscript
