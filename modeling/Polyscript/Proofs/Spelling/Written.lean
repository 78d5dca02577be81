import Polyscript.Proofs.Spelling.Unbroken

/-!
# Where names are written

Each construct that binds a name or refers to one writes a word for it. The word is a text of
its own, or an item of a list of names that is written as one text.

## Main definitions

* `Draft.Writes`: a draft that writes a word.
-/

namespace Polyscript

/-- Whether a draft writes a word: as a text of its own or as an item of a list. No letter may
follow it, but the point before a member, the colon before a type, or a blank. -/
def Draft.Writes (d : Draft) (word : String) : Prop :=
  ∃ before behind after,
    .text (", ".intercalate (before ++ (word ++ behind) :: after)) ∈ d.marks ∧
    ∀ c ∈ behind.toList.head?, c ∈ ['.', ':', ' ']

namespace Draft

variable {d e : Draft} {word : String}

theorem Writes.mono (within : d.marks <:+: e.marks) (h : d.Writes word) : e.Writes word := by
  obtain ⟨before, behind, after, mem, ends⟩ := h
  exact ⟨before, behind, after, within.subset mem, ends⟩

/-- An item of a list that begins with a word, before something that is no letter. -/
theorem writes_item {items : List String} {behind : String} (mem : word ++ behind ∈ items)
    (ends : ∀ c ∈ behind.toList.head?, c ∈ ['.', ':', ' ']) :
    (text (", ".intercalate items)).Writes word := by
  obtain ⟨before, after, rfl⟩ := List.append_of_mem mem
  exact ⟨before, behind, after, List.mem_singleton_self _, ends⟩

theorem writes_before {behind : String} (ends : ∀ c ∈ behind.toList.head?, c ∈ ['.', ':', ' ']) :
    (text (word ++ behind)).Writes word := by
  simpa using writes_item (List.mem_singleton_self (word ++ behind)) ends

theorem writes_text (s : String) : (text s).Writes s := by
  have alone : (text (s ++ "")).Writes s := writes_before (by simp)
  simpa using alone

/-- The first draft is carried out first, even if the second one breaks off. -/
theorem prefix_append (d e : Draft) : d.marks <+: (d ++ e).marks := by
  cases broken : d.fault with
  | some fault =>
    have same := append_of_fault broken e
    exact same.symm ▸ List.prefix_rfl
  | none =>
    rw [append_of_unbroken broken]
    exact List.prefix_append _ _

theorem infix_append_right (d e : Draft) : d.marks <:+: (d ++ e).marks :=
  (prefix_append d e).isInfix

theorem infix_append_left (unbroken : d.Unbroken) (e : Draft) : e.marks <:+: (d ++ e).marks := by
  rw [append_of_unbroken unbroken]
  exact (List.suffix_append _ _).isInfix

/-- A text stands right before the draft behind it. -/
theorem infix_text (unbroken : d.Unbroken) (s : String) (e : Draft) :
    .text s :: e.marks <:+: (d ++ text s ++ e).marks := by
  rw [append_assoc]
  exact infix_append_left unbroken (text s ++ e)

theorem infix_indented (d : Draft) : d.marks <:+: d.indented.marks :=
  (infix_append_left (unbroken_mark .indent) d).trans (infix_append_right _ _)

theorem infix_joined (separator : String) {ds : List Draft}
    (unbroken : (joined separator ds).Unbroken) (mem : d ∈ ds) :
    d.marks <:+: (joined separator ds).marks := by
  induction ds with
  | nil => cases mem
  | cons first rest ih =>
    cases rest with
    | nil =>
      obtain rfl := List.mem_singleton.1 mem
      exact List.infix_rfl
    | cons next others =>
      have ofAll : (first ++ separator ++ joined separator (next :: others)).Unbroken := unbroken
      obtain ⟨ofFirst, ofRest⟩ := unbroken_append.1 ofAll
      rcases List.mem_cons.1 mem with rfl | mem
      · exact (infix_append_right _ _).trans (infix_append_right _ _)
      · exact (ih ofRest mem).trans (infix_append_left ofFirst _)

theorem infix_concat {ds : List Draft} (unbroken : (Draft.concat ds).Unbroken) (mem : d ∈ ds) :
    d.marks <:+: (Draft.concat ds).marks := by
  induction ds with
  | nil => cases mem
  | cons first rest ih =>
    obtain ⟨ofFirst, ofRest⟩ := unbroken_append.1 unbroken
    rcases List.mem_cons.1 mem with rfl | mem
    · exact infix_append_right _ _
    · exact (ih ofRest mem).trans (infix_append_left ofFirst _)

theorem Writes.append_right (h : d.Writes word) (e : Draft) : (d ++ e).Writes word :=
  h.mono (infix_append_right d e)

theorem Writes.append_left (unbroken : d.Unbroken) (h : e.Writes word) : (d ++ e).Writes word :=
  h.mono (infix_append_left unbroken e)

theorem Writes.text_append (s : String) (h : e.Writes word) : (text s ++ e).Writes word :=
  h.append_left (unbroken_text s)

/-- A word between an opening and the rest of a construct. -/
theorem writes_opened (opening word : String) (rest : Draft) :
    (opening ++ word ++ rest).Writes word :=
  ((writes_text word).text_append opening).append_right rest

theorem Writes.indented (h : d.Writes word) : d.indented.Writes word :=
  (h.append_left (unbroken_mark _)).append_right _

end Draft

namespace Target

open Draft

variable {t : Target} {d e f : Draft} {op : Model.AsyncOp} {word : String}

theorem writes_braces (h : d.Writes word) : (braces d).Writes word :=
  (h.indented.text_append _).append_right _

theorem writes_asLines {body : BodyDraft} (h : body.plain.Writes word) :
    body.asLines.Writes word := by
  cases body with
  | expr d => exact h.append_right _
  | lines d => exact h

theorem writes_closureBody {body : BodyDraft} (h : body.plain.Writes word) :
    (closureBody body).Writes word := by
  cases body with
  | expr d => exact (h.text_append _).append_right _
  | lines d => exact (h.indented.text_append _).append_right _

theorem writes_arrowBody {body : BodyDraft} (h : body.plain.Writes word) :
    (arrowBody body).Writes word := by
  cases body with
  | expr d => exact h
  | lines d => exact writes_braces h

/-! ### Binding names -/

/-- A name among others. -/
theorem writes_identifiers {names : List String} {name : String} (mem : name ∈ names) :
    (text (t.identifiers names)).Writes (t.identifier name) := by
  have item : t.identifier name ++ "" ∈ names.map t.identifier := by
    simpa using List.mem_map_of_mem mem
  exact writes_item item (by simp)

theorem writes_varDecl (scope : Model.Scope) (type : TypeInfo) (name : String)
    (init : Option Draft) :
    (t.varDecl scope type name init).Writes (t.variableName name scope) := by
  unfold varDecl
  cases t with
  | ruby => exact ((writes_text _).append_right _).append_right _
  | groovy => exact ((writes_text _).append_left (by split <;> simp)).append_right _
  | javascript | kotlin => exact ((writes_text _).text_append _).append_right _

theorem writes_tryCatch (unbroken : d.Unbroken) (param : String) :
    (t.tryCatch d param e).Writes (t.identifier param) := by
  have word := writes_text (t.identifier param)
  unfold tryCatch
  cases t with
  | ruby =>
    exact (((word.append_left (by simpa)).append_right _).append_right _).append_right _
  | kotlin | javascript | groovy =>
    exact ((word.append_left (by simpa)).append_right _).append_right _

theorem writes_sequenceFor (start : d.Unbroken) (stop : e.Unbroken) (id : String) :
    (t.sequenceFor id d e f).Writes (t.identifier id) := by
  have word := writes_text (t.identifier id)
  have opened (opening : String) (rest : Draft) := writes_opened opening (t.identifier id) rest
  unfold sequenceFor
  cases t with
  | ruby =>
    exact (((word.append_left (by simp [start, stop])).append_right _).append_right
      _).append_right _
  | javascript => simpa only [append_assoc] using opened _ _
  | groovy | kotlin => simpa only [append_assoc] using opened _ _

theorem writes_forEach (iterable : d.Unbroken) (element : String) :
    (t.forEach element d e).Writes (t.identifier element) := by
  have word := writes_text (t.identifier element)
  have opened (opening : String) (rest : Draft) := writes_opened opening (t.identifier element) rest
  unfold forEach
  cases t with
  | ruby =>
    exact (((word.append_left (by simp [iterable])).append_right _).append_right _).append_right _
  | javascript | groovy | kotlin => simpa only [append_assoc] using opened _ _

theorem writes_groovyClosure {params : List String} {name : String} (mem : name ∈ params)
    (body : BodyDraft) : (groovyClosure params body).Writes (identifier .groovy name) := by
  have some : params.isEmpty = false := List.isEmpty_eq_false_iff_exists_mem.2 ⟨name, mem⟩
  unfold groovyClosure
  rw [some]
  have names := (writes_identifiers (t := .groovy) mem).text_append " "
  exact ((names.append_right " ->").text_append _).append_right _

theorem writes_lambda {params : List String} {name : String} (mem : name ∈ params)
    (body : BodyDraft) : (t.lambda params body).Writes (t.identifier name) := by
  have some : params.isEmpty = false := List.isEmpty_eq_false_iff_exists_mem.2 ⟨name, mem⟩
  have names := writes_identifiers (t := t) mem
  unfold lambda
  cases t with
  | javascript => exact ((names.text_append _).append_right _).append_right _
  | groovy => exact writes_groovyClosure mem body
  | ruby =>
    simp only [some]
    exact (((names.text_append _).append_right _).text_append _).append_right _
  | kotlin =>
    simp only [some]
    exact ((((names.text_append _).append_right _).text_append _).append_right _).append_right _

/-- How a name for a key or for a value of a map is written. Kotlin writes it as it stands. -/
def entryName (t : Target) (name : String) : String :=
  match t with
  | .kotlin => name
  | _ => t.identifier name

theorem writes_mapForEach (map : d.Unbroken) {key value name : String}
    (mem : name ∈ [key, value]) (body : BodyDraft) :
    (t.mapForEach d key value body).Writes (t.entryName name) := by
  have names := writes_identifiers (t := t) mem
  unfold mapForEach
  cases t with
  | javascript =>
    exact (((names.append_left (by simp [map])).append_right _).append_right _).append_right _
  | groovy => exact (writes_groovyClosure mem body).append_left (by simp [map])
  | ruby =>
    exact (((names.append_left (by simp [map])).append_right _).append_right _).append_right _
  | kotlin =>
    have entry := writes_text name
    simp only [List.mem_cons, List.not_mem_nil, or_false] at mem
    rcases mem with rfl | rfl
    · simpa only [entryName, append_assoc] using writes_opened "for ((" name _
    · have opened (rest : Draft) (opening : String) :
          (opening ++ key ++ ", " ++ name ++ rest).Writes name :=
        (entry.append_left (by simp)).append_right rest
      simpa only [entryName, append_assoc] using opened _ _

/-- The names of a method's parameters that are written. Kotlin writes those that have a type. -/
def writtenParams (t : Target) (signature : Signature) (params : List String) : List String :=
  match t with
  | .kotlin => (params.zip signature.params).map Prod.fst
  | _ => params

theorem writes_method {signature : Signature} {params : List String} {name : String}
    (mem : name ∈ t.writtenParams signature params) (body : Draft) :
    (t.method signature params body).Writes (t.identifier name) := by
  have names (isParam : name ∈ params) := writes_identifiers (t := t) isParam
  unfold method
  cases t with
  | javascript | groovy =>
    exact (((names mem).append_left (by simp)).append_right _).append_right _
  | ruby =>
    exact ((((names mem).append_left (by simp)).append_right _).append_right _).append_right _
  | kotlin =>
    obtain ⟨⟨param, type⟩, isParam, rfl⟩ := List.mem_map.1 mem
    have typed : identifier .kotlin param ++ (": " ++ kotlinType type) ∈
        (params.zip signature.params).map fun typed =>
          identifier .kotlin typed.1 ++ ": " ++ kotlinType typed.2 :=
      List.mem_map.2 ⟨(param, type), isParam, String.append_assoc⟩
    have item := writes_item typed (by simp)
    exact ((((item.append_left (by simp)).append_right _).append_right _).append_right
      _).append_right _

/-- A method is defined under its name. -/
theorem writes_methodName (signature : Signature) (params : List String) (body : Draft) :
    (t.method signature params body).Writes (t.methodName signature.name) := by
  have opened (opening : String) (rest : Draft) :=
    writes_opened opening (t.methodName signature.name) rest
  unfold method
  cases t <;> simpa only [append_assoc] using opened _ _

/-! ### Referring to names -/

/-- The name of a method of the enclosing instance that is called. -/
theorem writes_invocation (method : String) (args : List Draft) :
    (t.invocation true d method args).Writes (t.methodName method) := by
  have word := (writes_text (t.methodName method)).append_left (d := qualifier true d) (by simp)
  exact ((word.append_right _).append_right _).append_right _

/-- The name of a method of the enclosing instance that is referred to. -/
theorem writes_methodReference (this : d.Unbroken) (method : String) (arity : Nat) :
    (t.methodReference true d method arity).Writes (t.methodName method) := by
  have word := writes_text (t.methodName method)
  unfold methodReference
  cases t with
  | javascript =>
    exact (((word.append_left (by simp)).append_right _).append_right _).append_right _
  | groovy => exact word.append_left (by simp [this])
  | ruby => exact (word.append_left (by simp)).append_right _
  | kotlin => exact (((word.append_left (by simp)).append_right _).append_right _).append_right _

/-- The parameters of a function that stands for a method reference, which Groovy and Ruby have
no need of. -/
theorem writes_referenceParams (isFunction : t = .javascript ∨ t = .kotlin) {isThis : Bool}
    (receiver : isThis = false → d.Unbroken) (method : String) {arity : Nat} {param : String}
    (mem : param ∈ referenceParams arity) :
    (t.methodReference isThis d method arity).Writes param := by
  have item : param ++ "" ∈ referenceParams arity := by simpa using mem
  have params : (text (", ".intercalate (referenceParams arity))).Writes param :=
    writes_item item (by simp)
  -- the call that the function consists of has the parameters as its arguments
  unfold methodReference
  rcases isFunction with rfl | rfl
  · exact (params.append_left (by simpa using receiver)).append_right _
  · exact (params.append_left (by simpa using receiver)).append_right _

/-- What is asked of an asynchronous result begins with its name, but for what JavaScript asks
of the error. -/
theorem writes_asyncCall (result : t = .javascript → op = .result) (name : String) :
    (text (t.asyncCall name op)).Writes name := by
  have before (behind : String) (ends : ∀ c ∈ behind.toList.head?, c ∈ ['.', ':', ' ']) :
      (text (name ++ behind)).Writes name :=
    writes_before ends
  cases t with
  | javascript =>
    rw [result rfl]
    exact writes_text name
  | ruby =>
    cases op with
    | succeeded => exact before ".succeeded?" (by simp)
    | failed => exact before ".failed?" (by simp)
    | cause => exact before ".cause" (by simp)
    | result => exact before ".result" (by simp)
  | groovy | kotlin =>
    simp only [asyncCall, String.append_assoc]
    exact before ("." ++ (op.method ++ "()")) (by simp)

theorem writes_asyncCall_error (error : op ≠ .result) (name : String) :
    (text (asyncCall .javascript name op)).Writes (name ++ "_err") := by
  have before (behind : String) (ends : ∀ c ∈ behind.toList.head?, c ∈ ['.', ':', ' ']) :
      (text (name ++ ("_err" ++ behind))).Writes (name ++ "_err") := by
    rw [← String.append_assoc]
    exact writes_before ends
  cases op with
  | succeeded => exact before " == null" (by simp)
  | failed => exact before " != null" (by simp)
  | cause => exact before "" (by simp)
  | result => exact absurd rfl error

/-- What the branches of a callback depend on. -/
theorem writes_split {cond : String} (h : (text cond).Writes word) (params : List String)
    (body : Draft) (otherwise : Option Draft) :
    (t.lambda params (.lines (t.conditionals [(.text cond, body)] otherwise ++ "\n"))).Writes
      word := by
  have chain : (t.conditionals [(.text cond, body)] otherwise).Writes word := by
    unfold conditionals
    cases t with
    | ruby =>
      have branch := ((h.text_append "if ").append_right "\n").append_right body.indented
      have all := branch.append_right (Draft.concat [])
      exact (all.append_right _).append_right _
    | javascript | groovy | kotlin =>
      have branch := ((h.text_append "if (").append_right ") ").append_right (braces body)
      exact branch.append_right _
  have lines : (BodyDraft.lines (t.conditionals [(.text cond, body)] otherwise ++
      .text "\n")).plain.Writes word :=
    chain.append_right _
  cases t with
  | javascript => exact (writes_arrowBody lines).append_left (by simp)
  | groovy => exact (writes_closureBody lines).append_left (by split <;> simp)
  | ruby => exact (writes_closureBody lines).append_left (by split <;> simp)
  | kotlin =>
    exact ((writes_asLines lines).indented.append_left (by split <;> simp)).append_right _

end Target

end Polyscript
