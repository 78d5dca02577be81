import Mathlib.Data.List.Induction
import Polyscript.Proofs.Layout.Alike
import Polyscript.Proofs.Lowering.Memo
import Polyscript.Proofs.Spelling.Unbroken

/-!
# Chained puts

Putting a value into a structured object gives the object again, so puts can be chained. Each put
of a chain on a variable is lowered to an access of what the one before is lowered to. Kotlin
writes the accesses as calls, which can be chained as well. The other languages write an access as
an assignment, and they write it without parentheses where it is the object of the next one: the
next key follows what was assigned, and is taken from there.

So a put in a chain is an assignment to the variable if it is the first one, and assigns its value
if it is the last one.

## Main definitions

* `Source.Expr.chain`: a chain of puts.
* `Target.assignments`: what a chain appends to its variable.

## Main statements

* `Source.Expr.chain_written`: where the keys and values of a chain stand, and which of them stand
  right.
-/

namespace Polyscript

open Lowering Step
open Model (Scope)

/-! ### Chains -/

namespace Source

/-- A put in a chain: its key and its value, with the name of the method, its symbol and the types
of the arguments and of the result. -/
structure ChainedPut where
  key : String
  value : Expr
  name : String
  method : SymbolId
  keyType : Ty
  valueType : Ty
  type : Ty
  span : Span := {}
  keySpan : Span := {}

/-- A put on the result of an expression. -/
def ChainedPut.on (put : ChainedPut) (target : Expr) : Expr :=
  .call (.member target put.name) put.method
    [⟨.literal (.string put.key) put.keySpan, put.keyType⟩, ⟨put.value, put.valueType⟩] put.type
    put.span

/-- The puts one after the other, each on the result of the one before. -/
def Expr.chain (target : Expr) (puts : List ChainedPut) : Expr :=
  puts.foldl (fun target put => put.on target) target

/-- Whether a put is a call of the method `put` whose result is a structured object. -/
structure ChainedPut.IsPut (r : Resolver) (put : ChainedPut) : Prop where
  isPut : (r.signature put.method).map Signature.name = .ok "put"
  isObject : (r.resolve put.type).map TypeInfo.kind = .ok .jsonObject

end Source

/-- A put with the model of its value. -/
abbrev LoweredPut : Type := Source.ChainedPut × Model.Expr

/-- The accesses of a chain, each on the one before. -/
def Model.Expr.putAll (object : Expr) (puts : List LoweredPut) : Expr :=
  puts.foldl (fun object put => .access (.jsonObjectPut object (.string put.1.key) put.2)) object

theorem Model.Expr.putAll_concat (object : Expr) (puts : List LoweredPut) (put : LoweredPut) :
    object.putAll (puts ++ [put]) =
      .access (.jsonObjectPut (object.putAll puts) (.string put.1.key) put.2) :=
  List.foldl_concat _ _ _ _

/-! ### Lowering -/

theorem Model.Expr.withKind_jsonObject {type : TypeInfo} (isObject : type.kind = .jsonObject)
    (value : Expr) : value.withKind type = .typed value .jsonObject := by
  unfold withKind kindOfType?
  rw [isObject]

/-- A call of `put` on a structured object is an access, which is a structured object again. -/
theorem Model.Expr.put_typed (object : Expr) (site : CallSite) {key : String} {value : Expr}
    {type : TypeInfo} (isPut : site.method.name = "put") (args : site.args = [.string key, value])
    (isObject : type.kind = .jsonObject) :
    ((Expr.typed object .jsonObject).call site >>= fun call => call.coerce type) =
      .ok (.typed (.access (.jsonObjectPut object (.string key) value)) .jsonObject) := by
  rw [call, callTyped, Access.ofCall?, args, isPut]
  change (Expr.access (.jsonObjectPut object (.string key) value)).coerce type = _
  rw [coerce, isObject, if_neg (by decide), withKind_jsonObject isObject]

variable {r : Resolver} {ctx : Context} {s s' : Progress} {model object : Model.Expr}

/-- The arguments of a put are its key and what its value is lowered to. -/
theorem Source.ChainedPut.lower_args {put : ChainedPut} {args : List Model.Expr}
    (lowers : Arg.lowerAllWith (identifier r) r ctx
      [⟨.literal (.string put.key) put.keySpan, put.keyType⟩, ⟨put.value, put.valueType⟩] s =
        (.ok args, s')) :
    ∃ value s₁ s₂, put.value.lower r ctx s₁ = (.ok value, s₂) ∧
      args = [.string put.key, value] := by
  rw [Arg.lowerAllWith] at lowers
  obtain ⟨key, _, isKey, lowers⟩ := ok_of_bind lowers
  rw [Expr.lowerWith] at isKey
  obtain ⟨rest, _, isRest, lowers⟩ := ok_of_bind lowers
  rw [Arg.lowerAllWith] at isRest
  obtain ⟨value, _, isValue, isRest⟩ := ok_of_bind isRest
  obtain ⟨none, _, isNone, isRest⟩ := ok_of_bind isRest
  rw [Arg.lowerAllWith] at isNone
  obtain rfl := (ok_of_pure isKey).1
  obtain rfl := (ok_of_pure isNone).1
  obtain rfl := (ok_of_pure isRest).1
  exact ⟨value, _, _, isValue, (ok_of_pure lowers).1.symm⟩

/-- A put on a structured object is lowered to an access of the object. -/
theorem Source.ChainedPut.lower_on {put : ChainedPut} {target : Expr} (isPut : put.IsPut r)
    (lowers : (put.on target).lower r ctx s = (.ok model, s')) :
    ∃ e t, target.lower r ctx s = (.ok e, t) ∧ ∀ object, e = .typed object .jsonObject →
      ∃ value s₁ s₂, put.value.lower r ctx s₁ = (.ok value, s₂) ∧
        model = .typed (.access (.jsonObjectPut object (.string put.key) value)) .jsonObject := by
  unfold on Expr.lower at lowers
  rw [Expr.lowerWith, Callee.lowerWith] at lowers
  -- each step of the call has succeeded, since the call has
  obtain ⟨e, t, isTarget, lowers⟩ := ok_of_bind lowers
  obtain ⟨types, _, _, lowers⟩ := ok_of_bind lowers
  obtain ⟨args, _, isArgs, lowers⟩ := ok_of_bind lowers
  obtain ⟨returnType, _, isType, lowers⟩ := ok_of_bind lowers
  obtain ⟨owner, _, _, lowers⟩ := ok_of_bind lowers
  obtain ⟨signature, _, isSignature, lowers⟩ := ok_of_bind lowers
  obtain ⟨call, _, isCall, isModel⟩ := ok_of_bind lowers
  refine ⟨e, t, isTarget, ?_⟩
  rintro object rfl
  obtain ⟨value, s₁, s₂, isValue, rfl⟩ := lower_args isArgs
  have isType : r.resolve put.type = .ok returnType := (ok_of_lift isType).1
  have isSignature : r.signature put.method = .ok signature := (ok_of_lift isSignature).1
  have isCall : (Model.Expr.typed object .jsonObject).call
      ⟨owner, signature, returnType, [.string put.key, value], types⟩ = .ok call :=
    (ok_of_lift isCall).1
  have isModel : call.coerce returnType = .ok model := (ok_of_lift isModel).1
  obtain ⟨named, kind⟩ := isPut
  rw [isSignature] at named
  rw [isType] at kind
  have access := Model.Expr.put_typed object
    ⟨owner, signature, returnType, [.string put.key, value], types⟩ (Except.ok.inj named) rfl
    (Except.ok.inj kind)
  rw [isCall] at access
  exact ⟨value, s₁, s₂, isValue, Except.ok.inj (isModel.symm.trans access)⟩

/-- A chain on a structured object is lowered to accesses, each on the one before. -/
theorem Source.Expr.lower_chain {target : Expr} {puts : List ChainedPut}
    (arePuts : ∀ put ∈ puts, put.IsPut r)
    (isObject : ∀ {e t}, target.lower r ctx s = (.ok e, t) → e = .typed object .jsonObject)
    (lowers : (target.chain puts).lower r ctx s = (.ok model, s')) :
    ∃ lowered : List LoweredPut, lowered.map Prod.fst = puts ∧
      (∀ put ∈ lowered, ∃ s₁ s₂, put.1.value.lower r ctx s₁ = (.ok put.2, s₂)) ∧
      model = .typed (object.putAll lowered) .jsonObject := by
  -- the last put is the outermost call, and the chain before it is what it is made on
  induction puts using List.reverseRecOn generalizing model s' with
  | nil => exact ⟨[], rfl, List.forall_mem_nil _, isObject lowers⟩
  | append_singleton earlier put ih =>
    rw [chain, List.foldl_concat, ← chain] at lowers
    obtain ⟨e, t, isChain, isAccess⟩ := ChainedPut.lower_on (arePuts put (by simp)) lowers
    obtain ⟨lowered, areEarlier, areLowered, isNested⟩ :=
      ih (fun put mem => arePuts put (List.mem_append_left _ mem)) isChain
    obtain ⟨value, s₁, s₂, isValue, rfl⟩ := isAccess _ isNested
    refine ⟨lowered ++ [(put, value)], by rw [List.map_append, areEarlier]; rfl, ?_, ?_⟩
    · exact List.forall_mem_append.2
        ⟨areLowered, List.forall_mem_singleton.2 ⟨s₁, s₂, isValue⟩⟩
    · rw [Model.Expr.putAll_concat]

/-! ### Writing -/

namespace Target

/-- What a key appends to an object: a point and a name, or the key in brackets. -/
def keySuffix (t : Target) (key : String) : Draft :=
  if t = .javascript && isMemberName key && !t.reserved.contains key then .text "." ++ .text key
  else .text "[" ++ .text (t.quote key) ++ .text "]"

/-- What puts append to what they are made on, one after the other. -/
def assignments (t : Target) (insideJson : Bool) : List LoweredPut → Draft
  | [] => .empty
  | (put, value) :: rest =>
    t.keySuffix put.key ++ .text " = " ++ value.draft t insideJson false ++
      t.assignments insideJson rest

theorem jsonMember_eq (t : Target) (object : Draft) (key : String) :
    t.jsonMember object (.text (t.quote key)) (some key) = object ++ t.keySuffix key := by
  unfold jsonMember keySuffix element
  cases t with
  | javascript =>
    simp only [decide_true, Bool.true_and]
    split <;> simp only [Draft.append_assoc]
  | _ => simp [Draft.append_assoc]

/-- Apart from Kotlin, languages write the accesses of a chain one behind the other. -/
theorem draft_putAll {t : Target} (assigns : t ≠ .kotlin) (insideJson : Bool) (object : Model.Expr)
    (puts : List LoweredPut) : (object.putAll puts).draft t insideJson false =
      object.draft t insideJson false ++ t.assignments insideJson puts := by
  induction puts generalizing object with
  | nil => exact (Draft.append_empty _).symm
  | cons put rest ih =>
    obtain ⟨put, value⟩ := put
    have written : (Model.Expr.access (.jsonObjectPut object (.string put.key) value)).draft t
        insideJson false = object.draft t insideJson false ++ t.keySuffix put.key ++ .text " = " ++
          value.draft t insideJson false := by
      rw [← jsonMember_eq]
      simp only [Model.Expr.draft, Model.Access.draft, jsonObjectPut]
      cases t with
      | kotlin => exact absurd rfl assigns
      | _ => rfl
    rw [Model.Expr.putAll, List.foldl_cons, ← Model.Expr.putAll, ih, written, assignments]
    simp only [Draft.append_assoc]

theorem assignments_append (t : Target) (insideJson : Bool) (puts others : List LoweredPut) :
    t.assignments insideJson (puts ++ others) =
      t.assignments insideJson puts ++ t.assignments insideJson others := by
  induction puts with
  | nil => rfl
  | cons put rest ih =>
    obtain ⟨put, value⟩ := put
    rw [List.cons_append, assignments, assignments, ih]
    simp only [Draft.append_assoc]

end Target

/-! ### Lengths of texts -/

theorem Page.length_lt_put (p : Page) (c : Char) : p.text.length < (p.put c).text.length := by
  unfold put
  split
  · simp
  · split
    · simp only [String.length_push, String.length_append]
      omega
    · simp

theorem Page.length_write (p : Page) (s : String) :
    p.text.length + s.length ≤ (p.write s).text.length := by
  have puts (cs : List Char) (p : Page) :
      p.text.length + cs.length ≤ (cs.foldl Page.put p).text.length := by
    induction cs generalizing p with
    | nil => exact Nat.le_refl _
    | cons c rest ih =>
      have := p.length_lt_put c
      have := ih (p.put c)
      simp only [List.length_cons, List.foldl_cons]
      omega
  rw [← String.length_toList]
  exact puts s.toList p

/-- A draft takes nothing from the text of a page. -/
theorem Draft.length_le_on (d : Draft) (p : Page) : p.text.length ≤ (d.on p).text.length := by
  have follows (marks : List Mark) (p : Page) :
      p.text.length ≤ (marks.foldl Page.follow p).text.length := by
    induction marks generalizing p with
    | nil => exact Nat.le_refl _
    | cons mark rest ih =>
      refine Nat.le_trans ?_ (ih (p.follow mark))
      cases mark with
      | text s => exact Nat.le_trans (Nat.le_add_right _ _) (p.length_write s)
      | gap =>
        simp only [Page.follow]
        split
        · exact Nat.le_refl _
        · exact Nat.le_trans (Nat.le_add_right _ _) (p.length_write "\n")
      | indent | unindent | enterJson | leaveJson => exact Nat.le_refl _
  exact follows d.marks p

/-- A put appends something. -/
theorem Target.length_lt_assignments (t : Target) (insideJson : Bool) (put : LoweredPut)
    (rest : List LoweredPut) (p : Page) :
    p.text.length < ((t.assignments insideJson (put :: rest)).on p).text.length := by
  obtain ⟨put, value⟩ := put
  have suffix : (t.keySuffix put.key).Unbroken := by
    unfold keySuffix
    split <;> simp
  rw [assignments, Draft.append_assoc, Draft.append_assoc, Draft.on_append suffix,
    Draft.on_append (Draft.unbroken_text _)]
  refine Nat.lt_of_lt_of_le ?_ (Draft.length_le_on _ _)
  have afterKey := Draft.length_le_on (t.keySuffix put.key) p
  have afterSign : ((t.keySuffix put.key).on p).text.length + " = ".length ≤
      ((Draft.text " = ").on ((t.keySuffix put.key).on p)).text.length :=
    Page.length_write _ _
  have isLonger : 0 < " = ".length := by decide
  omega

/-- What puts are appended to is written alike without them only if there are none. -/
theorem Target.alike_assignments_iff {t : Target} {insideJson : Bool} {d : Draft}
    (unbroken : d.Unbroken) {puts : List LoweredPut} :
    (d ++ t.assignments insideJson puts).Alike d ↔ puts = [] := by
  cases puts with
  | nil => simp [assignments, Draft.append_empty, Draft.Alike.refl]
  | cons put rest =>
    refine ⟨fun alike => ?_, fun none => by cases none⟩
    -- on an empty page the two texts differ in length
    have same := alike.on (.blank "")
    rw [Draft.on_append unbroken] at same
    have longer := t.length_lt_assignments insideJson put rest (d.on (.blank ""))
    rw [same] at longer
    exact absurd longer (Nat.lt_irrefl _)

/-! ### Chains on variables -/

/-- The scope and the type of the variable that a name stands for, if it stands for a variable of
the program. -/
def Lowering.binding? (r : Resolver) (ctx : Context) (scopes : Scopes) (name : String)
    (id : SymbolId) : Option Binding :=
  if name = "this" || (ctx.alias? id).isSome then none
  else match scopes.lookup id with
    | some binding => some binding
    | none => do
      let symbol ← r.program.symbol? id
      return ⟨← (scopes.classify symbol).toOption, ← (r.resolve symbol.ty).toOption⟩

/-- A variable whose type is that of structured objects is lowered to one. -/
theorem Lowering.variableOf_jsonObject {name : String} {scope : Scope} {type : TypeInfo}
    (isObject : type.kind = .jsonObject) (ok : variableOf name scope type s = (.ok model, s')) :
    model = .typed (.identifier name scope) .jsonObject := by
  have coerced : (Model.Expr.identifier name scope).coerce type =
      .ok (.typed (.identifier name scope) .jsonObject) := by
    rw [Model.Expr.coerce, isObject, if_neg (by decide), Model.Expr.withKind_jsonObject isObject]
  exact Except.ok.inj ((coerce_of_variableOf ok).symm.trans coerced)

theorem Lowering.identifier_of_binding? {name : String} {id : SymbolId} {binding : Binding}
    (isVariable : binding? r ctx s.scopes name id = some binding)
    (isObject : binding.type.kind = .jsonObject)
    (ok : identifier r ctx name id s = (.ok model, s')) :
    model = .typed (.identifier name binding.scope) .jsonObject := by
  unfold binding? at isVariable
  split at isVariable
  next => cases isVariable
  next plain =>
    obtain ⟨notThis, noAlias⟩ : name ≠ "this" ∧ ctx.alias? id = none := by simpa using plain
    rw [identifier_apply, if_neg notThis, noAlias] at ok
    simp only at ok
    cases bound : s.scopes.lookup id with
    | some found =>
      rw [bound] at isVariable ok
      obtain rfl := Option.some.inj isVariable
      exact variableOf_jsonObject isObject ok
    | none =>
      rw [bound] at isVariable ok
      obtain ⟨symbol, isSymbol, isVariable⟩ := Option.bind_eq_some_iff.1 isVariable
      obtain ⟨scope, isScope, isVariable⟩ := Option.bind_eq_some_iff.1 isVariable
      obtain ⟨type, isType, isVariable⟩ := Option.bind_eq_some_iff.1 isVariable
      obtain rfl := Option.some.inj isVariable
      simp only at ok
      rw [unbound_apply isSymbol (ok_of_toOption isScope) (ok_of_toOption isType)] at ok
      exact variableOf_jsonObject isObject ok

namespace Source

/-- A chain is a statement of its own and no assignment. -/
theorem Stmt.lower_chain (name : String) (id : SymbolId) (puts : List ChainedPut)
    (identSpan span : Span) :
    (Stmt.expr ((Expr.ident name id identSpan).chain puts) span).lower r ctx =
      (((Expr.ident name id identSpan).chain puts).lower r ctx >>= fun e => pure (.expr e)) := by
  rcases List.eq_nil_or_concat puts with rfl | ⟨earlier, put, rfl⟩
  · rw [Expr.chain, List.foldl_nil, lower, lowerWith]
    · rfl
    · simp
  · rw [Expr.chain, List.concat_eq_append, List.foldl_concat, ChainedPut.on, lower, lowerWith]
    · rfl
    · simp

/-- In the statement of a chain of puts on a variable, each put is an assignment to the key of what
was written for the puts before, and assigns its value with what is written for the puts after. So
it is an assignment to a key of the variable if it is the first one and to none otherwise, and it
assigns its value if it is the last one and another text otherwise. -/
theorem Expr.chain_written {t : Target} (assigns : t ≠ .kotlin) {name : String} {id : SymbolId}
    {binding : Binding} (isVariable : binding? r ctx s.scopes name id = some binding)
    (isObject : binding.type.kind = .jsonObject) {puts : List ChainedPut}
    (arePuts : ∀ put ∈ puts, put.IsPut r) {identSpan span : Span} {stmt : Model.Stmt}
    (lowers : (Stmt.expr ((Expr.ident name id identSpan).chain puts) span).lower r ctx s =
      (.ok stmt, s'))
    {insideJson : Bool} (rendered : (stmt.draft t insideJson .line).Unbroken) :
    ∃ lowered : List LoweredPut, lowered.map Prod.fst = puts ∧
      (∀ put ∈ lowered, ∃ s₁ s₂, put.1.value.lower r ctx s₁ = (.ok put.2, s₂)) ∧
      ∀ before put after, lowered = before ++ put :: after →
        let word : Draft := .text (t.variableName name binding.scope)
        let receiver := word ++ t.assignments insideJson before
        let value := put.2.draft t insideJson false
        let assigned := value ++ t.assignments insideJson after
        stmt.draft t insideJson .line =
          receiver ++ t.keySuffix put.1.key ++ .text " = " ++ assigned ++ .text t.terminator ++
            .text "\n" ∧
        (receiver.Alike word ↔ before = []) ∧ (assigned.Alike value ↔ after = []) := by
  rw [Stmt.lower_chain] at lowers
  obtain ⟨e, s₁, isChain, isStmt⟩ := ok_of_bind lowers
  obtain rfl := (ok_of_pure isStmt).1
  have isObject {e t} (ok : (Expr.ident name id identSpan).lower r ctx s = (.ok e, t)) :
      e = .typed (.identifier name binding.scope) .jsonObject := by
    rw [lower, lowerWith] at ok
    exact identifier_of_binding? isVariable isObject ok
  obtain ⟨lowered, areAll, areLowered, rfl⟩ := lower_chain arePuts isObject isChain
  refine ⟨lowered, areAll, areLowered, ?_⟩
  rintro before put after rfl word receiver value assigned
  have isDraft : (Model.Stmt.expr (.typed ((Model.Expr.identifier name binding.scope).putAll
      (before ++ put :: after)) .jsonObject)).draft t insideJson .line =
      receiver ++ t.keySuffix put.1.key ++ .text " = " ++ assigned ++ .text t.terminator ++
        .text "\n" := by
    rw [Model.Stmt.draft, Model.Expr.draft, Target.draft_putAll assigns,
      Target.assignments_append, Target.assignments, Model.Expr.draft]
    simp only [Model.Position.finish, receiver, assigned, word, value, Draft.append_assoc]
  refine ⟨isDraft, Target.alike_assignments_iff (Draft.unbroken_text _), ?_⟩
  -- the value does not break off, since the statement does not
  rw [isDraft] at rendered
  simp only [assigned, Draft.unbroken_append] at rendered
  exact Target.alike_assignments_iff rendered.1.1.2.1

/-- A put of a number under a key. -/
def numberPut (key : String) (value : Nat) : ChainedPut where
  key := key
  value := .int value
  name := "put"
  method := 3
  keyType := .declared "java.lang.String" []
  valueType := .primitive .int
  type := .declared "io.vertx.core.json.JsonObject" []

/-- `totals.put("read", 1).put("written", 2)`. -/
def tally : Expr := (Expr.ident "totals" 1).chain [numberPut "read" 1, numberPut "written" 2]

/-- A program that puts two numbers into a structured object. -/
def tallying : Program where
  unit := {
    name := "demo.App"
    methods := [{
      name := "start"
      ret := .void
      body := { stmts := [
        .local {
          name := "totals"
          sym := 1
          ty := .declared "io.vertx.core.json.JsonObject" []
          init := some (.construct (.ident "JsonObject" 2) []) },
        .expr tally] } }] }
  symbols := .ofList [
    (1, {
      name := "totals"
      kind := .localVariable
      ty := .declared "io.vertx.core.json.JsonObject" [] }),
    (2, {
      name := "JsonObject"
      kind := .type
      ty := .declared "io.vertx.core.json.JsonObject" [] })]
  methods := .ofList [(3, {
    name := "put"
    owner := .declared "io.vertx.core.json.JsonObject" []
    params := [.declared "java.lang.String" [], .primitive .int]
    ret := .declared "io.vertx.core.json.JsonObject" [] })]

theorem chain_written_tally : ∃ stmt s', (Stmt.expr tally).lower (tallying.resolver {})
      ({} : Config).context tallying.start = (.ok stmt, s') ∧
    ∃ lowered : List LoweredPut,
      lowered.map Prod.fst = [numberPut "read" 1, numberPut "written" 2] ∧
      ∀ before put after, lowered = before ++ put :: after →
        let receiver := .text "totals" ++ Target.assignments .javascript false before
        let value := put.2.draft .javascript false false
        let assigned := value ++ Target.assignments .javascript false after
        stmt.draft .javascript false .line =
          receiver ++ Target.keySuffix .javascript put.1.key ++ .text " = " ++ assigned ++
            .text ";" ++ .text "\n" ∧
        (receiver.Alike (.text "totals") ↔ before = []) ∧ (assigned.Alike value ↔ after = []) := by
  have arePuts : ∀ put ∈ [numberPut "read" 1, numberPut "written" 2],
      put.IsPut (tallying.resolver {}) :=
    List.forall_mem_cons.2 ⟨⟨rfl, rfl⟩, List.forall_mem_singleton.2 ⟨rfl, rfl⟩⟩
  have evaluated : ((Stmt.expr tally).lower (tallying.resolver {}) ({} : Config).context
      tallying.start).1.toOption.map (fun stmt => (stmt.draft .javascript false .line).fault) =
        some none := by
    decide +kernel
  obtain ⟨stmt, isStmt, rendered⟩ := exists_ok_of_map evaluated
  have lowers : (Stmt.expr tally).lower (tallying.resolver {}) ({} : Config).context
      tallying.start = (.ok stmt, _) :=
    Prod.ext isStmt rfl
  have isVariable : binding? (tallying.resolver {}) ({} : Config).context tallying.start.scopes
      "totals" 1 = some ⟨.variable, .cls ⟨"io.vertx.core.json.JsonObject", .jsonObject⟩⟩ :=
    rfl
  obtain ⟨lowered, areAll, _, written⟩ :=
    Expr.chain_written (t := .javascript) (by decide) isVariable rfl arePuts lowers rendered
  exact ⟨stmt, _, lowers, lowered, areAll, written⟩

/-- The second number is put into the first one. -/
theorem tally_misplaced : ∃ unit, tallying.lower {} = .ok unit ∧
    unit.render .javascript "  " =
      .ok "let totals = \x7b\x7d;\ntotals.read = 1.written = 2;\n" ∧
    unit.render .groovy "  " =
      .ok "def totals = [:]\ntotals[\"read\"] = 1[\"written\"] = 2\n" ∧
    unit.render .ruby "  " =
      .ok "totals = \x7b\x7d\ntotals[\"read\"] = 1[\"written\"] = 2\n" := by
  have evaluated : (tallying.lower {}).toOption.map (fun unit =>
      [Target.javascript, .groovy, .ruby].map fun t => (unit.render t "  ").toOption) =
      some [some "let totals = \x7b\x7d;\ntotals.read = 1.written = 2;\n",
        some "def totals = [:]\ntotals[\"read\"] = 1[\"written\"] = 2\n",
        some "totals = \x7b\x7d\ntotals[\"read\"] = 1[\"written\"] = 2\n"] := by
    decide +kernel
  obtain ⟨unit, lowers, found⟩ := exists_ok_of_map evaluated
  obtain ⟨javascript, others⟩ := List.cons.inj found
  obtain ⟨groovy, others⟩ := List.cons.inj others
  obtain ⟨ruby, _⟩ := List.cons.inj others
  exact ⟨unit, lowers, ok_of_toOption javascript, ok_of_toOption groovy, ok_of_toOption ruby⟩

end Source

end Polyscript
