import Polyscript.Proofs.Model.Making

/-!
# Coercions one after another

A coercion gives a value the kind of a type, in place of the kind that it has. So a coercion that
is made again changes nothing, and of several coercions the last one counts, unless it is one to
`void`. This takes a value that can be given a kind below the kind that it has; coercions
themselves give kinds to no others.

Literals have no kind besides their own, and are refused where a type asks for another one.

## Main definitions

* `Expr.kindFits`: the values whose kind is one that coercions can give.
* `Expr.Mismatches`: the literals that a type does not fit.

## Main statements

* `Expr.coerce_compose`: two coercions, and when a coercion fails.
* `Expr.coerceAll_last`: any number of coercions.
-/

namespace Polyscript.Model.Expr

/-- Whether the kind that an expression has, if it has one, is given to a value that coercions
give a kind to. -/
def kindFits : Expr → Bool
  | .typed value _ => value.takesUpKind
  | _ => true

/-- Whether an expression has a kind and directly below it another one. -/
def isTwiceTyped : Expr → Bool
  | .typed (.typed ..) _ => true
  | _ => false

/-- Whether an expression is a literal of another kind than a type asks for, or the literal of
another class. -/
def Mismatches (type : TypeInfo) : Expr → Prop
  | .jsonObject _ => type.kind ≠ .jsonObject
  | .jsonArray _ => type.kind ≠ .jsonArray
  | .dataObject own _ => type.cls?.map ClassType.name ≠ some own.name
  | _ => False

variable {e e' value : Expr} {type type' : TypeInfo}

/-- A value with the kind that fits has no other kind below it. -/
theorem not_isTwiceTyped_of_kindFits (fits : e.kindFits) : !e.isTwiceTyped := by
  cases e with
  | typed value kind =>
    cases value with
    | typed => cases fits
    | _ => rfl
  | _ => rfl

theorem kindFits_of_takesUpKind (takes : value.takesUpKind) : value.kindFits := by
  cases value with
  | typed => cases takes
  | _ => rfl

theorem withKind_cases (type : TypeInfo) (value : Expr) :
    value.withKind type = value ∨ ∃ kind, value.withKind type = .typed value kind := by
  unfold withKind
  split
  · exact .inr ⟨_, rfl⟩
  · exact .inl rfl

/-! ### One coercion -/

theorem coerce_of_void (isVoid : type.kind = .void) (e : Expr) : e.coerce type = .ok e := by
  unfold coerce
  rw [if_pos isVoid]

theorem coerce_typed (notVoid : type.kind ≠ .void) (value : Expr) (kind : ValueKind) :
    (typed value kind).coerce type = .ok (value.withKind type) := by
  rw [coerce, if_neg notVoid]

theorem coerce_of_takesUpKind (notVoid : type.kind ≠ .void) (takes : value.takesUpKind) :
    value.coerce type = .ok (value.withKind type) := by
  unfold coerce
  rw [if_neg notVoid]
  cases value with
  | identifier | field | invocation | parenthesized | conditional | asyncCall | access => rfl
  | _ => cases takes

/-- The value below a kind is coerced like the value alone. -/
theorem coerce_withKind (notVoid : type.kind ≠ .void) (takes : value.takesUpKind)
    (first : TypeInfo) : (value.withKind first).coerce type = .ok (value.withKind type) := by
  rcases withKind_cases first value with same | ⟨kind, isTyped⟩
  · rw [same]
    exact coerce_of_takesUpKind notVoid takes
  · rw [isTyped]
    exact coerce_typed notVoid value kind

/-- After a coercion the kind fits again. -/
theorem kindFits_of_coerce (fits : e.kindFits) (ok : e.coerce type = .ok e') : e'.kindFits := by
  have withKind_fits {value : Expr} (takes : value.takesUpKind) :
      (value.withKind type).kindFits := by
    rcases withKind_cases type value with same | ⟨kind, isTyped⟩
    · rw [same]
      exact kindFits_of_takesUpKind takes
    · rw [isTyped]
      exact takes
  rcases coerce_cases ok with rfl | ⟨takes, rfl⟩ | ⟨value, kind, rfl, rfl⟩
  · exact fits
  · exact withKind_fits takes
  · exact withKind_fits fits

/-- A coercion fails just for a literal that the type does not fit. -/
theorem coerce_error_iff (e : Expr) (type : TypeInfo) :
    (∃ cause, e.coerce type = .error cause) ↔ type.kind ≠ .void ∧ e.Mismatches type := by
  have succeeds {e' : Expr} : ¬∃ cause, (.ok e' : Except Unsupported Expr) = .error cause := by
    rintro ⟨cause, failed⟩
    cases failed
  by_cases isVoid : type.kind = .void
  · rw [coerce_of_void isVoid]
    exact iff_of_false succeeds fun both => both.1 isVoid
  unfold coerce
  rw [if_neg isVoid]
  cases e with
  | jsonObject | jsonArray | dataObject =>
    dsimp only
    split
    next fits => exact iff_of_false succeeds fun both => both.2 fits
    next differs => exact iff_of_true ⟨_, rfl⟩ ⟨isVoid, differs⟩
  | _ => exact iff_of_false succeeds And.right

/-! ### Several coercions -/

/-- What an expression is coerced to before makes no difference, unless the last coercion is one
to `void`. -/
theorem coerce_coerce (fits : e.kindFits) (ok : e.coerce type = .ok e')
    (notVoid : type'.kind ≠ .void) : e'.coerce type' = e.coerce type' := by
  -- the second coercion finds the same value, with a kind from the first one or without
  rcases coerce_cases ok with rfl | ⟨takes, rfl⟩ | ⟨value, kind, rfl, rfl⟩
  · rfl
  · rw [coerce_withKind notVoid takes, coerce_of_takesUpKind notVoid takes]
  · rw [coerce_withKind notVoid fits, coerce_typed notVoid]

/-- A coercion that is made again changes nothing. -/
theorem coerce_again (fits : e.kindFits) (ok : e.coerce type = .ok e') :
    e'.coerce type = .ok e' := by
  by_cases isVoid : type.kind = .void
  · exact coerce_of_void isVoid e'
  · rw [coerce_coerce fits ok isVoid, ok]

/-- Coercions, one after the other. -/
def coerceAll (e : Expr) (types : List TypeInfo) : Except Unsupported Expr :=
  types.foldlM (fun e type => e.coerce type) e

/-- After any coercions the kind fits, and a further one does what it does without them, unless
it is one to `void`. -/
theorem coerceAll_last {types : List TypeInfo} (fits : e.kindFits)
    (ok : e.coerceAll types = .ok e') :
    e'.kindFits ∧ ∀ last : TypeInfo, last.kind ≠ .void → e'.coerce last = e.coerce last := by
  induction types generalizing e with
  | nil =>
    obtain rfl := Except.ok.inj ok
    exact ⟨fits, fun _ _ => rfl⟩
  | cons type rest ih =>
    rw [coerceAll, List.foldlM_cons] at ok
    cases first : e.coerce type with
    | error cause =>
      rw [first] at ok
      cases ok
    | ok middle =>
      rw [first] at ok
      obtain ⟨fits', further⟩ := ih (kindFits_of_coerce fits first) ok
      refine ⟨fits', fun last notVoid => ?_⟩
      rw [further last notVoid, coerce_coerce fits first notVoid]

/-- A coercion that is made again changes nothing, and after another coercion it does what it does
without it, failing included, unless it is one to `void`. What a coercion makes has no kind directly
below another one. And it fails just for a literal of another kind, or of a data object of another
class, than a type other than `void` asks for. -/
theorem coerce_compose (e : Expr) (fits : e.kindFits) (type type' : TypeInfo) :
    (∀ e', e.coerce type = .ok e' →
      e'.coerce type = .ok e' ∧ (type'.kind ≠ .void → e'.coerce type' = e.coerce type') ∧
      !e'.isTwiceTyped) ∧
    ((∃ cause, e.coerce type = .error cause) ↔ type.kind ≠ .void ∧ e.Mismatches type) := by
  refine ⟨fun e' ok => ⟨coerce_again fits ok, coerce_coerce fits ok, ?_⟩, coerce_error_iff e type⟩
  exact not_isTwiceTyped_of_kindFits (kindFits_of_coerce fits ok)

/-- The types of structured objects and arrays. -/
def objectType : TypeInfo := .cls ⟨"io.vertx.core.json.JsonObject", .jsonObject⟩

@[inherit_doc objectType]
def arrayType : TypeInfo := .cls ⟨"io.vertx.core.json.JsonArray", .jsonArray⟩

/-- A variable that has the kind of a map is taken for an object, and then for an array. -/
theorem coerce_compose_options :
    let options := identifier "options" .variable
    (typed options .map).kindFits ∧
      (typed options .map).coerce objectType = .ok (typed options .jsonObject) ∧
      arrayType.kind ≠ .void ∧
      (typed options .jsonObject).coerce objectType = .ok (typed options .jsonObject) ∧
      (typed options .jsonObject).coerce arrayType = (typed options .map).coerce arrayType ∧
      !(typed options .jsonObject).isTwiceTyped ∧
      ((∃ cause, (typed options .map).coerce objectType = .error cause) ↔
        objectType.kind ≠ .void ∧ (typed options .map).Mismatches objectType) := by
  intro options
  obtain ⟨composed, fails⟩ := coerce_compose (typed options .map) rfl objectType arrayType
  obtain ⟨again, last, once⟩ := composed (typed options .jsonObject) rfl
  have notVoid : arrayType.kind ≠ .void := by decide
  exact ⟨rfl, rfl, notVoid, again, last notVoid, once, fails⟩

/-- The literal of an array is no object. -/
example : (jsonArray []).coerce objectType =
    .error (.literalType .array "io.vertx.core.json.JsonObject") := rfl

end Polyscript.Model.Expr
