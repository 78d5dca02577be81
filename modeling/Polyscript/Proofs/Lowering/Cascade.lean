import Mathlib.Data.List.Forall2
import Polyscript.Proofs.Lowering.Loop
import Polyscript.Proofs.Lowering.Memo

/-!
# Cascades of conditions

A conditional whose other statement is a conditional again goes on as a cascade. It is nested in
the source and becomes one chain in the model, with a branch for each of its links. Flattening it
changes nothing: the chain evaluates the conditions that the nested statement evaluates, in the
same order, and selects the same body, whatever the conditions are worth and whatever evaluating
them does. A cascade that is not lowered fails with the first of its parts that fails, in the order
of the source.

## Main definitions

* `Source.Stmt.links`, `Source.Stmt.last?`: the links of a cascade, and the statement that ends it.
* `Choice`: how a choice between statements comes out.
* `Source.Stmt.choose`, `Model.choose`: the choice of a nested statement and that of a chain.
* `Source.Stmt.Corresponds`: conditions and statements of a cascade and a chain that are related,
  each one to the one at the same place.
* `Source.FailsFirst`: the first of several trees that fails.

## Main statement

* `Source.Stmt.lower_cascade`: a cascade is lowered link by link, keeps what it chooses, and fails
  with the first part that fails.
-/

namespace Polyscript

open Lowering Step

/-! ### Choices -/

/-- What conditions are worth: none if something is thrown. Evaluating one may change the state, and
what it is worth may depend on it, so it may be worth something else each time. -/
abbrev Testing (Cond State : Type) : Type := Cond → State → Option Bool × State

/-- How a choice between statements comes out. -/
structure Choice (Cond Body State : Type) where
  /-- The conditions that have been evaluated, the first one first. -/
  evaluated : List Cond
  /-- The statement that is selected, if there is one for the case; none if something has been
  thrown. -/
  selected : Option (Option Body)
  state : State

namespace Choice

variable {Cond Cond' Body Body' State : Type}

/-- The choice of a statement without any condition. -/
def settled (body : Option Body) (s : State) : Choice Cond Body State := ⟨[], some body, s⟩

/-- The choice between a statement for the case that a condition holds and what is chosen
otherwise. -/
def between (test : Testing Cond State) (cond : Cond) (body : Body)
    (otherwise : State → Choice Cond Body State) (s : State) : Choice Cond Body State :=
  match test cond s with
  | (some true, t) => ⟨[cond], some (some body), t⟩
  | (some false, t) => { otherwise t with evaluated := cond :: (otherwise t).evaluated }
  | (none, t) => ⟨[cond], none, t⟩

/-- Whether two choices come out alike: corresponding conditions have been evaluated in the same
order, corresponding statements are selected, and the states are the same. -/
structure Matches (C : Cond → Cond' → Prop) (B : Body → Body' → Prop)
    (choice : Choice Cond Body State) (choice' : Choice Cond' Body' State) : Prop where
  evaluated : List.Forall₂ C choice.evaluated choice'.evaluated
  selected : Option.Rel (Option.Rel B) choice.selected choice'.selected
  state : choice.state = choice'.state

variable {C : Cond → Cond' → Prop} {B : Body → Body' → Prop}

theorem matches_settled {body : Option Body} {body' : Option Body'}
    (bodies : Option.Rel B body body') (s : State) :
    (settled body s).Matches C B (settled body' s) :=
  ⟨.nil, .some bodies, rfl⟩

/-- Choices come out alike if they do after a first condition that is worth the same. -/
theorem matches_between {test : Testing Cond State} {test' : Testing Cond' State}
    {cond : Cond} {cond' : Cond'} {body : Body} {body' : Body'}
    {otherwise : State → Choice Cond Body State} {otherwise' : State → Choice Cond' Body' State}
    (same : test cond = test' cond') (conds : C cond cond') (bodies : B body body')
    (others : ∀ t, (otherwise t).Matches C B (otherwise' t)) (s : State) :
    (between test cond body otherwise s).Matches C B
      (between test' cond' body' otherwise' s) := by
  unfold between
  rw [same]
  obtain ⟨_ | _ | _, t⟩ := test' cond' s
  · exact ⟨.cons conds .nil, .none, rfl⟩
  · obtain ⟨evaluated, selected, state⟩ := others t
    exact ⟨.cons conds evaluated, selected, state⟩
  · exact ⟨.cons conds .nil, .some (.some bodies), rfl⟩

end Choice

namespace Model

/-- The choice of a chain: the body of the first branch whose condition holds. -/
def choose {State : Type} (test : Testing Expr State) :
    List Branch → Option Stmt → State → Choice Expr Stmt State
  | [], otherwise => .settled otherwise
  | branch :: rest, otherwise => .between test branch.cond branch.body (choose test rest otherwise)

end Model

namespace Source

/-- A link of a cascade: a condition with the statement that it guards. -/
structure Link where
  cond : Expr
  body : Stmt

namespace Stmt

/-- The links of a cascade, the first one first. A conditional has at least one, and a statement
that is no conditional has none. -/
def links : Stmt → List Link
  | .conditional cond yes none _ => [⟨cond, yes⟩]
  | .conditional cond yes (some no) _ => ⟨cond, yes⟩ :: no.links
  | _ => []

/-- The statement with which a cascade ends, if it ends with one. -/
def last? : Stmt → Option Stmt
  | .conditional _ _ none _ => none
  | .conditional _ _ (some no) _ => no.last?
  | stmt => some stmt

/-- The choice of a nested statement. A statement that is no conditional is its own choice. -/
def choose {State : Type} (test : Testing Expr State) :
    Stmt → State → Choice Expr Stmt State
  | .conditional cond yes none _ => .between test cond yes (.settled none)
  | .conditional cond yes (some no) _ => .between test cond yes (no.choose test)
  | stmt => .settled (some stmt)

/-- The parts of a cascade in the order of the source: the condition and the body of each link, and
the statement at the end. -/
def parts (stmt : Stmt) : List Piece :=
  stmt.links.flatMap (fun link => [.expr link.cond, .stmt link.body]) ++
    stmt.last?.toList.map .stmt

end Stmt

end Source

/-! ### Results and failures of steps -/

namespace Step

variable {α β : Type} {step : Step α} {s t : Progress} {cause : Unsupported}

/-- Whether all results of a step have a property. -/
def Gives (P : α → Prop) (step : Step α) : Prop := ∀ s a t, step s = (.ok a, t) → P a

theorem gives_pure {P : α → Prop} {a : α} (holds : P a) : (pure a : Step α).Gives P := by
  intro s b t ok
  obtain ⟨rfl, _⟩ := ok_of_pure ok
  exact holds

theorem gives_fail {P : α → Prop} : (fail cause : Step α).Gives P := by
  intro s a t ok
  cases ok

theorem gives_bind {P : β → Prop} {next : α → Step β} (last : ∀ a, (next a).Gives P) :
    (step >>= next).Gives P := by
  intro s b t ok
  obtain ⟨a, s', _, ok⟩ := ok_of_bind ok
  exact last a s' b t ok

theorem bind_congr_of_gives {P : α → Prop} {f g : α → Step β} (gives : step.Gives P)
    (same : ∀ a, P a → f a = g a) : step >>= f = step >>= g := by
  funext s
  cases outcome : step s with
  | mk result s' =>
    cases result with
    | ok a => rw [bind_of_ok outcome, bind_of_ok outcome, same a (gives s a s' outcome)]
    | error cause => rw [bind_of_error outcome, bind_of_error outcome]

/-- The results of steps one after the other are results of each one. -/
theorem forall₂_of_mapM {f : α → Step β} {as : List α} {bs : List β}
    (ok : as.mapM f s = (.ok bs, t)) :
    List.Forall₂ (fun a b => ∃ s t, f a s = (.ok b, t)) as bs := by
  induction as generalizing bs s t with
  | nil =>
    rw [List.mapM_nil] at ok
    obtain ⟨rfl, _⟩ := ok_of_pure ok
    exact .nil
  | cons a rest ih =>
    rw [List.mapM_cons] at ok
    obtain ⟨b, s', okFirst, ok⟩ := ok_of_bind ok
    obtain ⟨bs, t', okRest, made⟩ := ok_of_bind ok
    obtain ⟨rfl, _⟩ := ok_of_pure made
    exact .cons ⟨s, s', okFirst⟩ (ih okRest)

/-- Steps fail if the first one fails, or if what follows it does. -/
theorem error_of_bind_iff {next : α → Step β} : (step >>= next) s = (.error cause, t) ↔
    step s = (.error cause, t) ∨ ∃ a s', step s = (.ok a, s') ∧ next a s' = (.error cause, t) := by
  cases outcome : step s with
  | mk result s' =>
    cases result with
    | ok a =>
      rw [bind_of_ok outcome]
      constructor
      · exact fun failed => .inr ⟨a, s', rfl, failed⟩
      · rintro (failed | ⟨_, _, ok, failed⟩)
        · cases failed
        · cases ok
          exact failed
    | error cause' =>
      rw [bind_of_error outcome]
      constructor
      · exact fun failed => .inl (by cases failed; rfl)
      · rintro (failed | ⟨_, _, ok, _⟩)
        · cases failed
          rfl
        · cases ok

theorem not_error_of_pure {a : α} : (pure a : Step α) s ≠ (.error cause, t) := by
  intro failed
  cases failed

/-- What is made of a result does not fail. -/
theorem error_of_map_iff {f : α → β} :
    (do return f (← step)) s = (.error cause, t) ↔ step s = (.error cause, t) := by
  rw [error_of_bind_iff, or_iff_left]
  rintro ⟨_, _, _, failed⟩
  exact not_error_of_pure failed

end Step

namespace Source

variable {r : Resolver} {ctx : Context} {s t : Progress} {cause : Unsupported}

/-- Trees are lowered one after the other, and one of them is the first that fails. -/
inductive FailsFirst (r : Resolver) (ctx : Context) :
    List Piece → Progress → Unsupported → Progress → Prop where
  | here {piece : Piece} {rest : List Piece} {s t : Progress} {cause : Unsupported}
    (failed : piece.lowerWith (identifier r) r ctx s = (.error cause, t)) :
    FailsFirst r ctx (piece :: rest) s cause t
  | later {piece : Piece} {rest : List Piece} {s s' t : Progress} {model : Model.Piece}
    {cause : Unsupported} (lowered : piece.lowerWith (identifier r) r ctx s = (.ok model, s'))
    (failed : FailsFirst r ctx rest s' cause t) : FailsFirst r ctx (piece :: rest) s cause t

/-- Whether a tree is lowered to a model in some state. -/
def Piece.LowersTo (r : Resolver) (ctx : Context) (piece : Piece) (model : Model.Piece) : Prop :=
  ∃ s t, piece.lowerWith (identifier r) r ctx s = (.ok model, t)

theorem Piece.LowersTo.of_ok {α : Type} {piece : Piece} {step : Step α} {f : α → Model.Piece}
    (lowers : piece.lowerWith (identifier r) r ctx = do return f (← step)) {a : α}
    (ok : step s = (.ok a, t)) : piece.LowersTo r ctx (f a) :=
  ⟨s, t, by rw [lowers, bind_of_ok ok, pure_apply]⟩

theorem not_failsFirst_nil : ¬FailsFirst r ctx [] s cause t := by
  intro fails
  cases fails

/-- A step that lowers a first tree, and others after it, fails with the first tree that fails. -/
theorem error_iff_failsFirst_cons {α β : Type} {piece : Piece} {rest : List Piece} {step : Step α}
    {next : α → Step β} {f : α → Model.Piece}
    (lowers : piece.lowerWith (identifier r) r ctx = do return f (← step))
    (others : ∀ a s', next a s' = (.error cause, t) ↔ FailsFirst r ctx rest s' cause t) :
    (step >>= next) s = (.error cause, t) ↔ FailsFirst r ctx (piece :: rest) s cause t := by
  rw [error_of_bind_iff]
  constructor
  · rintro (failed | ⟨a, s', ok, failed⟩)
    · exact .here (by rw [lowers, error_of_map_iff, failed])
    · exact .later (by rw [lowers, bind_of_ok ok, pure_apply]) ((others a s').1 failed)
  · intro fails
    cases fails with
    | here failed =>
      rw [lowers, error_of_map_iff] at failed
      exact .inl failed
    | later lowered failed =>
      rw [lowers] at lowered
      obtain ⟨a, s', ok, made⟩ := ok_of_bind lowered
      obtain ⟨_, rfl⟩ := ok_of_pure made
      exact .inr ⟨a, s', ok, (others a s').2 failed⟩

/-! ### The lowering of a cascade -/

/-- Lower a link: its condition and then its body. -/
def Link.lower (r : Resolver) (ctx : Context) (link : Link) : Step Model.Branch := do
  let cond ← link.cond.lowerWith (identifier r) r ctx
  let body ← link.body.lowerWith (identifier r) r ctx
  return ⟨cond, body⟩

namespace Stmt

theorem gives_last_loop (init : Stmt) (cond update : Expr) (body : Stmt) (span : Span) :
    ((loop [init] (some cond) [update] body span).lowerWith (identifier r) r ctx).Gives
      fun model => ∀ first, chain first (some model) = .conditionals [first] (some model) := by
  rw [lowerWith_loop]
  split
  all_goals
    iterate 4 refine gives_bind fun _ => ?_
  · exact gives_bind fun _ => gives_pure fun _ => rfl
  · exact gives_pure fun _ => rfl

/-- A statement that is no conditional is not lowered to a chain that could be continued. -/
theorem gives_last {stmt : Stmt} (noLinks : stmt.links = []) :
    (stmt.lowerWith (identifier r) r ctx).Gives fun model =>
      ∀ first, chain first (some model) = .conditionals [first] (some model) := by
  cases stmt with
  | block block =>
    rw [lowerWith]
    exact gives_bind fun _ => gives_pure fun _ => rfl
  | «local» decl =>
    obtain ⟨name, id, ty, init, span⟩ := decl
    rw [lowerWith, VarDecl.lowerWith]
    exact gives_bind fun _ => gives_bind fun _ => gives_bind fun _ => gives_pure fun _ => rfl
  | expr e span =>
    cases e with
    | assign target value =>
      rw [lowerWith]
      exact gives_bind fun _ => gives_bind fun _ => gives_pure fun _ => rfl
    | _ =>
      simp only [lowerWith]
      exact gives_bind fun _ => gives_pure fun _ => rfl
  | conditional cond yes no => cases no <;> cases noLinks
  | loop inits cond updates body =>
    rcases inits with _ | ⟨init, _ | ⟨_, _⟩⟩
    case cons.nil =>
      rcases updates with _ | ⟨update, _ | ⟨_, _⟩⟩
      case cons.nil =>
        cases cond with
        | some cond => exact gives_last_loop init cond update body _
        | none =>
          rw [lowerWith]
          exact gives_fail
      all_goals
        simp only [lowerWith]
        exact gives_fail
    all_goals
      simp only [lowerWith]
      exact gives_fail
  | forEach var iterable body =>
    rw [lowerWith]
    exact gives_bind fun _ => gives_bind fun _ => gives_bind fun _ => gives_bind fun _ =>
      gives_pure fun _ => rfl
  | tryCatch body clauses cleanup =>
    cases cleanup with
    | some cleanup =>
      rw [lowerWith]
      exact gives_fail
    | none =>
      rcases clauses with _ | ⟨clause, _ | ⟨_, _⟩⟩
      case cons.nil =>
        rw [lowerWith]
        exact gives_bind fun _ => gives_bind fun _ => gives_pure fun _ => rfl
      all_goals
        simp only [lowerWith]
        exact gives_fail
  | throw e =>
    rw [lowerWith]
    refine gives_bind fun _ => ?_
    split
    · exact gives_pure fun _ => rfl
    · exact gives_fail
  | «return» e =>
    rw [lowerWith]
    exact gives_bind fun _ => gives_pure fun _ => rfl
  | whileLoop | «break» | «continue» =>
    rw [lowerWith]
    exact gives_fail

theorem links_ne_nil (cond : Expr) (yes : Stmt) (no : Option Stmt) (span : Span) :
    (conditional cond yes no span).links ≠ [] := by
  cases no <;> exact List.cons_ne_nil _ _

theorem links_eq_nil {stmt : Stmt}
    (noCase : ∀ cond yes span, stmt = conditional cond yes none span → False)
    (noLink : ∀ cond yes no span, stmt = conditional cond yes (some no) span → False) :
    stmt.links = [] := by
  rw [links]
  · exact noCase
  · exact noLink

/-- A statement without links is itself the end of the cascade. -/
theorem last?_eq_self {stmt : Stmt} (noLinks : stmt.links = []) : stmt.last? = some stmt := by
  cases stmt with
  | conditional cond yes no => cases no <;> cases noLinks
  | _ => rfl

theorem choose_eq_settled {stmt : Stmt} (noLinks : stmt.links = []) {State : Type}
    (test : Testing Expr State) : stmt.choose test = .settled (some stmt) := by
  cases stmt with
  | conditional cond yes no => cases no <;> cases noLinks
  | _ => rfl

/-- A cascade is lowered link by link, and then the statement at its end. -/
theorem lowerWith_of_links {stmt : Stmt} (isCascade : stmt.links ≠ []) :
    stmt.lowerWith (identifier r) r ctx = do
      let branches ← stmt.links.mapM (Link.lower r ctx)
      let otherwise ← lowerOptionWith (identifier r) r ctx stmt.last?
      return .conditionals branches otherwise := by
  induction stmt using links.induct with
  | case1 cond yes span =>
    -- a single link, with which the chain ends
    simp only [links, lowerWith, lowerOptionWith, last?, List.mapM_cons, List.mapM_nil, Link.lower,
      bind_assoc, pure_bind, chain]
  | case2 cond yes no span ih =>
    simp only [links, last?, lowerWith, lowerOptionWith, List.mapM_cons, Link.lower, bind_assoc,
      pure_bind]
    by_cases noLinks : no.links = []
    · -- the chain ends with a statement that does not continue it
      simp only [noLinks, last?_eq_self noLinks, lowerOptionWith, List.mapM_nil, bind_assoc,
        pure_bind]
      exact bind_congr fun _ => bind_congr fun _ => bind_congr_of_gives (gives_last noLinks)
        fun _ isLast => congrArg pure (isLast _)
    · rw [ih noLinks]
      simp only [bind_assoc, pure_bind, chain]
  | case3 stmt noCase noLink => exact absurd (links_eq_nil noCase noLink) isCascade

/-- A statement is not lowered just where one of its parts is the first that fails. -/
theorem lowerWith_eq_error_iff (stmt : Stmt) :
    stmt.lowerWith (identifier r) r ctx s = (.error cause, t) ↔
      FailsFirst r ctx stmt.parts s cause t := by
  -- the state in which the rest of a cascade is lowered is that after its first link
  induction stmt using links.induct generalizing s with
  | case1 cond yes span =>
    rw [lowerWith]
    refine error_iff_failsFirst_cons rfl fun _ _ => error_iff_failsFirst_cons rfl fun _ _ => ?_
    rw [error_of_map_iff, lowerOptionWith]
    exact iff_of_false not_error_of_pure not_failsFirst_nil
  | case2 cond yes no span ih =>
    rw [lowerWith]
    refine error_iff_failsFirst_cons rfl fun _ _ => error_iff_failsFirst_cons rfl fun _ _ => ?_
    rw [error_of_map_iff, lowerOptionWith, error_of_map_iff]
    exact ih
  | case3 stmt noCase noLink =>
    have noLinks := links_eq_nil noCase noLink
    rw [← bind_pure (stmt.lowerWith (identifier r) r ctx), parts, noLinks, last?_eq_self noLinks]
    exact error_iff_failsFirst_cons rfl fun _ _ => iff_of_false not_error_of_pure not_failsFirst_nil

/-! ### A cascade and its chain -/

/-- Whether the conditions and statements of a cascade and those of a chain are related, each one to
the one at the same place. -/
structure Corresponds (C : Expr → Model.Expr → Prop) (B : Stmt → Model.Stmt → Prop) (stmt : Stmt)
    (branches : List Model.Branch) (otherwise : Option Model.Stmt) : Prop where
  links : List.Forall₂ (fun link branch => C link.cond branch.cond ∧ B link.body branch.body)
    stmt.links branches
  last : Option.Rel B stmt.last? otherwise

/-- Related conditions that are worth the same lead to the same choice. -/
theorem Corresponds.choose_matches {C : Expr → Model.Expr → Prop} {B : Stmt → Model.Stmt → Prop}
    {stmt : Stmt} {branches : List Model.Branch} {otherwise : Option Model.Stmt}
    (corresponds : stmt.Corresponds C B branches otherwise) {State : Type}
    {test : Testing Expr State} {test' : Testing Model.Expr State}
    (same : ∀ cond cond', C cond cond' → test cond = test' cond') (start : State) :
    (stmt.choose test start).Matches C B (Model.choose test' branches otherwise start) := by
  obtain ⟨each, last⟩ := corresponds
  induction stmt using links.induct generalizing branches start with
  | case1 cond yes span =>
    obtain _ | ⟨⟨conds, bodies⟩, _ | _⟩ := each
    exact Choice.matches_between (same _ _ conds) conds bodies (Choice.matches_settled last) start
  | case2 cond yes no span ih =>
    obtain _ | ⟨⟨conds, bodies⟩, rest⟩ := each
    exact Choice.matches_between (same _ _ conds) conds bodies (fun t => ih t rest last) start
  | case3 stmt noCase noLink =>
    have noLinks := links_eq_nil noCase noLink
    rw [noLinks] at each
    rw [last?_eq_self noLinks] at last
    obtain _ | _ := each
    rw [choose_eq_settled noLinks]
    exact Choice.matches_settled last start

/-- The condition and the body of a link are lowered to those of its branch. -/
theorem lowersTo_of_link {link : Link} {branch : Model.Branch}
    (ok : link.lower r ctx s = (.ok branch, t)) :
    (Piece.expr link.cond).LowersTo r ctx (.expr branch.cond) ∧
      (Piece.stmt link.body).LowersTo r ctx (.stmt branch.body) := by
  obtain ⟨cond, s', okCond, ok⟩ := ok_of_bind ok
  obtain ⟨body, t', okBody, made⟩ := ok_of_bind ok
  obtain ⟨rfl, _⟩ := ok_of_pure made
  exact ⟨.of_ok (f := .expr) rfl okCond, .of_ok (f := .stmt) rfl okBody⟩

/-- A cascade that is lowered becomes a chain, and its parts those at the same places. -/
theorem corresponds_of_lowered {stmt : Stmt} (isCascade : stmt.links ≠ []) {model : Model.Stmt}
    (ok : stmt.lowerWith (identifier r) r ctx s = (.ok model, t)) :
    ∃ branches otherwise, model = .conditionals branches otherwise ∧
      stmt.Corresponds (fun cond cond' => (Piece.expr cond).LowersTo r ctx (.expr cond'))
        (fun body body' => (Piece.stmt body).LowersTo r ctx (.stmt body')) branches otherwise := by
  rw [lowerWith_of_links isCascade] at ok
  obtain ⟨branches, s', okLinks, ok⟩ := ok_of_bind ok
  obtain ⟨otherwise, t', okLast, made⟩ := ok_of_bind ok
  obtain ⟨rfl, _⟩ := ok_of_pure made
  refine ⟨branches, otherwise, rfl, ?_, ?_⟩
  · refine (forall₂_of_mapM okLinks).imp fun link branch lowered => ?_
    obtain ⟨_, _, lowered⟩ := lowered
    exact lowersTo_of_link lowered
  · cases atEnd : stmt.last? with
    | none =>
      rw [atEnd, lowerOptionWith] at okLast
      obtain ⟨rfl, _⟩ := ok_of_pure okLast
      exact .none
    | some last =>
      rw [atEnd, lowerOptionWith] at okLast
      obtain ⟨model, t'', lowered, made⟩ := ok_of_bind okLast
      obtain ⟨rfl, _⟩ := ok_of_pure made
      exact .some (.of_ok (f := .stmt) rfl lowered)

/-- A cascade is lowered link by link, and then the statement at its end. What it is lowered to is
a chain with a branch for each link, and whatever the conditions are worth and whatever evaluating
them does, the chain evaluates those that the cascade evaluates and selects the same body. The
cascade is not lowered just where one of its parts, in the order of the source, is the first that
fails, and then it fails with the cause of that part. -/
theorem lower_cascade {stmt : Stmt} (isCascade : stmt.links ≠ []) (r : Resolver) (ctx : Context)
    (s t : Progress) :
    (stmt.lowerWith (identifier r) r ctx = do
      let branches ← stmt.links.mapM (Link.lower r ctx)
      let otherwise ← lowerOptionWith (identifier r) r ctx stmt.last?
      return .conditionals branches otherwise) ∧
    (∀ model, stmt.lowerWith (identifier r) r ctx s = (.ok model, t) →
      ∃ branches otherwise, model = .conditionals branches otherwise ∧
        stmt.Corresponds (fun cond cond' => (Piece.expr cond).LowersTo r ctx (.expr cond'))
          (fun body body' => (Piece.stmt body).LowersTo r ctx (.stmt body')) branches otherwise ∧
        ∀ C B, stmt.Corresponds C B branches otherwise →
          ∀ (State : Type) (test : Testing Expr State) (test' : Testing Model.Expr State),
            (∀ cond cond', C cond cond' → test cond = test' cond') → ∀ start,
              (stmt.choose test start).Matches C B
                (Model.choose test' branches otherwise start)) ∧
    ∀ cause, stmt.lowerWith (identifier r) r ctx s = (.error cause, t) ↔
      FailsFirst r ctx stmt.parts s cause t := by
  refine ⟨lowerWith_of_links isCascade, fun model ok => ?_, fun _ => stmt.lowerWith_eq_error_iff⟩
  obtain ⟨branches, otherwise, rfl, corresponds⟩ := corresponds_of_lowered isCascade ok
  exact ⟨branches, otherwise, rfl, corresponds, fun C B corresponds State test test' same start =>
    corresponds.choose_matches same start⟩

/-- A class with a parameter `n` and a variable `level`. -/
def leveled : Program where
  unit := { name := "Leveled" }
  symbols := .ofList [
    (1, { name := "n", kind := .parameter, ty := .primitive .int }),
    (2, { name := "level", kind := .localVariable, ty := .primitive .int })]

/-- `level = value;` -/
def setLevel (value : Int) : Stmt := .expr (.assign (.ident "level" 2) (.int value))

/-- `if (n > 9) level = 2; else if (n-- > 0) level = 1; else level = 0;` -/
def levels : Stmt :=
  .conditional (.binary .greaterThan (.ident "n" 1) (.int 9)) (setLevel 2)
    (some (.conditional
      (.binary .greaterThan (.unary .postfixDecrement (.ident "n" 1)) (.int 0)) (setLevel 1)
      (some (setLevel 0))))

/-- `if (n > 9) level = 2; else if ((n += 1) > 0) break; else continue;` -/
def jumps : Stmt :=
  .conditional (.binary .greaterThan (.ident "n" 1) (.int 9)) (setLevel 2)
    (some (.conditional
      (.binary .greaterThan (.parens (.compoundAssign .plus (.ident "n" 1) (.int 1))) (.int 0))
      .break (some .continue)))

/-- Conditions of which the second one that is evaluated holds, whichever it is. -/
def second (Cond : Type) : Testing Cond Nat := fun _ count => (some (count == 1), count + 1)

/-- A cascade of which the second body is selected after two conditions, and one of which the last
three parts cannot be lowered. -/
theorem lower_cascade_levels :
    let r := leveled.resolver {}
    let ctx := ({} : Config).context
    levels.links ≠ [] ∧ jumps.links ≠ [] ∧
      levels.choose (second _) 0 =
        ⟨levels.links.map Link.cond, some (some (setLevel 1)), 2⟩ ∧
      (∃ branches otherwise t,
        levels.lowerWith (identifier r) r ctx leveled.start =
          (.ok (.conditionals branches otherwise), t) ∧
        branches.length = levels.links.length ∧
        (levels.choose (second _) 0).Matches
          (fun cond cond' => (Piece.expr cond).LowersTo r ctx (.expr cond'))
          (fun body body' => (Piece.stmt body).LowersTo r ctx (.stmt body'))
          (Model.choose (second _) branches otherwise 0)) ∧
      ∃ t, jumps.lowerWith (identifier r) r ctx leveled.start =
          (.error (.compoundAssignment .plus), t) ∧
        FailsFirst r ctx jumps.parts leveled.start (.compoundAssignment .plus) t := by
  intro r ctx
  have isCascade : levels.links ≠ [] := links_ne_nil _ _ _ _
  have isCascade' : jumps.links ≠ [] := links_ne_nil _ _ _ _
  obtain ⟨model, t, ok⟩ : ∃ model t,
    levels.lowerWith (identifier r) r ctx leveled.start = (.ok model, t) := ⟨_, _, rfl⟩
  obtain ⟨t', failed⟩ : ∃ t', jumps.lowerWith (identifier r) r ctx leveled.start =
    (.error (.compoundAssignment .plus), t') := ⟨_, rfl⟩
  obtain ⟨branches, otherwise, rfl, corresponds, chooses⟩ :=
    (lower_cascade isCascade r ctx leveled.start t).2.1 model ok
  refine ⟨isCascade, isCascade', rfl, ⟨branches, otherwise, t, ok, corresponds.links.length_eq.symm,
    chooses _ _ corresponds Nat _ _ (fun _ _ _ => rfl) 0⟩, t', failed, ?_⟩
  exact ((lower_cascade isCascade' r ctx leveled.start t').2.2 _).1 failed

end Stmt

end Source

end Polyscript
