import Mathlib.Data.List.Forall2
import Polyscript.Model.Operation

/-!
# What calls add

A call makes a new expression of its receiver and its arguments. Each argument has one place in
what is added to the receiver: it is an argument of a call still, an operand of an access, an
element or a member of a literal, or what is printed; a text that is a key has become the name of
a member, and a lambda that a map is iterated with has become the iteration. The places are in the
order of the arguments. Nothing else has a place there but a `null` that is put or added by name,
and the empty text of a line that is printed without an argument.

A member that is put into an object literal stands there once: in the place of the first member of
its name, or behind all others if no member has the name. The members before and after it stay as
they are.

What is said of the results of calls elsewhere follows from what calls add.

## Main definitions

* `Slot`, `Slot.Holds`: the places for arguments.
* `Member.TakesPlace`: a member among others, in the place of its name.
* `CallSite.Adds`: what a call adds to its receiver.
* `CallSite.Keeps`: each argument has its place in what a call adds.

## Main statement

* `Expr.keeps_of_call`: what a call adds, if it is answered.
-/

namespace Polyscript.Model

/-- A place for an argument. -/
inductive Slot where
  | value (value : Expr)
  /-- The name of a member. -/
  | key (name : String)
  /-- The iteration over a map. -/
  | iteration (keyName valueName : String) (body : LambdaBody)

/-- Whether an argument has its place in a slot. -/
inductive Slot.Holds : Slot → Expr → Prop
  | value (value : Expr) : Holds (.value value) value
  | key (name : String) : Holds (.key name) (.string name)
  | iteration (keyName valueName : String) (types : List TypeInfo) (body : LambdaBody) :
    Holds (.iteration keyName valueName body) (.lambda ⟨[keyName, valueName], types, body⟩)

namespace Access

/-- What an access is made on. -/
def container : Access → Expr
  | .jsonObjectGet object _ | .jsonObjectPut object _ _ | .jsonObjectEncode object => object
  | .jsonArrayGet array _ | .jsonArrayAdd array _ | .jsonArraySize array
  | .jsonArrayEncode array => array
  | .dataObjectGet object _ | .dataObjectSet object _ _ => object
  | .mapGet map _ | .mapPut map _ _ | .mapForEach map _ _ _ => map
  | .listGet list _ | .listAdd list _ | .listSize list => list

/-- The places of an access besides what it is made on. -/
def slots : Access → List Slot
  | .jsonObjectGet _ key => [.value key]
  | .jsonObjectPut _ key value => [.value key, .value value]
  | .jsonArrayGet _ index => [.value index]
  | .jsonArrayAdd _ value => [.value value]
  | .dataObjectSet _ _ value => [.value value]
  | .mapGet _ key => [.value key]
  | .mapPut _ key value => [.value key, .value value]
  | .mapForEach _ keyName valueName body => [.iteration keyName valueName body]
  | .listGet _ index => [.value index]
  | .listAdd _ value => [.value value]
  | .jsonObjectEncode _ | .jsonArraySize _ | .jsonArrayEncode _ | .dataObjectGet _ _
  | .listSize _ => []

end Access

/-- The value of a receiver and the kind that it has, by a type or as a literal. -/
def Expr.kinded? : Expr → Option (Expr × ValueKind)
  | .typed value kind => some (value, kind)
  | .jsonObject members => some (.jsonObject members, .jsonObject)
  | .jsonArray values => some (.jsonArray values, .jsonArray)
  | .dataObject type members => some (.dataObject type members, .dataObject type)
  | _ => none

/-- The members of a literal before and after a member has taken the place of its name there: the
first member of the name is displaced, or the new member comes last if there is none. -/
inductive Member.TakesPlace (member : Member) : Option Member → List Member → List Member → Prop
  | last (members : List Member) (isNew : ∀ m ∈ members, m.name ≠ member.name) :
    TakesPlace member none members (members ++ [member])
  | inPlace (before : List Member) (old : Member) (after : List Member)
    (first : ∀ m ∈ before, m.name ≠ member.name) (same : old.name = member.name) :
    TakesPlace member (some old) (before ++ old :: after) (before ++ member :: after)

/-- The values of a member if it is a sequence. -/
def Member.sequenced : Option Member → List Expr
  | some (.sequence _ values) => values
  | some (.single ..) | none => []

/-- What a call adds to its receiver in its result: the places that are new there. -/
inductive CallSite.Adds (site : CallSite) : Expr → Expr → List Slot → Prop
  | print (stream : Stream) (arg : Expr) :
    Adds site (.console stream) (.consolePrint stream arg) [.value arg]
  | list (values : List Expr) : Adds site (.cls .arrays) (.list values) (values.map .value)
  | put {members grown : List Member} (key : String) (value : Expr) {old : Option Member}
    (placed : (Member.single key value).TakesPlace old members grown) :
    Adds site (.jsonObject members) (.jsonObject grown) [.key key, .value value]
  | push (values : List Expr) (value : Expr) :
    Adds site (.jsonArray values) (.jsonArray (values ++ [value])) [.value value]
  | set (type : ClassType) {members grown : List Member} (name : String) (value : Expr)
    {old : Option Member} (placed : (Member.single name value).TakesPlace old members grown) :
    Adds site (.dataObject type members) (.dataObject type grown) [.value value]
  /-- The value comes behind those of the sequence that had the name, if there was one. -/
  | add (type : ClassType) {members grown : List Member} (name : String) (value : Expr)
    {old : Option Member} (placed :
      (Member.sequence name (Member.sequenced old ++ [value])).TakesPlace old members grown) :
    Adds site (.dataObject type members) (.dataObject type grown) [.value value]
  | ask (name : String) (resultType : TypeInfo) (op : AsyncOp) :
    Adds site (.asyncResult name resultType) (.asyncCall name resultType op) []
  | access {receiver value : Expr} {kind : ValueKind} (kinded : receiver.kinded? = some (value, kind))
    (access : Access) (on : access.container = value) :
    Adds site receiver (.access access) access.slots
  | invokeKinded {receiver value : Expr} {kind : ValueKind}
    (kinded : receiver.kinded? = some (value, kind)) :
    Adds site receiver (.invocation (.typed value kind) site) (site.args.map .value)
  | invoke {receiver : Expr} (incapable : receiver.hasCapabilities = false) :
    Adds site receiver (.invocation receiver site) (site.args.map .value)
  | enclosed {inner result : Expr} {slots : List Slot} (capable : inner.hasCapabilities)
    (adds : Adds site inner result slots) : Adds site (.parenthesized inner) result slots

/-- What a call of a method makes use of besides its arguments. -/
inductive Invents (method : String) (args : List Expr) : List Expr → Prop
  | nothing : Invents method args []
  | null (isNull : method = "putNull" ∨ method = "addNull") : Invents method args [.null]
  | emptyText (isLine : method = "println") (noArgs : args = []) :
    Invents method args [.string ""]

/-- Whether each argument of a call has its place in what the call adds to its receiver, in order,
and only what the call invents has a place there besides. -/
def CallSite.Keeps (site : CallSite) (receiver result : Expr) : Prop :=
  ∃ slots invented, site.Adds receiver result slots ∧
    Invents site.method.name site.args invented ∧
    List.Forall₂ Slot.Holds slots (site.args ++ invented)

namespace Member

variable {member : Member} {old : Option Member} {members grown : List Member}

/-- A member takes the same place behind members of other names. -/
theorem TakesPlace.cons {m : Member} (other : m.name ≠ member.name)
    (placed : member.TakesPlace old members grown) :
    member.TakesPlace old (m :: members) (m :: grown) := by
  cases placed with
  | last _ isNew => exact .last (m :: members) (List.forall_mem_cons.2 ⟨other, isNew⟩)
  | inPlace before old after first same =>
    exact .inPlace (m :: before) old after (List.forall_mem_cons.2 ⟨other, first⟩) same

theorem takesPlace_insertMember (member : Member) (members : List Member) :
    ∃ old, member.TakesPlace old members (insertMember member members) := by
  induction members with
  | nil => exact ⟨none, .last [] (List.forall_mem_nil _)⟩
  | cons m rest ih =>
    unfold insertMember
    by_cases same : m.name = member.name
    · rw [if_pos same]
      exact ⟨some m, .inPlace [] m rest (List.forall_mem_nil _) same⟩
    · rw [if_neg same]
      obtain ⟨old, placed⟩ := ih
      exact ⟨old, placed.cons same⟩

theorem takesPlace_appendMember (name : String) (value : Expr) (members : List Member) :
    ∃ old, (sequence name (sequenced old ++ [value])).TakesPlace old members
      (appendMember name value members) := by
  induction members with
  | nil => exact ⟨none, .last [] (List.forall_mem_nil _)⟩
  | cons m rest ih =>
    unfold appendMember
    by_cases same : m.name = name
    · rw [if_pos same]
      refine ⟨some m, ?_⟩
      cases m with
      | single key old => exact .inPlace [] _ rest (List.forall_mem_nil _) same
      | sequence key values =>
        obtain rfl : key = name := same
        exact .inPlace [] _ rest (List.forall_mem_nil _) rfl
    · rw [if_neg same]
      obtain ⟨old, placed⟩ := ih
      exact ⟨old, placed.cons same⟩

/-- A member of another name is passed over. -/
theorem appendMember_cons_of_ne {m : Member} {name : String} (other : m.name ≠ name)
    (value : Expr) (rest : List Member) :
    appendMember name value (m :: rest) = m :: appendMember name value rest :=
  if_neg other

/-- The place of a member is the only one that it can take. -/
theorem TakesPlace.eq_insertMember (placed : member.TakesPlace old members grown) :
    grown = insertMember member members := by
  cases placed with
  | last _ isNew =>
    induction members with
    | nil => rfl
    | cons m rest ih =>
      obtain ⟨other, others⟩ := List.forall_mem_cons.1 isNew
      rw [insertMember, if_neg other, ← ih others, List.cons_append]
  | inPlace before old after first same =>
    induction before with
    | nil => exact (if_pos same).symm
    | cons m rest ih =>
      obtain ⟨other, others⟩ := List.forall_mem_cons.1 first
      rw [List.cons_append, List.cons_append, insertMember, if_neg other, ← ih others]

/-- So is the place of a sequence. -/
theorem TakesPlace.eq_appendMember {name : String} {value : Expr}
    (placed : (sequence name (sequenced old ++ [value])).TakesPlace old members grown) :
    grown = appendMember name value members := by
  cases placed with
  | last _ isNew =>
    induction members with
    | nil => rfl
    | cons m rest ih =>
      obtain ⟨(other : m.name ≠ name), others⟩ := List.forall_mem_cons.1 isNew
      rw [appendMember_cons_of_ne other, ← ih others, List.cons_append]
  | inPlace before old after first same =>
    induction before with
    | nil =>
      cases old with
      | single key old => exact (if_pos same).symm
      | sequence key values =>
        obtain rfl : key = name := same
        exact (if_pos rfl).symm
    | cons m rest ih =>
      obtain ⟨(other : m.name ≠ name), others⟩ := List.forall_mem_cons.1 first
      rw [List.cons_append, List.cons_append, appendMember_cons_of_ne other, ← ih others]

end Member

/-- Values have their places as they are. -/
theorem Slot.holds_values (values : List Expr) :
    List.Forall₂ Slot.Holds (values.map .value) values := by
  induction values with
  | nil => exact .nil
  | cons value rest ih => exact .cons (.value value) ih

namespace CallSite

variable {site : CallSite} {receiver result : Expr}

/-- What is added has places for the arguments and for nothing else. -/
theorem Keeps.of_args {slots : List Slot} (adds : site.Adds receiver result slots)
    (holds : List.Forall₂ Slot.Holds slots site.args) : site.Keeps receiver result :=
  ⟨slots, [], adds, .nothing, by rwa [List.append_nil]⟩

theorem Keeps.of_values (adds : site.Adds receiver result (site.args.map .value)) :
    site.Keeps receiver result :=
  .of_args adds (Slot.holds_values site.args)

theorem Keeps.enclosed (capable : receiver.hasCapabilities) (keeps : site.Keeps receiver result) :
    site.Keeps (.parenthesized receiver) result := by
  obtain ⟨slots, invented, adds, invents, holds⟩ := keeps
  exact ⟨slots, invented, adds.enclosed capable, invents, holds⟩

end CallSite

namespace Access

/-- Whether the arguments of a call have their places in the access on a value that it stands
for. -/
def Keeps (access : Access) (value : Expr) (method : String) (args : List Expr) : Prop :=
  access.container = value ∧ ∃ invented, Invents method args invented ∧
    List.Forall₂ Slot.Holds access.slots (args ++ invented)

variable {access : Access} {value : Expr} {method : String} {args : List Expr}

theorem Keeps.of_args (on : access.container = value)
    (holds : List.Forall₂ Slot.Holds access.slots args) : access.Keeps value method args :=
  ⟨on, [], .nothing, by rwa [List.append_nil]⟩

theorem keeps_of_jsonObjectCall (ok : ofJsonObjectCall? value method args = some access) :
    access.Keeps value method args := by
  unfold ofJsonObjectCall? at ok
  split at ok
  · split at ok <;> cases ok
    exact .of_args rfl .nil
  next key =>
    split at ok
    next isNull =>
      cases ok
      exact ⟨rfl, [.null], .null (.inl isNull), Slot.holds_values [key, .null]⟩
    · split at ok <;> cases ok
      exact .of_args rfl (Slot.holds_values [key])
  next key value =>
    split at ok <;> cases ok
    exact .of_args rfl (Slot.holds_values [key, value])
  · cases ok

theorem keeps_of_jsonArrayCall (ok : ofJsonArrayCall? value method args = some access) :
    access.Keeps value method args := by
  unfold ofJsonArrayCall? at ok
  split at ok
  · split at ok
    next isNull =>
      cases ok
      exact ⟨rfl, [.null], .null (.inr isNull), Slot.holds_values [.null]⟩
    · split at ok
      · cases ok
        exact .of_args rfl .nil
      · split at ok <;> cases ok
        exact .of_args rfl .nil
  next arg =>
    split at ok
    · cases ok
      exact .of_args rfl (Slot.holds_values [arg])
    · split at ok <;> cases ok
      exact .of_args rfl (Slot.holds_values [arg])
  · cases ok

theorem keeps_of_dataObjectCall (ok : ofDataObjectCall? value method args = some access) :
    access.Keeps value method args := by
  unfold ofDataObjectCall? at ok
  split at ok
  · obtain ⟨name, _, rfl⟩ := Option.map_eq_some_iff.1 ok
    exact .of_args rfl .nil
  next arg =>
    obtain ⟨name, _, rfl⟩ := Option.map_eq_some_iff.1 ok
    exact .of_args rfl (Slot.holds_values [arg])
  · cases ok

theorem keeps_of_listCall (ok : ofListCall? value method args = some access) :
    access.Keeps value method args := by
  unfold ofListCall? at ok
  split at ok
  · split at ok <;> cases ok
    exact .of_args rfl .nil
  next arg =>
    split at ok
    · cases ok
      exact .of_args rfl (Slot.holds_values [arg])
    · split at ok <;> cases ok
      exact .of_args rfl (Slot.holds_values [arg])
  · cases ok

theorem keeps_of_mapCall (ok : ofMapCall? value method args = .ok (some access)) :
    access.Keeps value method args := by
  unfold ofMapCall? at ok
  split at ok
  next arg =>
    split at ok
    · cases ok
      exact .of_args rfl (Slot.holds_values [arg])
    · split at ok
      · split at ok
        next keyName valueName types body =>
          cases ok
          exact .of_args rfl (.cons (.iteration keyName valueName types body) .nil)
        · cases ok
      · cases ok
  next key value =>
    split at ok <;> cases ok
    exact .of_args rfl (Slot.holds_values [key, value])
  · cases ok

theorem keeps_of_call {kind : ValueKind} {site : CallSite}
    (ok : ofCall? value kind site = .ok (some access)) :
    access.Keeps value site.method.name site.args := by
  cases kind with
  | jsonObject => exact keeps_of_jsonObjectCall (Except.ok.inj ok)
  | jsonArray => exact keeps_of_jsonArrayCall (Except.ok.inj ok)
  | dataObject type => exact keeps_of_dataObjectCall (Except.ok.inj ok)
  | map => exact keeps_of_mapCall ok
  | list => exact keeps_of_listCall (Except.ok.inj ok)

end Access

namespace Expr

variable {site : CallSite} {result : Expr}

theorem keeps_of_callTyped {receiver value : Expr} {kind : ValueKind}
    (kinded : receiver.kinded? = some (value, kind)) (ok : callTyped value kind site = .ok result) :
    site.Keeps receiver result := by
  unfold callTyped at ok
  cases found : Access.ofCall? value kind site with
  | error cause =>
    rw [found] at ok
    cases ok
  | ok access =>
    rw [found] at ok
    cases access with
    | some access =>
      cases ok
      obtain ⟨on, invented, invents, holds⟩ := Access.keeps_of_call found
      exact ⟨access.slots, invented, .access kinded access on, invents, holds⟩
    | none =>
      cases ok
      exact .of_values (.invokeKinded kinded)

theorem keeps_of_callConsole {stream : Stream} (ok : callConsole stream site = .ok result) :
    site.Keeps (.console stream) result := by
  unfold callConsole at ok
  split at ok
  case h_1 isLine noArgs =>
    cases ok
    refine ⟨_, [.string ""], .print stream _, .emptyText isLine noArgs, ?_⟩
    rw [noArgs]
    exact Slot.holds_values [.string ""]
  case h_2 arg _ only | h_3 arg _ only =>
    cases ok
    exact .of_args (.print stream arg) (only ▸ Slot.holds_values [arg])
  case h_4 => cases ok

theorem keeps_of_callJsonObject {members : List Member}
    (ok : callJsonObject members site = .ok result) : site.Keeps (.jsonObject members) result := by
  unfold callJsonObject at ok
  split at ok
  case h_1 key value _ given =>
    cases ok
    -- the key has become the name of the member
    obtain ⟨old, placed⟩ := Member.takesPlace_insertMember (.single key value) members
    refine .of_args (.put key value placed) ?_
    rw [given]
    exact .cons (.key key) (Slot.holds_values [value])
  case h_2 key isNull given =>
    cases ok
    obtain ⟨old, placed⟩ := Member.takesPlace_insertMember (.single key .null) members
    refine ⟨_, [.null], .put key .null placed, .null (.inl isNull), ?_⟩
    rw [given]
    exact .cons (.key key) (Slot.holds_values [.null])
  case h_3 => exact keeps_of_callTyped rfl ok

theorem keeps_of_callJsonArray {values : List Expr}
    (ok : callJsonArray values site = .ok result) : site.Keeps (.jsonArray values) result := by
  unfold callJsonArray at ok
  split at ok
  case h_1 value _ only =>
    cases ok
    exact .of_args (.push values value) (only ▸ Slot.holds_values [value])
  case h_2 isNull noArgs =>
    cases ok
    refine ⟨_, [.null], .push values .null, .null (.inr isNull), ?_⟩
    rw [noArgs]
    exact Slot.holds_values [.null]
  case h_3 => exact keeps_of_callTyped rfl ok

theorem keeps_of_callDataObject {type : ClassType} {members : List Member}
    (ok : callDataObject type members site = .ok result) :
    site.Keeps (.dataObject type members) result := by
  unfold callDataObject at ok
  split at ok
  case h_1 value only =>
    have holds : List.Forall₂ Slot.Holds [.value value] site.args :=
      only ▸ Slot.holds_values [value]
    split at ok
    case h_1 name _ =>
      cases ok
      obtain ⟨old, placed⟩ := Member.takesPlace_insertMember (.single name value) members
      exact .of_args (.set type name value placed) holds
    case h_2 name _ _ =>
      cases ok
      obtain ⟨old, placed⟩ := Member.takesPlace_appendMember (name ++ "s") value members
      exact .of_args (.add type (name ++ "s") value placed) holds
    case h_3 => exact keeps_of_callTyped rfl ok
  case h_2 => exact keeps_of_callTyped rfl ok

/-- A call that is answered keeps its arguments. -/
theorem keeps_of_call {e : Expr} (ok : e.call site = .ok result) : site.Keeps e result := by
  fun_induction Expr.call site e with
  | case1 stream => exact keeps_of_callConsole ok
  | case2 =>
    cases ok
    exact .of_values (.list site.args)
  | case3 | case4 | case10 => cases ok
  | case5 members => exact keeps_of_callJsonObject ok
  | case6 values => exact keeps_of_callJsonArray ok
  | case7 type members => exact keeps_of_callDataObject ok
  | case8 value kind => exact keeps_of_callTyped rfl ok
  | case9 name resultType op noArgs _ =>
    cases ok
    exact .of_args (.ask name resultType op) (noArgs ▸ .nil)
  | case11 inner capable ih => exact (ih ok).enclosed capable
  | case12 inner _ =>
    cases ok
    exact .of_values (.invoke rfl)
  | case13 receiver =>
    cases ok
    -- what answers calls in its own way is among the other cases
    have incapable : receiver.hasCapabilities = false := by grind [hasCapabilities]
    exact .of_values (.invoke incapable)

end Expr

end Polyscript.Model
