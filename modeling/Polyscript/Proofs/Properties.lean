import Mathlib.Data.List.Nodup
import Polyscript.Model.Operation
import Polyscript.Proofs.Model.Written
import Polyscript.Proofs.Spelling.Name
import Polyscript.Proofs.Spelling.Quoting
import Polyscript.Proofs.Spelling.Written

/-!
# The keys of data objects

A data object is written as a literal whose members have keys, and a property of it is read and
set by a key as well. A key is a text between quotes or a bare word. The languages that write one
kind of key in both places agree with themselves: Ruby quotes both, and Kotlin writes both as names,
with a reserved one between backquotes that do not belong to it. JavaScript and Groovy quote the
keys of a literal and read a property by a bare word. A reserved name stands as it is between
quotes, but is changed as a word; so what a literal holds under a reserved name is not found.

## Main definitions

* `IsProperty`: the names that setters, adders and getters are for.
* `Target.memberKey`, `Target.accessKey`: the keys of a literal, and those of reading and setting.
* `Target.finds`: what a getter finds in a literal.

## Main statements

* `Target.keys_agree_iff`: when the two keys stand for the same property.
* `Unit.property_found_iff`: when a getter finds what a literal has been given.
-/

namespace Polyscript

open Draft

/-! ### Names of properties -/

namespace Model

/-- Whether a name is that of a property: a setter or a getter is for it, or an adder is for one of
its items. -/
def IsProperty (name : String) : Prop :=
  ∃ accessor, property? accessor "set" = some name ∨ property? accessor "get" = some name ∨
    property? accessor "is" = some name ∨
    ∃ item, property? accessor "add" = some item ∧ name = item ++ "s"

/-- Every word that JavaScript or Groovy reserves is the property of a setter. -/
theorem property?_of_reserved {t : Target} (isWord : t = .javascript ∨ t = .groovy) :
    ∀ name ∈ t.reserved, property? ("set" ++ name.capitalize) "set" = some name := by
  rcases isWord with rfl | rfl <;> decide +kernel

/-- The name that an accessor is for begins in lower case. -/
theorem head?_property {accessor word name : String}
    (isAccessor : property? accessor word = some name) :
    ∃ first rest, name.toList = first :: rest ∧ first ≠ '\x60' := by
  unfold property? at isAccessor
  split at isAccessor
  next =>
    split at isAccessor
    next =>
      split at isAccessor
      next upper =>
        obtain rfl := Option.some.inj isAccessor
        obtain ⟨first, rest, lower, noQuote⟩ := Text.exists_lowercase upper
        exact ⟨first, _, by rw [String.toList_ofList, lower]; rfl, noQuote⟩
      next => cases isAccessor
    next => cases isAccessor
  next => cases isAccessor

theorem IsProperty.head? {name : String} (isProperty : IsProperty name) :
    name.toList.head? ≠ some '\x60' := by
  have begins {accessor word name : String} (isAccessor : property? accessor word = some name)
      (behind : String) : (name ++ behind).toList.head? ≠ some '\x60' := by
    obtain ⟨first, rest, chars, noQuote⟩ := head?_property isAccessor
    rw [String.toList_append, chars]
    exact fun same => noQuote (Option.some.inj same)
  obtain ⟨accessor, isSetter | isGetter | isQuestion | ⟨item, isAdder, rfl⟩⟩ := isProperty
  · simpa using begins isSetter ""
  · simpa using begins isGetter ""
  · simpa using begins isQuestion ""
  · exact begins isAdder "s"

end Model

/-! ### Keys -/

/-- How a property is named: by a text between quotes or by a bare word. -/
inductive Key where
  | quoted (inside : String)
  | bare (word : String)

/-- The text of a key. -/
def Key.text : Key → String
  | .quoted inside => "\"" ++ inside ++ "\""
  | .bare word => word

namespace Target

variable {t : Target} {name : String}

/-- A word without the backquotes around it. -/
def unticked (word : String) : String :=
  match word.toList with
  | '\x60' :: rest => if rest.getLast? = some '\x60' then String.ofList rest.dropLast else word
  | _ => word

/-- The property that a key stands for. In Kotlin the backquotes around a word do not belong to
it. -/
def named? (t : Target) : Key → Option String
  | .quoted inside => t.unquoted? inside
  | .bare word => some (if t = .kotlin then unticked word else word)

/-- The key of a member in the literal of a data object. -/
def memberKey (t : Target) (name : String) : Key :=
  match t with
  | .kotlin => .bare (t.identifier name)
  | _ => .quoted (t.escape name)

/-- The key by which a property of a data object is read or set. -/
def accessKey (t : Target) (name : String) : Key :=
  match t with
  | .ruby => .quoted (t.escape name)
  | _ => .bare (t.identifier name)

theorem unticked_of_head? {word : String} (begins : word.toList.head? ≠ some '\x60') :
    unticked word = word := by
  unfold unticked
  split
  next same =>
    rw [same] at begins
    exact absurd rfl begins
  next => rfl

/-- The key of a member stands for the property. -/
theorem named?_memberKey (t : Target) (begins : name.toList.head? ≠ some '\x60') :
    t.named? (t.memberKey name) = some name := by
  cases t with
  | kotlin =>
    rw [memberKey, named?, if_pos rfl]
    by_cases reserved : name ∈ Target.kotlin.reserved
    · -- the backquotes that are put around a reserved name are taken off again
      have word : identifier .kotlin name = "\x60" ++ name ++ "\x60" := by
        simp [identifier, reserved]
      rw [word]
      simp [unticked]
    · rw [identifier_of_notMem reserved, unticked_of_head? begins]
  | javascript | groovy | ruby => exact unquoted?_escape _ name

/-- The two keys stand for the same property unless a language quotes one of them and changes the
other. -/
theorem keys_agree_iff (t : Target) (name : String) :
    t.named? (t.memberKey name) = t.named? (t.accessKey name) ↔
      ¬((t = .javascript ∨ t = .groovy) ∧ name ∈ t.reserved) := by
  have changed (notKotlin : t ≠ .kotlin) (same : t.memberKey name = .quoted (t.escape name))
      (bare : t.accessKey name = .bare (t.identifier name)) :
      t.named? (t.memberKey name) = t.named? (t.accessKey name) ↔ name ∉ t.reserved := by
    rw [same, bare, named?, named?, if_neg notKotlin, unquoted?_escape, Option.some_inj, eq_comm,
      identifier_eq_self_iff]
  cases t with
  | javascript => rw [changed (by decide) rfl rfl]; simp
  | groovy => rw [changed (by decide) rfl rfl]; simp
  | ruby | kotlin => exact iff_of_true rfl (by simp)

/-! ### Keys in drafts -/

/-- The sign between a key of a literal and its value. -/
def memberSign : Target → String
  | .javascript => " : "
  | .groovy => ":"
  | .ruby => " => "
  | .kotlin => " = "

/-- The sign in front of the key by which a property is read. -/
def accessSign : Target → String
  | .ruby => "["
  | _ => "."

variable {d : Draft} {members : List (String × Draft)}

theorem infix_memberLines (opening closing : String) (ds : List Draft) :
    (joined ",\n" ds).marks <:+: (memberLines opening closing ds).marks := by
  have lines := (infix_append_left (unbroken_mark .indent) (joined ",\n" ds)).trans
    (infix_append_left (d := opening ++ "\n") (by simp) _)
  exact ((lines.trans (infix_append_right _ _)).trans (infix_append_right _ "\n")).trans
    (infix_append_right _ closing)

/-- The draft of a member with its key. -/
def member (t : Target) (m : String × Draft) : Draft :=
  (t.memberKey m.1).text ++ t.memberSign ++ m.2

/-- The members of a literal stand in it one behind the other. -/
theorem infix_members (type : ClassType) (some : members.isEmpty = false) :
    (joined ",\n" (members.map t.member)).marks <:+: (t.dataObject type members).marks := by
  cases t with
  | kotlin =>
    simp only [dataObject, some]
    have inner := infix_indented (joined ",\n" (members.map Target.kotlin.member))
    exact (inner.trans (infix_append_left (by simp) _)).trans (infix_append_right _ ")")
  | javascript | ruby =>
    simp only [dataObject, mapLiteral, some]
    exact infix_memberLines "\x7b" "\x7d" _
  | groovy =>
    simp only [dataObject, mapLiteral, some]
    exact infix_memberLines "[" "]" _

/-- A member of a literal is written as its key, the sign and its value. -/
theorem infix_dataObject (type : ClassType) (unbroken : (t.dataObject type members).Unbroken)
    (mem : (name, d) ∈ members) :
    .text (t.memberKey name).text :: .text t.memberSign :: d.marks <:+:
      (t.dataObject type members).marks := by
  have some : members.isEmpty = false := List.isEmpty_eq_false_iff_exists_mem.2 ⟨_, mem⟩
  have values := (unbroken_dataObject type).1 unbroken
  have all : (joined ",\n" (members.map t.member)).Unbroken := by
    rw [unbroken_joined, List.forall_mem_map]
    intro m isMember
    simp [member, values m isMember]
  have own : (t.member (name, d)).marks <:+: (joined ",\n" (members.map t.member)).marks :=
    infix_joined ",\n" all (List.mem_map_of_mem mem)
  exact own.trans (infix_members type some)

/-- A property is written as the object, a sign and its key. -/
theorem infix_property (object : d.Unbroken) (name : String) :
    [.text t.accessSign, .text (t.accessKey name).text] <:+: (t.property d name).marks := by
  have word := infix_text object "." (Draft.text (t.identifier name))
  have index := infix_text object "[" (Draft.text (t.quote name))
  cases t with
  | ruby => exact index.trans (infix_append_right _ "]")
  | javascript | groovy | kotlin => exact word

end Target

namespace Model

variable {t : Target} {indent text : String} {unit : Unit}

/-! ### Keys in programs -/

/-- The property that an access reads or sets. -/
def Access.propertyName? : Access → Option String
  | .dataObjectGet _ name | .dataObjectSet _ name _ => some name
  | _ => none

theorem Expr.infix_dataObject {type : ClassType} {members : List Member}
    {inside isStatement : Bool}
    (unbroken : ((Expr.dataObject type members).draft t inside isStatement).Unbroken) {m : Member}
    (isMember : m ∈ members) :
    .text (t.memberKey m.name).text :: .text t.memberSign :: (m.draft t inside).marks <:+:
      ((Expr.dataObject type members).draft t inside isStatement).marks := by
  have mem : (m.name, m.draft t inside) ∈ Member.drafts t inside members := by
    rw [Member.drafts_eq]
    exact List.mem_map_of_mem isMember
  exact Target.infix_dataObject type unbroken mem

theorem Access.infix_property {access : Access} {name : String}
    (names : access.propertyName? = some name) {inside : Bool}
    (unbroken : (access.draft t inside).Unbroken) :
    [.text t.accessSign, .text (t.accessKey name).text] <:+: (access.draft t inside).marks := by
  cases access with
  | dataObjectGet object own =>
    obtain rfl := Option.some.inj names
    rw [Access.draft, Target.unbroken_property] at unbroken
    exact Target.infix_property unbroken own
  | dataObjectSet object own value =>
    obtain rfl := Option.some.inj names
    rw [Access.draft, Target.unbroken_assignment, Target.unbroken_property] at unbroken
    have key := Target.infix_property (t := t) unbroken.1 own
    exact (key.trans (infix_append_right _ " = ")).trans (infix_append_right _ _)
  | _ => cases names

/-- Whether marks are written in a program for a part of it. -/
def Unit.WritesFor (t : Target) (unit : Unit) (p : Part) (marks : List Mark) : Prop :=
  ∃ d, p.Drafts t d ∧ d.marks <:+: (unit.draft t).marks ∧ marks <:+: d.marks

/-- A data object that is rendered has a key for each of its members. -/
theorem Unit.writes_member (ok : unit.render t indent = .ok text) {isStatement : Bool}
    {type : ClassType} {members : List Member}
    (literal : unit.Renders (.expr isStatement (.dataObject type members))) {m : Member}
    (isMember : m ∈ members) :
    unit.WritesFor t (.expr isStatement (.dataObject type members))
      [.text (t.memberKey m.name).text, .text t.memberSign] := by
  obtain ⟨d, isDraft, unbroken, within⟩ := exists_draft ok literal rfl
  obtain ⟨inside, rfl⟩ := Part.drafts_expr.1 isDraft
  have whole := Expr.infix_dataObject unbroken isMember
  exact ⟨_, isDraft, within, (List.prefix_append [_, _] _).isInfix.trans whole⟩

/-- A property that is read or set is written by its key. -/
theorem Unit.writes_access (ok : unit.render t indent = .ok text) {isStatement : Bool}
    {access : Access} (reads : unit.Renders (.expr isStatement (.access access))) {name : String}
    (names : access.propertyName? = some name) :
    unit.WritesFor t (.expr isStatement (.access access))
      [.text t.accessSign, .text (t.accessKey name).text] := by
  obtain ⟨d, isDraft, unbroken, within⟩ := exists_draft ok reads rfl
  obtain ⟨inside, rfl⟩ := Part.drafts_expr.1 isDraft
  exact ⟨_, isDraft, within, Access.infix_property names unbroken⟩

/-- What a getter finds in a literal: the first member under the key that it reads. -/
def finds (t : Target) (members : List Member) (name : String) : Option Member :=
  members.find? fun m => t.named? (t.memberKey m.name) = t.named? (t.accessKey name)

theorem agree_of_finds {members : List Member} {name : String} {m : Member}
    (found : finds t members name = some m) :
    m ∈ members ∧ t.named? (t.memberKey m.name) = t.named? (t.accessKey name) := by
  unfold finds at found
  exact ⟨List.mem_of_find?_eq_some found, by simpa using List.find?_some found⟩

/-- Of members with names that differ a getter finds the one of its own property if the keys
agree. Otherwise it finds none or another one. -/
theorem finds_iff {members : List Member} (differ : (members.map Member.name).Nodup)
    (properties : ∀ m ∈ members, IsProperty m.name) {m : Member} (isMember : m ∈ members) :
    finds t members m.name = some m ↔
      t.named? (t.memberKey m.name) = t.named? (t.accessKey m.name) := by
  constructor
  · intro found
    exact (agree_of_finds found).2
  · intro agree
    cases found : finds t members m.name with
    | none =>
      -- the member itself has the key, so something is found
      have misses := List.find?_eq_none.1 found m isMember
      exact absurd (decide_eq_true agree) misses
    | some other =>
      -- the key of a member is that of no other name
      obtain ⟨isOther, same⟩ := agree_of_finds found
      rw [← agree, t.named?_memberKey (properties other isOther).head?,
        t.named?_memberKey (properties m isMember).head?] at same
      rw [List.inj_on_of_nodup_map differ isOther isMember (Option.some.inj same)]

/-- Take the literal of a data object and an access to the property of one of its members that are
rendered in the same program. Each writes its key. They stand for the same property exactly if the
language is neither JavaScript nor Groovy or does not reserve the name. The key of the literal
always stands for the property itself, so in just these cases a getter finds the member. -/
theorem Unit.property_found_iff (ok : unit.render t indent = .ok text) {type : ClassType}
    {members : List Member} {isStatement isStatement' : Bool}
    (literal : unit.Renders (.expr isStatement (.dataObject type members))) {m : Member}
    (isMember : m ∈ members) {access : Access}
    (reads : unit.Renders (.expr isStatement' (.access access)))
    (names : access.propertyName? = some m.name) :
    unit.WritesFor t (.expr isStatement (.dataObject type members))
        [.text (t.memberKey m.name).text, .text t.memberSign] ∧
      unit.WritesFor t (.expr isStatement' (.access access))
        [.text t.accessSign, .text (t.accessKey m.name).text] ∧
      (t.named? (t.memberKey m.name) = t.named? (t.accessKey m.name) ↔
        ¬((t = .javascript ∨ t = .groovy) ∧ m.name ∈ t.reserved)) ∧
      (IsProperty m.name → t.named? (t.memberKey m.name) = some m.name) ∧
      ((members.map Member.name).Nodup → (∀ m ∈ members, IsProperty m.name) →
        (finds t members m.name = some m ↔
          ¬((t = .javascript ∨ t = .groovy) ∧ m.name ∈ t.reserved))) :=
  ⟨writes_member ok literal isMember, writes_access ok reads names, t.keys_agree_iff m.name,
    fun isProperty => t.named?_memberKey isProperty.head?,
    fun differ properties => (finds_iff differ properties isMember).trans (t.keys_agree_iff m.name)⟩

/-- The type of a data object. -/
def filterType : ClassType := ⟨"demo.Filter", .dataObject⟩

/-- The member that a setter puts. -/
def inMember : Member := .single "in" (.literal (.int "1"))

/-- The property that a getter reads. -/
def readIn : Access := .dataObjectGet (.identifier "filter" .variable) "in"

/-- A program that sets a property of a data object and prints it. -/
def filterProgram : Unit where
  name := "demo.App"
  fields := []
  methods := []
  entry := .ofStmts [
    .varDecl .variable (.cls filterType) "filter" (some (.dataObject filterType [inMember])),
    .expr (.consolePrint .out (.access readIn))]

/-- What the program is written as. -/
def filterText : Target → String
  | .javascript =>
    "let filter = \x7b\n  \"in\" : 1\n\x7d;\nconsole.log(filter.in_);\n"
  | .groovy => "def filter = [\n  \"in\":1\n]\nprintln(filter.in_)\n"
  | .ruby => "filter = \x7b\n  \"in\" => 1\n\x7d\nputs filter[\"in\"]\n"
  | .kotlin =>
    "var filter = Filter(\n  \x60in\x60 = 1)\nprintln(filter.\x60in\x60)\n"

theorem filterProgram_ok (t : Target) : filterProgram.render t "  " = .ok (filterText t) := by
  cases t <;> decide +kernel

theorem isProperty_in : IsProperty "in" :=
  ⟨"setIn", .inl (property?_of_reserved (.inl rfl) "in" (by decide))⟩

theorem filterProgram_renders_literal :
    filterProgram.Renders (.operand (.dataObject filterType [inMember])) :=
  ⟨.block filterProgram.entry, List.mem_singleton_self _,
    .head List.mem_cons_self (.head List.mem_cons_self .refl)⟩

theorem filterProgram_renders_readIn : filterProgram.Renders (.operand (.access readIn)) :=
  ⟨.block filterProgram.entry, List.mem_singleton_self _,
    .head (List.mem_cons_of_mem _ List.mem_cons_self)
      (.head List.mem_cons_self (.head List.mem_cons_self .refl))⟩

/-- Ruby and Kotlin find the property, JavaScript and Groovy do not. -/
theorem Unit.property_found_iff_filter :
    (∀ t, filterProgram.render t "  " = .ok (filterText t)) ∧
      ∀ t, finds t [inMember] "in" = some inMember ↔ t = .ruby ∨ t = .kotlin := by
  refine ⟨filterProgram_ok, fun t => ?_⟩
  obtain ⟨_, _, _, _, found⟩ := property_found_iff (filterProgram_ok t)
    filterProgram_renders_literal (List.mem_singleton_self _) filterProgram_renders_readIn rfl
  refine (found (List.nodup_singleton _) (List.forall_mem_singleton.2 isProperty_in)).trans ?_
  cases t <;> decide

/-- In JavaScript and Groovy the property is written under its name and read under another. -/
theorem Unit.property_lost :
    property? "setIn" "set" = some "in" ∧ property? "getIn" "get" = some "in" ∧
      ∀ t ∈ [Target.javascript, .groovy],
        filterProgram.render t "  " = .ok (filterText t) ∧
        t.named? (t.memberKey "in") = some "in" ∧ t.named? (t.accessKey "in") = some "in_" ∧
        finds t [inMember] "in" = none := by
  refine ⟨by decide +kernel, by decide +kernel, fun t isTarget => ⟨filterProgram_ok t, ?_⟩⟩
  have literal : t.named? (t.memberKey "in") = some "in" := t.named?_memberKey isProperty_in.head?
  have access : t.named? (t.accessKey "in") = some "in_" := by
    simp only [List.mem_cons, List.not_mem_nil, or_false] at isTarget
    rcases isTarget with rfl | rfl <;> decide +kernel
  refine ⟨literal, access, List.find?_eq_none.2 ?_⟩
  rw [List.forall_mem_singleton, access]
  simp [inMember, Member.name, literal]

end Model

end Polyscript
