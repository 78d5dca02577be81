import Mathlib.Data.List.Nodup
import Polyscript.Proofs.Source.RoundTrip

/-!
# The numbers of symbols

Symbols are numbered in the order in which they are entered, each by the number after the largest
one in the table of symbols. A method is entered in the table of methods as well, under the number
of its symbol; that table is not asked which numbers are taken. So a number that is given out is
always new to the table of symbols, and it is new to the table of methods as long as no method has
been entered there under a larger number than any symbol. A program that is built by entering what
it has never has such a method; a program that has been read may have one.

## Main definitions

* `Entry`: what can be entered in a program.
* `Program.numbers`, `Program.after`: the numbers that are given out for entries one after the
  other, and the program after that.
* `Program.Spares`: entries get numbers that are new to a table, and what is there stays there.
* `Program.IsBuilt`: a program that has been built from that of an empty class.

## Main statement

* `Program.spares_methods_iff`: numbers are distinct and spare the table of symbols, and they spare
  the table of methods just where none of them is already that of a method.
-/

namespace Polyscript

/-! ### The keys of a table -/

namespace Table

variable {κ α : Type} [Ord κ] {t : Table κ α} {k : κ}

/-- The keys of a table. -/
def keys (t : Table κ α) : List κ := t.entries.map Prod.fst

theorem isSome_find?_iff [Std.LawfulEqOrd κ] : (t.find? k).isSome ↔ k ∈ t.keys := by
  simp only [find?, keys, Option.isSome_map, List.find?_isSome, List.mem_map, beq_iff_eq,
    Std.compare_eq_iff_eq]

/-- No key is above the last one. -/
theorem isLE_lastKey [Std.ReflOrd κ] {last : κ} (isLast : t.lastKey? = some last)
    (isKey : k ∈ t.keys) : (compare k last).isLE := by
  obtain ⟨e, isEnd, rfl⟩ := Option.map_eq_some_iff.1 isLast
  obtain ⟨before, split⟩ := List.getLast?_eq_some_iff.1 isEnd
  obtain ⟨e', mem, rfl⟩ := List.mem_map.1 isKey
  have sorted := t.sorted
  rw [split] at sorted mem
  rcases List.mem_append.1 mem with inside | atEnd
  · have below : compare e'.1 e.1 = .lt :=
      (List.pairwise_append.1 sorted).2.2 _ inside e (List.mem_singleton_self e)
    rw [below]
    rfl
  · obtain rfl := List.mem_singleton.1 atEnd
    rw [Std.ReflOrd.compare_self]
    rfl

theorem lastKey_mem {last : κ} (isLast : t.lastKey? = some last) : last ∈ t.keys := by
  obtain ⟨e, isEnd, rfl⟩ := Option.map_eq_some_iff.1 isLast
  exact List.mem_map_of_mem (List.mem_of_getLast? isEnd)

theorem keys_of_lastKey?_none (isEmpty : t.lastKey? = none) : t.keys = [] := by
  rw [lastKey?, Option.map_eq_none_iff, List.getLast?_eq_none_iff] at isEmpty
  rw [keys, isEmpty, List.map_nil]

/-- A key above all others is the last one. -/
theorem lastKey?_insert [Std.TransOrd κ] {v : α} (above : ∀ key ∈ t.keys, compare key k = .lt) :
    (t.insert k v).lastKey? = some k := by
  have atEnd : insertEntry k v t.entries = t.entries ++ [(k, v)] :=
    insertEntry_of_above fun e mem => above e.1 (List.mem_map_of_mem mem)
  simp only [lastKey?, insert, atEnd, List.getLast?_concat, Option.map_some]

end Table

namespace Source

/-- Something that is entered in a program: a symbol, a class or a method. A class and a method get
a symbol. -/
inductive Entry where
  | symbol (name : String) (kind : SymbolKind) (ty : Ty)
  | type (info : ClassInfo)
  | method (type : MethodType)

namespace Entry

/-- Enter something; the number of its symbol is given out. -/
def enter (p : Program) : Entry → SymbolId × Program
  | .symbol name kind ty => p.declare name kind ty
  | .type info => p.declareType info
  | .method declared => p.declareMethod declared

/-- The method that is entered. -/
def method? : Entry → Option MethodType
  | .method declared => some declared
  | _ => none

theorem enter_fst (p : Program) (entry : Entry) : (entry.enter p).1 = p.nextId := by
  cases entry <;> rfl

/-- A symbol is entered under the number that is given out. -/
theorem exists_symbols_enter (p : Program) (entry : Entry) :
    ∃ symbol, (entry.enter p).2.symbols = p.symbols.insert p.nextId symbol := by
  cases entry <;> exact ⟨_, rfl⟩

theorem exists_symbol?_enter (p : Program) (entry : Entry) : ∃ symbol, ∀ id,
    (entry.enter p).2.symbol? id = if p.nextId = id then some symbol else p.symbol? id := by
  obtain ⟨symbol, inserted⟩ := entry.exists_symbols_enter p
  refine ⟨symbol, fun id => ?_⟩
  rw [Program.symbol?, inserted, Table.find?_insert]
  simp only [Std.compare_eq_iff_eq]
  rfl

/-- A method is entered under the number of its symbol, and nothing else in the table of methods. -/
theorem method?_enter (p : Program) (entry : Entry) (id : SymbolId) :
    (entry.enter p).2.method? id =
      if p.nextId = id then entry.method?.or (p.method? id) else p.method? id := by
  cases entry with
  | method declared =>
    change (p.methods.insert p.nextId declared).find? id = _
    rw [Table.find?_insert]
    simp only [Std.compare_eq_iff_eq, method?, Option.some_or]
    rfl
  | symbol | type =>
    simp only [method?, Option.none_or, ite_self]
    rfl

end Entry

namespace Program

variable {p : Program} {entries : List Entry} {id : SymbolId}

/-! ### The first free number -/

/-- The first number after those of all symbols. -/
def firstFree (p : Program) : Nat :=
  match p.symbols.lastKey? with
  | some id => id.toNat + 1
  | none => 0

/-- The next number is the first free one, as long as there is one. -/
theorem toNat_nextId (room : p.firstFree < UInt32.size) : p.nextId.toNat = p.firstFree := by
  revert room
  unfold firstFree nextId
  cases p.symbols.lastKey? with
  | none => exact fun _ => rfl
  | some last => exact fun room => Nat.mod_eq_of_lt room

theorem toNat_lt_firstFree (isSymbol : id ∈ p.symbols.keys) : id.toNat < p.firstFree := by
  unfold firstFree
  cases isLast : p.symbols.lastKey? with
  | none =>
    rw [Table.keys_of_lastKey?_none isLast] at isSymbol
    cases isSymbol
  | some last =>
    have upTo := Table.isLE_lastKey isLast isSymbol
    rw [Std.isLE_compare] at upTo
    exact Nat.lt_succ_of_le upTo

/-- An entry takes up one number. -/
theorem firstFree_enter (entry : Entry) (room : p.firstFree < UInt32.size) :
    (entry.enter p).2.firstFree = p.firstFree + 1 := by
  obtain ⟨symbol, inserted⟩ := entry.exists_symbols_enter p
  have above : ∀ id ∈ p.symbols.keys, compare id p.nextId = .lt := fun id isSymbol => by
    rw [Std.compare_eq_lt, UInt32.lt_iff_toNat_lt, toNat_nextId room]
    exact toNat_lt_firstFree isSymbol
  rw [firstFree, inserted, Table.lastKey?_insert above]
  simp only [toNat_nextId room]

/-! ### Entries one after the other -/

/-- The program after entries, one after the other. -/
def after (p : Program) : List Entry → Program
  | [] => p
  | entry :: rest => (entry.enter p).2.after rest

/-- The numbers that are given out for entries, one after the other. -/
def numbers (p : Program) : List Entry → List SymbolId
  | [] => []
  | entry :: rest => (entry.enter p).1 :: (entry.enter p).2.numbers rest

theorem after_append (p : Program) (entries more : List Entry) :
    p.after (entries ++ more) = (p.after entries).after more := by
  induction entries generalizing p with
  | nil => rfl
  | cons entry rest ih => exact ih (entry.enter p).2

theorem firstFree_after (room : p.firstFree + entries.length ≤ UInt32.size) :
    (p.after entries).firstFree = p.firstFree + entries.length := by
  induction entries generalizing p with
  | nil => rfl
  | cons entry rest ih =>
    rw [List.length_cons] at room ⊢
    have next : (entry.enter p).2.firstFree = p.firstFree + 1 := firstFree_enter entry (by omega)
    rw [after, ih (by omega), next]
    omega

/-- The numbers that are given out are those from the first free one on. -/
theorem numbers_eq (room : p.firstFree + entries.length ≤ UInt32.size) :
    (p.numbers entries).map UInt32.toNat = List.range' p.firstFree entries.length := by
  induction entries generalizing p with
  | nil => rfl
  | cons entry rest ih =>
    rw [List.length_cons] at room
    have next : (entry.enter p).2.firstFree = p.firstFree + 1 := firstFree_enter entry (by omega)
    rw [numbers, List.map_cons, ih (by omega), next, entry.enter_fst, toNat_nextId (by omega)]
    rfl

/-- What is left of the numbers in the course of entries. -/
theorem firstFree_course (room : p.firstFree + entries.length ≤ UInt32.size)
    {before rest : List Entry} (split : entries = before ++ rest) :
    (p.after before).firstFree = p.firstFree + before.length ∧
      (p.after before).firstFree + rest.length = p.firstFree + entries.length := by
  subst split
  rw [List.length_append] at room ⊢
  have free : (p.after before).firstFree = p.firstFree + before.length :=
    firstFree_after (by omega)
  exact ⟨free, by omega⟩

/-- The number that is given out in the course of entries is the one after those before it. -/
theorem toNat_number (room : p.firstFree + entries.length ≤ UInt32.size) {before rest : List Entry}
    {entry : Entry} (split : entries = before ++ entry :: rest) :
    (entry.enter (p.after before)).1.toNat = p.firstFree + before.length := by
  obtain ⟨free, left⟩ := firstFree_course room split
  rw [List.length_cons] at left
  rw [entry.enter_fst, toNat_nextId (by omega), free]

/-- Whether a number is among the next ones. -/
def IsNext (p : Program) (count : Nat) (id : SymbolId) : Prop :=
  p.firstFree ≤ id.toNat ∧ id.toNat < p.firstFree + count

instance (p : Program) (count : Nat) (id : SymbolId) : Decidable (p.IsNext count id) :=
  inferInstanceAs (Decidable (_ ∧ _))

/-- What is under other numbers than those that are given out stays there. -/
theorem find?_after (room : p.firstFree + entries.length ≤ UInt32.size)
    (other : ¬p.IsNext entries.length id) :
    (p.after entries).symbol? id = p.symbol? id ∧ (p.after entries).method? id = p.method? id := by
  -- each entry takes up the first of the next numbers and leaves the others to the rest
  induction entries generalizing p with
  | nil => exact ⟨rfl, rfl⟩
  | cons entry rest ih =>
    rw [List.length_cons] at room
    rw [IsNext, List.length_cons] at other
    have next : (entry.enter p).2.firstFree = p.firstFree + 1 := firstFree_enter entry (by omega)
    have notNow : p.nextId ≠ id := by
      rintro rfl
      rw [toNat_nextId (by omega)] at other
      omega
    have notLater : ¬(entry.enter p).2.IsNext rest.length id := by
      rw [IsNext, next]
      omega
    obtain ⟨sameSymbol, sameMethod⟩ := ih (by omega) notLater
    obtain ⟨symbol, looked⟩ := entry.exists_symbol?_enter p
    rw [after, sameSymbol, sameMethod, entry.method?_enter, looked, if_neg notNow, if_neg notNow]
    exact ⟨rfl, rfl⟩

/-! ### Tables that are spared -/

/-- Whether entries, one after the other, leave what is in a table as it is. -/
structure Spares {α : Type} (p : Program) (entries : List Entry)
    (find? : Program → SymbolId → Option α) : Prop where
  /-- Each number that is given out is new to the table. -/
  new : ∀ {before entry rest}, entries = before ++ entry :: rest →
    find? (p.after before) (entry.enter (p.after before)).1 = none
  /-- What is in the table at any time stays there. -/
  kept : ∀ {before rest}, entries = before ++ rest → ∀ {id value},
    find? (p.after before) id = some value → find? (p.after entries) id = some value

/-- In the course of entries, what is not under one of the numbers that are given out next stays
where it is. -/
theorem find?_after_rest (room : p.firstFree + entries.length ≤ UInt32.size)
    {before rest : List Entry} (split : entries = before ++ rest)
    (other : ¬(p.after before).IsNext rest.length id) :
    (p.after entries).symbol? id = (p.after before).symbol? id ∧
      (p.after entries).method? id = (p.after before).method? id := by
  have left := (firstFree_course room split).2
  rw [split, after_append]
  exact find?_after (by omega) other

/-- The table of symbols is spared. -/
theorem spares_symbols (room : p.firstFree + entries.length ≤ UInt32.size) :
    p.Spares entries symbol? where
  new {before entry rest} split := by
    have isNumber := toNat_number room split
    have free := (firstFree_course room split).1
    rw [← Option.not_isSome_iff_eq_none, symbol?, Table.isSome_find?_iff]
    intro isSymbol
    have below := toNat_lt_firstFree isSymbol
    omega
  kept {before rest} split id symbol found := by
    have below := toNat_lt_firstFree (Table.isSome_find?_iff.1 (Option.isSome_of_eq_some found))
    have other : ¬(p.after before).IsNext rest.length id := fun isNext => by
      have least := isNext.1
      omega
    rw [(find?_after_rest room split other).1]
    exact found

/-- In the course of entries, what is under one of the numbers that are given out next has been
there from the beginning. -/
theorem method?_after_of_isNext (room : p.firstFree + entries.length ≤ UInt32.size)
    {before rest : List Entry} (split : entries = before ++ rest)
    (isNext : (p.after before).IsNext rest.length id) :
    (p.after before).method? id = p.method? id ∧ p.IsNext entries.length id := by
  obtain ⟨free, left⟩ := firstFree_course room split
  obtain ⟨least, less⟩ := isNext
  have notBefore : ¬p.IsNext before.length id := fun isBefore => by
    have := isBefore.2
    omega
  exact ⟨(find?_after (by omega) notBefore).2, by omega, by omega⟩

/-- The number of an entry is among the next ones when its turn comes. -/
theorem isNext_number (room : p.firstFree + entries.length ≤ UInt32.size)
    {before rest : List Entry} {entry : Entry} (split : entries = before ++ entry :: rest) :
    (p.after before).IsNext (entry :: rest).length (entry.enter (p.after before)).1 := by
  have isNumber := toNat_number room split
  have free := (firstFree_course room split).1
  rw [IsNext, List.length_cons]
  omega

/-- The numbers that are given out next are those of entries whose turn comes. -/
theorem exists_number (room : p.firstFree + entries.length ≤ UInt32.size)
    (isNext : p.IsNext entries.length id) : ∃ before entry rest,
      entries = before ++ entry :: rest ∧ (entry.enter (p.after before)).1 = id := by
  obtain ⟨least, less⟩ := isNext
  -- the entry is as far from the first one as the number is from the first free one
  have inside : id.toNat - p.firstFree < entries.length := by omega
  have split : entries = entries.take (id.toNat - p.firstFree) ++
      entries[id.toNat - p.firstFree] :: entries.drop (id.toNat - p.firstFree + 1) := by
    rw [List.getElem_cons_drop, List.take_append_drop]
  have isNumber := toNat_number room split
  rw [List.length_take] at isNumber
  exact ⟨_, _, _, split, UInt32.toNat_inj.1 (by omega)⟩

/-- The table of methods is spared just where none of the numbers that are given out next is that
of a method. -/
theorem spares_methods_iff (room : p.firstFree + entries.length ≤ UInt32.size) :
    p.Spares entries method? ↔ ∀ id ∈ p.methods.keys, ¬p.IsNext entries.length id := by
  constructor
  · intro spared id isMethod isNext
    -- the method is still there when its number is given out
    rw [← Table.isSome_find?_iff] at isMethod
    obtain ⟨before, entry, rest, split, rfl⟩ := exists_number room isNext
    have same := (method?_after_of_isNext room split (isNext_number room split)).1
    rw [← method?, ← same, spared.new split] at isMethod
    cases isMethod
  · intro apart
    -- no entry puts a method under a number that is given out after it
    have absent {before rest : List Entry} (split : entries = before ++ rest) {id : SymbolId}
        (isNext : (p.after before).IsNext rest.length id) : (p.after before).method? id = none := by
      obtain ⟨same, isNext⟩ := method?_after_of_isNext room split isNext
      rw [same, ← Option.not_isSome_iff_eq_none, method?, Table.isSome_find?_iff]
      exact fun isMethod => apart id isMethod isNext
    constructor
    · intro before entry rest split
      exact absent split (isNext_number room split)
    · intro before rest split id method found
      have other : ¬(p.after before).IsNext rest.length id := fun isNext => by
        rw [absent split isNext] at found
        cases found
      rw [(find?_after_rest room split other).2]
      exact found

/-! ### Programs that have been built -/

/-- A program that has been built from that of an empty class. -/
inductive IsBuilt : Program → Prop where
  | named (name : String) : IsBuilt (named name)
  | withSource {p : Program} (text : String) : IsBuilt p → IsBuilt (p.withSource text)
  | addClass {p : Program} (info : ClassInfo) : IsBuilt p → IsBuilt (p.addClass info)
  | enter {p : Program} (entry : Entry) : IsBuilt p → IsBuilt (entry.enter p).2

/-- In a program that has been built each method has a symbol. -/
theorem IsBuilt.isSome_symbol? (built : p.IsBuilt) (isMethod : (p.method? id).isSome) :
    (p.symbol? id).isSome := by
  induction built with
  | named name => cases isMethod
  | withSource text _ ih => exact ih isMethod
  | addClass info _ ih => exact ih isMethod
  | @enter p entry _ ih =>
    obtain ⟨symbol, looked⟩ := entry.exists_symbol?_enter p
    rw [entry.method?_enter] at isMethod
    rw [looked]
    split at isMethod
    next same => rw [if_pos same, Option.isSome_some]
    next other =>
      rw [if_neg other]
      exact ih isMethod

/-- So none of the numbers that are given out next is that of a method. -/
theorem IsBuilt.not_isNext (built : p.IsBuilt) (count : Nat) :
    ∀ id ∈ p.methods.keys, ¬p.IsNext count id := by
  intro id isMethod isNext
  have isSymbol := built.isSome_symbol? (Table.isSome_find?_iff.2 isMethod)
  exact Nat.not_lt_of_le isNext.1 (toNat_lt_firstFree (Table.isSome_find?_iff.1 isSymbol))

/-! ### Numbers below the largest one -/

/-- The numbers of the symbols and methods of a program. -/
def ids (p : Program) : List SymbolId := p.symbols.keys ++ p.methods.keys

/-- There are numbers left for entries if all numbers of a program are small enough. -/
theorem room_of_below (few : entries.length < UInt32.size)
    (below : ∀ id ∈ p.ids, id.toNat + entries.length < UInt32.size - 1) :
    p.firstFree + entries.length ≤ UInt32.size := by
  unfold firstFree
  split
  next last isLast =>
    have small := below last (List.mem_append_left _ (Table.lastKey_mem isLast))
    omega
  next => omega

/-- Where all numbers of a program are small enough, the numbers that are given out for entries are
distinct, they are new to the table of symbols, and what is there stays there. The same is true of
the table of methods just where none of the numbers that are given out next is already that of a
method, and in a program that has been built none is. -/
theorem entries_spare (few : entries.length < UInt32.size)
    (below : ∀ id ∈ p.ids, id.toNat + entries.length < UInt32.size - 1) :
    (p.numbers entries).Nodup ∧ p.Spares entries symbol? ∧
      (p.Spares entries method? ↔ ∀ id ∈ p.methods.keys, ¬p.IsNext entries.length id) ∧
      (p.IsBuilt → p.Spares entries method?) := by
  have room := room_of_below few below
  refine ⟨?_, spares_symbols room, spares_methods_iff room, fun built =>
    (spares_methods_iff room).2 (built.not_isNext _)⟩
  have distinct : ((p.numbers entries).map UInt32.toNat).Nodup := by
    rw [numbers_eq room]
    exact List.nodup_range'
  exact distinct.of_map

/-! ### Programs that have been read -/

/-- `void run()` of the class `demo.App`. -/
def runMethod : MethodType := { name := "run", owner := .declared "demo.App" [], ret := .void }

/-- `void stop()` of the class `demo.App`. -/
def stopMethod : MethodType := { runMethod with name := "stop" }

/-- A variable, a class and a method. -/
def newEntries : List Entry :=
  [.symbol "n" .localVariable (.primitive .int), .type { name := "demo.Color", kind := .enum },
    .method stopMethod]

/-- A program with a method that has no symbol, and whose number is far above those of all
symbols. -/
def distant : Program where
  unit := { name := "demo.App" }
  symbols := .ofList [
    (7, { name := "count", kind := .field, ty := .primitive .int }),
    (41, { name := "n", kind := .parameter, ty := .primitive .int })]
  methods := .ofList [(100, runMethod)]

/-- A program with a method and no symbols. -/
def unlinked : Program where
  unit := { name := "demo.App" }
  methods := .ofList [(0, runMethod)]

/-- A program that has been built with a method. -/
def linked : Program := (Entry.enter (named "demo.App") (.method runMethod)).2

theorem linked_isBuilt : linked.IsBuilt := .enter _ (.named _)

/-- What is entered in the one program does not get as far as the number of the method, and the
other one has been built. -/
theorem entries_spare_distant :
    (newEntries.length < UInt32.size ∧
      (∀ id ∈ distant.ids, id.toNat + newEntries.length < UInt32.size - 1) ∧
      distant.numbers newEntries = [42, 43, 44] ∧ (distant.numbers newEntries).Nodup ∧
      distant.Spares newEntries symbol? ∧ distant.Spares newEntries method?) ∧
    ((∀ id ∈ linked.ids, id.toNat + newEntries.length < UInt32.size - 1) ∧
      linked.IsBuilt ∧ linked.numbers newEntries = [1, 2, 3] ∧
      linked.Spares newEntries method?) := by
  have few : newEntries.length < UInt32.size := by decide
  have below : ∀ id ∈ distant.ids, id.toNat + newEntries.length < UInt32.size - 1 :=
    List.forall_mem_cons.2 ⟨by decide, List.forall_mem_cons.2 ⟨by decide,
      List.forall_mem_singleton.2 (by decide)⟩⟩
  have below' : ∀ id ∈ linked.ids, id.toNat + newEntries.length < UInt32.size - 1 :=
    List.forall_mem_cons.2 ⟨by decide, List.forall_mem_singleton.2 (by decide)⟩
  have apart : ∀ id ∈ distant.methods.keys, ¬distant.IsNext newEntries.length id :=
    List.forall_mem_singleton.2 (by decide)
  obtain ⟨distinct, symbols, methods, _⟩ := entries_spare few below
  obtain ⟨_, _, _, built⟩ := entries_spare few below'
  exact ⟨⟨few, below, by decide, distinct, symbols, methods.2 apart⟩, below',
    linked_isBuilt, by decide, built linked_isBuilt⟩

/-- The text of a program may have a method under a number that no symbol has. That number is given
out to another method, which takes its place. -/
theorem method_replaced :
    ofText? unlinked.toText = some unlinked ∧
      (∀ id ∈ unlinked.ids, id.toNat + 1 < UInt32.size - 1) ∧
      unlinked.method? 0 = some runMethod ∧ unlinked.numbers [.method stopMethod] = [0] ∧
      (unlinked.after [.method stopMethod]).method? 0 = some stopMethod ∧
      ¬unlinked.Spares [.method stopMethod] method? := by
  refine ⟨?_, List.forall_mem_singleton.2 (by decide), rfl, by decide, rfl, fun spared => ?_⟩
  · have admits := unlinked.outline.admits_toJson
    have reads : Json.ofText? unlinked.toText = some unlinked.outline.toJson :=
      admits.canonical.ofText?_pretty
    rw [ofText?, reads, Option.bind_eq_bind, Option.bind_some]
    exact unlinked.readBy ⟨admits, by decide, by decide⟩
  · have isNew : unlinked.method? 0 = none :=
      spared.new (show [.method stopMethod] = [] ++ Entry.method stopMethod :: [] from rfl)
    cases isNew

end Program

end Source

end Polyscript
