/-!
# Tables of TOML

A table is written in several places: under its header, by dotted keys, or through
the headers of the tables inside it. Where a table comes from decides where more may
be added to it; a key is never given twice. Entries keep the order in which they were
first mentioned.
-/

namespace Polyscript.Toml

/-- Where a table comes from. -/
inductive Origin where
  /-- Written under a header of its own, or the whole document. -/
  | header
  /-- Named in the header of a table inside it. -/
  | outer
  /-- Named by a dotted key. -/
  | dotted
  /-- Written between braces as a value. -/
  | inline
  deriving DecidableEq

/-- A value. Numbers and moments are told apart from the rest and not read further. -/
inductive Value where
  | string (value : String)
  | boolean (value : Bool)
  | number
  /-- A date, a time of day, or both. -/
  | moment
  | array (items : List Value)
  | table (origin : Origin) (entries : List (String × Value))
  /-- An array of tables, each under a header of double brackets. -/
  | tables (items : List (List (String × Value)))

/-- The entries of a table. -/
abbrev Entries := List (String × Value)

/-- Replace the value of a key that is present. -/
def replace (key : String) (value : Value) : Entries → Entries
  | [] => []
  | e :: rest => if e.1 = key then (key, value) :: rest else e :: replace key value rest

/-- The kind of table that a path comes upon or makes: one on the way to a dotted key,
or one on the way to the table of a header. -/
inductive Way where
  | key
  | header
  deriving DecidableEq

/-- The origin of a table made on the way. -/
def Way.origin : Way → Origin
  | .key => .dotted
  | .header => .outer

/-- Change the table at the end of a path, making the tables on the way that are
missing. A dotted key cannot pass through a table that has a header of its own, and
no path passes through a value. -/
def alterAt (way : Way) (path : List String) (origin : Origin) (entries : Entries)
    (change : Origin → Entries → Option Entries) : Option Entries :=
  match path with
  | [] => change origin entries
  | key :: path =>
    match entries.lookup key with
    | none => do
      let inner ← alterAt way path way.origin [] change
      return entries ++ [(key, .table way.origin inner)]
    | some (.table .inline _) => none
    | some (.table .header inner) =>
      if way = .key then none
      else do
        let inner ← alterAt way path .header inner change
        return replace key (.table .header inner) entries
    | some (.table origin inner) => do
      let inner ← alterAt way path origin inner change
      return replace key (.table origin inner) entries
    | some (.tables items) => do
      let last ← items.getLast?
      let inner ← alterAt way path .header last change
      return replace key (.tables (items.dropLast ++ [inner])) entries
    | some _ => none

/-- Enter a new key into a table. -/
def enter (key : String) (value : Value) (entries : Entries) : Option Entries :=
  if (entries.lookup key).isSome then none else some (entries ++ [(key, value)])

/-- Enter a value under a dotted key, given as the keys on the way and the last key.
The table for the last key must be one that dotted keys make. -/
def enterDotted (way : List String) (key : String) (value : Value) (entries : Entries) :
    Option Entries :=
  alterAt .key way .header entries fun origin entries =>
    if !way.isEmpty && origin ≠ .dotted then none else enter key value entries

/-- The table that the header of a table inside it leads to; a missing one is empty. -/
def tableAt : List String → Entries → Option Entries
  | [], entries => some entries
  | key :: path, entries =>
    match entries.lookup key with
    | none => some []
    | some (.table .inline _) => none
    | some (.table _ inner) => tableAt path inner
    | some (.tables items) => do tableAt path (← items.getLast?)
    | some _ => none

/-- A document as far as it has been read: the tables that are complete, and the table
under the last header with its path. -/
structure Document where
  root : Entries := []
  path : List String := []
  isItem : Bool := false
  current : Entries := []

namespace Document

/-- Change the table that holds the table of a path, given the last key of the path. -/
def alterParent (root : Entries) (path : List String)
    (change : String → Entries → Option Entries) : Option Entries := do
  let key ← path.getLast?
  alterAt .header path.dropLast .header root fun _ entries => change key entries

/-- All tables of a document, the one under the last header included. -/
def complete (d : Document) : Option Entries :=
  if d.path.isEmpty then some d.current
  else alterParent d.root d.path fun key entries =>
    match d.isItem, entries.lookup key with
    | true, some (.tables items) => some (replace key (.tables (items ++ [d.current])) entries)
    | false, none => some (entries ++ [(key, .table .header d.current)])
    | _, _ => none

/-- Begin the table of a header. A table that was only made on the way to others may
be given its header later. -/
def beginTable (d : Document) (path : List String) : Option Document := do
  let root ← d.complete
  let key ← path.getLast?
  match (← tableAt path.dropLast root).lookup key with
  | none => return { root, path, current := [] }
  | some (.table .outer entries) =>
    let root ← alterParent root path fun key entries => some (entries.filter (·.1 ≠ key))
    return { root, path, current := entries }
  | some _ => none

/-- Begin a further table of an array of tables. -/
def beginItem (d : Document) (path : List String) : Option Document := do
  let root ← d.complete
  let root ← alterParent root path fun key entries =>
    match entries.lookup key with
    | none => some (entries ++ [(key, .tables [])])
    | some (.tables _) => some entries
    | some _ => none
  return { root, path, isItem := true, current := [] }

/-- Enter a value under a dotted key of the current table. -/
def enter (d : Document) (way : List String) (key : String) (value : Value) : Option Document := do
  return { d with current := ← enterDotted way key value d.current }

end Document

end Polyscript.Toml
