import Polyscript.Config
import Polyscript.Json.Decode
import Polyscript.Toml.Reader

/-!
# Reading configurations

A configuration is read from JSON or from TOML. The two differ in how a field is
found and what stands for a choice; which fields there are is said once. Every field
may be left out, and fields that are not known are skipped.
-/

namespace Polyscript

/-- How values of some notation are read. -/
structure Reading (V : Type) where
  text? : V → Option String
  flag? : V → Option Bool
  items? : V → Option (List V)
  record? : List String → V → Option (Record V)
  /-- The name of an alternative without content. -/
  name? : V → Option String

namespace Reading

variable {V : Type} (r : Reading V)

/-- A list of texts. -/
def texts? (value : V) : Option (List String) := do (← r.items? value).mapM r.text?

/-- A target language by its name. -/
def target? (value : V) : Option Target :=
  (r.name? value).bind fun name => Target.all.find? (·.name == name)

/-- A classification. -/
def classification? (value : V) : Option Classification := do
  let absent : Classification := {}
  let fields ← r.record? ["api_annotations", "data_object_annotations", "json_object_class",
    "json_array_class", "async_result_class", "throwable_class", "console_class", "arrays_class",
    "map_classes", "list_classes"] value
  return {
    apiAnnotations := ← fields.optional "api_annotations" absent.apiAnnotations r.texts?
    dataObjectAnnotations :=
      ← fields.optional "data_object_annotations" absent.dataObjectAnnotations r.texts?
    jsonObjectClass := ← fields.optional "json_object_class" absent.jsonObjectClass r.text?
    jsonArrayClass := ← fields.optional "json_array_class" absent.jsonArrayClass r.text?
    asyncResultClass := ← fields.optional "async_result_class" absent.asyncResultClass r.text?
    throwableClass := ← fields.optional "throwable_class" absent.throwableClass r.text?
    consoleClass := ← fields.optional "console_class" absent.consoleClass r.text?
    arraysClass := ← fields.optional "arrays_class" absent.arraysClass r.text?
    mapClasses := ← fields.optional "map_classes" absent.mapClasses r.texts?
    listClasses := ← fields.optional "list_classes" absent.listClasses r.texts? }

/-- A configuration. -/
def config? (value : V) : Option Config := do
  let absent : Config := {}
  let fields ← r.record? ["target", "indent", "entry_method", "async_result_idiom",
    "preserve_fragments", "classification"] value
  return {
    target := ← fields.optional "target" absent.target r.target?
    indent := ← fields.optional "indent" absent.indent r.text?
    entryMethod := ← fields.optional "entry_method" absent.entryMethod r.text?
    asyncIdiom := ← fields.optional "async_result_idiom" absent.asyncIdiom r.flag?
    keepFragments := ← fields.optional "preserve_fragments" absent.keepFragments r.flag?
    classification := ← fields.optional "classification" absent.classification r.classification? }

/-- Reading JSON. -/
def json : Reading Json where
  text? := Json.string?
  flag? := Json.bool?
  items? := Json.items?
  record? := Json.record?
  name? := Json.name? Json.maxDepth

end Reading

namespace Toml.Value

/-- The text of a string. -/
def text? : Value → Option String
  | .string value => some value
  | _ => none

/-- A truth value. -/
def flag? : Value → Option Bool
  | .boolean value => some value
  | _ => none

/-- The items of an array, or the tables of an array of tables. -/
def items? : Value → Option (List Value)
  | .array items => some items
  | .tables items => some (items.map (.table .header))
  | _ => none

/-- The fields of a table, or those that an array gives in order; further items of the
array are skipped. A moment counts as a table of parts of its own, none of which is a
field. -/
def record? (names : List String) : Value → Option (Record Value)
  | .table _ entries => some ⟨entries.filter fun entry => names.contains entry.1⟩
  | .moment => some ⟨[]⟩
  | .array items => some ⟨names.zip items⟩
  | .tables items => some ⟨names.zip (items.map (.table .header))⟩
  | _ => none

/-- Whether a value is an empty table or array. -/
def isEmpty : Value → Bool
  | .table _ entries => entries.isEmpty
  | .array items => items.isEmpty
  | .tables items => items.isEmpty
  | _ => false

/-- The name of an alternative: a string, or the only key of a table that has an empty
value under it. -/
def name? : Value → Option String
  | .string value => some value
  | .table _ [(name, body)] => if body.isEmpty then some name else none
  | _ => none

end Toml.Value

/-- Reading TOML. -/
def Reading.toml : Reading Toml.Value where
  text? := Toml.Value.text?
  flag? := Toml.Value.flag?
  items? := Toml.Value.items?
  record? := Toml.Value.record?
  name? := Toml.Value.name?

namespace Config

/-- The configuration that a JSON value holds. -/
def ofJson? (value : Json) : Option Config := Reading.json.config? value

/-- The configuration that a text in TOML holds. -/
def ofToml? (text : String) : Option Config := do Reading.toml.config? (← Toml.ofText? text)

end Config

end Polyscript
