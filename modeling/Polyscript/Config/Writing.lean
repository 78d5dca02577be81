import Polyscript.Config
import Polyscript.Json.Value

/-!
# Writing configurations

A configuration is written as the JSON object of all its fields.
-/

namespace Polyscript

open Json (record text)

/-- The texts of a list. -/
private def texts (values : List String) : Json := .array (values.map text)

/-- A classification. -/
def Classification.toJson (c : Classification) : Json :=
  record [("api_annotations", texts c.apiAnnotations),
    ("data_object_annotations", texts c.dataObjectAnnotations),
    ("json_object_class", text c.jsonObjectClass), ("json_array_class", text c.jsonArrayClass),
    ("async_result_class", text c.asyncResultClass), ("throwable_class", text c.throwableClass),
    ("console_class", text c.consoleClass), ("arrays_class", text c.arraysClass),
    ("map_classes", texts c.mapClasses), ("list_classes", texts c.listClasses)]

/-- A configuration. -/
def Config.toJson (config : Config) : Json :=
  record [("target", text config.target.name), ("indent", text config.indent),
    ("entry_method", text config.entryMethod), ("async_result_idiom", .bool config.asyncIdiom),
    ("preserve_fragments", .bool config.keepFragments),
    ("classification", config.classification.toJson)]

end Polyscript
