/-!
# The classification of classes

Which classes count as structured objects, lists and so on is a matter of their
qualified names and annotations, and can be set.
-/

namespace Polyscript

/-- The names that decide of which kind a class is. -/
structure Classification where
  apiAnnotations : List String := ["io.vertx.codegen.annotations.VertxGen"]
  dataObjectAnnotations : List String := ["io.vertx.codegen.annotations.DataObject"]
  jsonObjectClass : String := "io.vertx.core.json.JsonObject"
  jsonArrayClass : String := "io.vertx.core.json.JsonArray"
  asyncResultClass : String := "io.vertx.core.AsyncResult"
  throwableClass : String := "java.lang.Throwable"
  consoleClass : String := "java.lang.System"
  arraysClass : String := "java.util.Arrays"
  mapClasses : List String := ["java.util.Map", "java.util.HashMap", "java.util.LinkedHashMap"]
  listClasses : List String := ["java.util.List", "java.util.ArrayList", "java.util.LinkedList"]
  deriving DecidableEq

end Polyscript
