import Polyscript.Spelling.Expression

/-!
# Structured objects, data objects, maps and lists

How the target languages spell the literals of containers and the accesses to them.

Kotlin writes structured objects and arrays inside a `json` block. One block serves
the outermost literal with everything in it, so a literal has to know whether it
stands inside another one; the block is closed even if the literal breaks off.
-/

namespace Polyscript.Target

/-- Drafts of members between brackets, each on a line of its own. -/
def memberLines (opening closing : String) (members : List Draft) : Draft :=
  opening ++ "\n" ++ (Draft.mark .indent ++ Draft.joined ",\n" members) ++
    Draft.mark .unindent ++ "\n" ++ closing

/-- The members of an object with quoted keys. -/
def entries (t : Target) (separator : String) (members : List (String × Draft)) : List Draft :=
  members.map fun (name, value) => t.quote name ++ separator ++ value

/-- The literal of an object by its members, outside Kotlin. -/
def mapLiteral (t : Target) (members : List (String × Draft)) : Draft :=
  match t with
  | .groovy =>
    if members.isEmpty then "[:]" else memberLines "[" "]" (t.entries ":" members)
  | .ruby =>
    if members.isEmpty then "\x7b\x7d" else memberLines "\x7b" "\x7d" (t.entries " => " members)
  | _ =>
    if members.isEmpty then "\x7b\x7d" else memberLines "\x7b" "\x7d" (t.entries " : " members)

/-- A literal of Kotlin in its block. If the block is open already, only the ends of the
literal are marked. -/
def jsonBlock (insideJson : Bool) (literal : Draft) : Draft :=
  if insideJson then (Draft.mark .enterJson ++ literal).closedBy [.leaveJson]
  else "json \x7b\n" ++
    (Draft.mark .indent ++ literal).closedBy [.unindent, .text "\n\x7d"]

/-- The pairs of an object of Kotlin. More than one pair stand on lines of their own. -/
def pairs (members : List (String × Draft)) : Draft :=
  let lineEnd := if 1 < members.length then "\n" else ""
  "obj(" ++ lineEnd ++
    (Draft.joined ("," ++ lineEnd) (entries .kotlin " to " members)).indented ++ lineEnd ++ ")"

/-- The literal of a structured object. -/
def jsonObject (t : Target) (insideJson : Bool) (members : List (String × Draft)) : Draft :=
  match t with
  | .kotlin => jsonBlock insideJson (pairs members)
  | _ => t.mapLiteral members

/-- The literal of a list. -/
def listLiteral (t : Target) (values : List Draft) : Draft :=
  match t with
  | .kotlin => "listOf(" ++ arguments values ++ ")"
  | _ => "[" ++ arguments values ++ "]"

/-- The literal of a structured array. -/
def jsonArray (t : Target) (insideJson : Bool) (values : List Draft) : Draft :=
  match t with
  | .kotlin => jsonBlock insideJson (("array(" ++ arguments values).closedBy [.text ")"])
  | _ => t.listLiteral values

/-- The literal of a data object. -/
def dataObject (t : Target) (c : ClassType) (members : List (String × Draft)) : Draft :=
  match t with
  | .kotlin =>
    if members.isEmpty then t.typeName c ++ "()"
    else
      t.typeName c ++ "(\n" ++
        (Draft.joined ",\n" (members.map fun (name, value) =>
          t.identifier name ++ " = " ++ value)).indented ++ ")"
  | _ => t.mapLiteral members

/-- An empty map. -/
def newMap : Target → String
  | .groovy => "[:]"
  | .kotlin => "mutableMapOf<String, Any?>()"
  | _ => "\x7b\x7d"

/-- An empty list. -/
def newList : Target → String
  | .kotlin => "mutableListOf<Any?>()"
  | _ => "[]"

/-- An element by its index or key. -/
def element (container key : Draft) : Draft := container ++ "[" ++ key ++ "]"

/-- A call of a method of a container. -/
def memberCall (container : Draft) (method : String) (args : List Draft) : Draft :=
  container ++ "." ++ method ++ "(" ++ arguments args ++ ")"

/-- Whether a text can follow a point as the name of a member in JavaScript. -/
def isMemberName (name : String) : Bool :=
  let starts (c : Char) : Bool := c.isAlpha || c == '_' || c == '$'
  match name.toList with
  | [] => false
  | c :: rest => starts c && rest.all (fun c => starts c || c.isDigit)

/-- A member of a structured object, given the key's draft and its text if it is a
literal. -/
def jsonMember (t : Target) (object key : Draft) (text : Option String) : Draft :=
  match t, text with
  | .javascript, some name =>
    if isMemberName name && !t.reserved.contains name then object ++ "." ++ name
    else element object key
  | _, _ => element object key

/-- A value of a structured object. -/
def jsonObjectGet (t : Target) (object key : Draft) (text : Option String) : Draft :=
  match t with
  | .kotlin => memberCall object "get<Any?>" [key]
  | _ => t.jsonMember object key text

/-- Putting a value into a structured object. -/
def jsonObjectPut (t : Target) (object key value : Draft) (text : Option String)
    (isNull : Bool) : Draft :=
  match t with
  | .kotlin =>
    if isNull then memberCall object "putNull" [key] else memberCall object "put" [key, value]
  | _ => t.jsonMember object key text ++ " = " ++ value

/-- The text of a structured object or array. -/
def jsonEncode (t : Target) (value : Draft) : Draft :=
  match t with
  | .javascript => "JSON.stringify(" ++ value ++ ")"
  | .groovy => "groovy.json.JsonOutput.toJson(" ++ value ++ ")"
  | .ruby => "JSON.generate(" ++ value ++ ")"
  | .kotlin => memberCall value "toString" []

/-- An item of a structured array. -/
def jsonArrayGet (t : Target) (array index : Draft) : Draft :=
  match t with
  | .kotlin => memberCall array "get<Any?>" [index]
  | _ => element array index

/-- Adding a value to a list. -/
def listAdd (t : Target) (list value : Draft) : Draft :=
  match t with
  | .javascript | .ruby => memberCall list "push" [value]
  | .groovy | .kotlin => memberCall list "add" [value]

/-- Adding a value to a structured array. -/
def jsonArrayAdd (t : Target) (array value : Draft) (isNull : Bool) : Draft :=
  match t with
  | .kotlin => if isNull then memberCall array "addNull" [] else memberCall array "add" [value]
  | _ => t.listAdd array value

/-- The number of items of a list. -/
def listSize (t : Target) (list : Draft) : Draft :=
  match t with
  | .javascript | .ruby => list ++ ".length"
  | .groovy => memberCall list "size" []
  | .kotlin => list ++ ".size"

/-- The number of items of a structured array. -/
def jsonArraySize (t : Target) (array : Draft) : Draft :=
  match t with
  | .kotlin => memberCall array "size" []
  | _ => t.listSize array

/-- A property of a data object. Ruby keeps data objects as maps. -/
def property (t : Target) (object : Draft) (name : String) : Draft :=
  match t with
  | .ruby => element object (t.quote name)
  | _ => t.fieldAccess object name

/-- Iteration over a map. -/
def mapForEach (t : Target) (map : Draft) (key value : String) (body : BodyDraft) : Draft :=
  match t with
  | .javascript =>
    "Object.entries(" ++ map ++ ").forEach(([" ++ t.identifiers [key, value] ++ "]) => " ++
      arrowBody body ++ ")"
  | .groovy => map ++ ".each " ++ groovyClosure [key, value] body
  | .ruby =>
    map ++ ".each_pair do |" ++ t.identifiers [key, value] ++ "|\n" ++ body.asLines.indented ++
      "end"
  | .kotlin =>
    "for ((" ++ key ++ ", " ++ value ++ ") in " ++ map ++ ") \x7b\n" ++ body.asLines.indented ++
      "\x7d"

end Polyscript.Target
