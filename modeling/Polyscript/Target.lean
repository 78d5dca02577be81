/-!
# Target languages

The languages that programs are written in, with their names and the usual
extensions of their files.
-/

namespace Polyscript

/-- The target languages. -/
inductive Target where
  | javascript
  | groovy
  | ruby
  | kotlin
  deriving DecidableEq

namespace Target

/-- Every target language. -/
def all : List Target := [.javascript, .groovy, .ruby, .kotlin]

/-- The name of a language in lower case. -/
def name : Target → String
  | .javascript => "javascript"
  | .groovy => "groovy"
  | .ruby => "ruby"
  | .kotlin => "kotlin"

/-- The extension of a language's files. -/
def extension : Target → String
  | .javascript => "js"
  | .groovy => "groovy"
  | .ruby => "rb"
  | .kotlin => "kts"

/-- A language by its name, in which ASCII letters may be of either case, or by its
extension. -/
def ofName? (name : String) : Option Target :=
  all.find? fun t => t.name.toList == name.toList.map Char.toLower || t.extension == name

end Target

end Polyscript
