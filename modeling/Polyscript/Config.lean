import Polyscript.Lowering.Context
import Polyscript.Target
import Polyscript.Types.Classification

/-!
# The configuration of a compilation
-/

namespace Polyscript

/-- What a compilation depends on besides the program. -/
structure Config where
  target : Target := .javascript
  /-- One level of indentation. -/
  indent : String := "  "
  /-- The method whose body is the program. -/
  entryMethod : String := "start"
  /-- Whether callbacks for asynchronous results are recognised. -/
  asyncIdiom : Bool := true
  /-- Whether blank lines and comments between statements are kept. -/
  keepFragments : Bool := true
  classification : Classification := {}
  deriving DecidableEq

/-- The options of a compilation. -/
def Config.options (config : Config) : Options :=
  ⟨config.asyncIdiom, config.keepFragments⟩

end Polyscript
