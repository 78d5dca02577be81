import Polyscript.Model.Basic

/-!
# Contexts

A context holds the options of a compilation and the aliases in force: symbols that
stand for an expression rather than for a variable. An alias is in force in the
context made with it and in the contexts made from that one, and nowhere else.
-/

namespace Polyscript

/-- The options of a compilation. -/
structure Options where
  /-- Whether callbacks for asynchronous results are recognised. -/
  asyncIdiom : Bool
  /-- Whether blank lines and comments between statements are kept. -/
  keepFragments : Bool
  deriving DecidableEq

/-- Options with the aliases in force, the latest first. -/
structure Context where
  options : Options
  aliases : List (SymbolId × Model.Expr) := []

namespace Context

/-- The expression that a symbol stands for. -/
def alias? (ctx : Context) (id : SymbolId) : Option Model.Expr := ctx.aliases.lookup id

/-- The context in which a symbol stands for an expression. -/
def withAlias (ctx : Context) (id : SymbolId) (e : Model.Expr) : Context :=
  { ctx with aliases := (id, e) :: ctx.aliases }

end Context

end Polyscript
