import Polyscript.Source.Tree
import Polyscript.Table

/-!
# Programs

A program is one class with its fields and methods, together with what its trees
refer to: tables of symbols, classes and method types, and the source text if it is
at hand.

New symbols take the number after the largest one in the symbol table. A method is
entered in two tables under one number.
-/

namespace Polyscript.Source

/-- What a symbol stands for. -/
inductive SymbolKind where
  | localVariable
  | parameter
  | exceptionParameter
  | field
  | method
  | type
  deriving DecidableEq

/-- Every kind of symbol. -/
def SymbolKind.all : List SymbolKind :=
  [.localVariable, .parameter, .exceptionParameter, .field, .method, .type]

/-- The name of a kind, as messages give it. -/
def SymbolKind.name : SymbolKind → String
  | .localVariable => "LocalVariable"
  | .parameter => "Parameter"
  | .exceptionParameter => "ExceptionParameter"
  | .field => "Field"
  | .method => "Method"
  | .type => "Type"

/-- A symbol: `ty` is the type of a variable or the type that a type symbol names,
`owner` the class it belongs to, if that is known. -/
structure Symbol where
  name : String
  kind : SymbolKind
  ty : Ty
  owner : Option String := none

/-- The kinds of class declarations. -/
inductive ClassDeclKind where
  | cls
  | interface
  | enum
  | annotationType
  deriving DecidableEq

/-- Every kind of class declaration. -/
def ClassDeclKind.all : List ClassDeclKind := [.cls, .interface, .enum, .annotationType]

/-- What is known of a class: its annotations and direct supertypes by name. -/
structure ClassInfo where
  name : String
  kind : ClassDeclKind
  annotations : List String := []
  supertypes : List String := []
  deriving DecidableEq

/-- The type of a method. The last parameter of a method with variable arity is the
array of its further arguments. -/
structure MethodType where
  name : String
  owner : Ty
  params : List Ty := []
  varargs : Bool := false
  ret : Ty

/-- A parameter of a method. -/
structure Param where
  name : String
  sym : SymbolId
  ty : Ty

/-- The declaration of a field. -/
structure FieldDecl where
  name : String
  sym : SymbolId
  ty : Ty
  init : Option Expr := none

/-- The declaration of a method. -/
structure MethodDecl where
  name : String
  params : List Param := []
  ret : Ty
  body : Block

/-- A class, by its qualified name, with its fields and methods. -/
structure ClassUnit where
  name : String
  fields : List FieldDecl := []
  methods : List MethodDecl := []

/-- A class and what its trees refer to. -/
structure Program where
  unit : ClassUnit
  source : Option String := none
  symbols : Table SymbolId Symbol := ∅
  classes : Table String ClassInfo := ∅
  methods : Table SymbolId MethodType := ∅

/-- The part of a qualified name after its last point. -/
def simpleName (name : String) : String :=
  String.ofList (name.toList.reverse.takeWhile (· ≠ '.')).reverse

/-- The part of a qualified name before its last point, if it has a point. -/
def packageName? (name : String) : Option String :=
  match name.toList.reverse.dropWhile (· ≠ '.') with
  | [] => none
  | _ :: package => some (String.ofList package.reverse)

namespace Program

/-- The program of an empty class. -/
def named (name : String) : Program := { unit := { name } }

/-- The program with its source text. -/
def withSource (p : Program) (text : String) : Program := { p with source := some text }

/-- The symbol of a number. -/
def symbol? (p : Program) (id : SymbolId) : Option Symbol := p.symbols.find? id

/-- What is known of a class. -/
def class? (p : Program) (name : String) : Option ClassInfo := p.classes.find? name

/-- The type of the method of a number. -/
def method? (p : Program) (id : SymbolId) : Option MethodType := p.methods.find? id

/-- The number for the next symbol. -/
def nextId (p : Program) : SymbolId :=
  match p.symbols.lastKey? with
  | some id => id + 1
  | none => 0

/-- Enter a symbol; its number is given out. -/
def declare (p : Program) (name : String) (kind : SymbolKind) (ty : Ty) : SymbolId × Program :=
  (p.nextId, { p with symbols := p.symbols.insert p.nextId { name, kind, ty } })

/-- Enter what is known of a class. -/
def addClass (p : Program) (info : ClassInfo) : Program :=
  { p with classes := p.classes.insert info.name info }

/-- Enter a class and a symbol for it. -/
def declareType (p : Program) (info : ClassInfo) : SymbolId × Program :=
  (p.addClass info).declare (simpleName info.name) .type (.declared info.name [])

/-- Enter a method and a symbol for it under one number. -/
def declareMethod (p : Program) (method : MethodType) : SymbolId × Program :=
  let symbol : Symbol :=
    { name := method.name, kind := .method, ty := method.ret, owner := method.owner.qualifiedName? }
  (p.nextId,
    { p with
      symbols := p.symbols.insert p.nextId symbol
      methods := p.methods.insert p.nextId method })

end Program

end Polyscript.Source
