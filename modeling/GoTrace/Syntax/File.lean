import GoTrace.Syntax.Type
import GoTrace.Text.Class

/-!
# Source files

The declarations of one source file. Variable declarations, the initialisers of constants and the
bodies of functions are kept as text or not at all: only types and signatures have a structure.
-/

namespace GoTrace

/-- Whether a name is visible outside its package: it starts with an upper case letter. -/
def isExported (name : String) : Bool :=
  match name.toList with
  | c :: _ => Text.isUppercase c
  | [] => false

/-- What an import is called in its file. -/
inductive ImportName where
  /-- All names are imported, as in `import . "pkg"`. -/
  | dot
  /-- Nothing is imported, as in `import _ "pkg"`. -/
  | blank
  | named (name : String)
deriving DecidableEq, Repr

/-- One imported package. -/
structure ImportSpec where
  name : Option ImportName
  path : String
  span : Span
deriving DecidableEq, Repr

/-- Type parameters that share a constraint. -/
structure TypeParam where
  names : List Ident
  constraint : List TypeTerm
deriving Repr

/-- One type declaration. -/
structure TypeSpec where
  name : Ident
  typeParams : List TypeParam
  isAlias : Bool
  type : TypeExpr
  span : Span
deriving Repr

/-- One line of a constant declaration. It has no values when it repeats those before it. -/
structure ConstSpec where
  names : List Ident
  type : Option TypeExpr
  values : List String
  span : Span
deriving Repr

/-- One variable declaration as text. -/
structure VarSpec where
  text : String
  span : Span
deriving DecidableEq, Repr

/-- A function or method declaration. -/
structure FuncDecl where
  receiver : Option (List Field)
  name : Ident
  typeParams : List TypeParam
  signature : Signature
  hasBody : Bool
  span : Span
deriving Repr

/-- A declaration at the top level of a file. -/
inductive Declaration where
  | type (spec : TypeSpec)
  | const (spec : ConstSpec)
  | var (spec : VarSpec)
  | func (decl : FuncDecl)
deriving Repr

/-- One file of a package. -/
structure SourceFile where
  package : Ident
  imports : List ImportSpec
  declarations : List Declaration
  sourceName : Option String
  span : Span
deriving Repr

namespace ConstSpec

def declares (spec : ConstSpec) (name : String) : Bool :=
  spec.names.any fun ident => ident.name = name

def valueOf (spec : ConstSpec) (name : String) : Option String :=
  (spec.names.findIdx? fun ident => ident.name = name).bind fun index => spec.values[index]?

end ConstSpec

namespace SourceFile

def typeSpecs (file : SourceFile) : List TypeSpec :=
  file.declarations.filterMap fun
    | .type spec => some spec
    | _ => none

def constSpecs (file : SourceFile) : List ConstSpec :=
  file.declarations.filterMap fun
    | .const spec => some spec
    | _ => none

def interfaces (file : SourceFile) : List (Ident × List Element) :=
  file.typeSpecs.filterMap fun spec =>
    match spec.type with
    | .interface elements => some (spec.name, elements)
    | _ => none

end SourceFile

end GoTrace
