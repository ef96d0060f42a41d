import GoTrace.Resolve.Loader
import GoTrace.Signature.Interface
import GoTrace.Text.Quoted

/-!
# Names in a generated file

The aliases of imported packages are chosen once for a file, in the order of import paths. Names of
parameters and of struct fields are chosen so that nothing the generated code refers to is hidden.
-/

namespace GoTrace

/-- Names that the generated code declares or uses without a qualifier. -/
def reservedNames : List String := ["t", "span", "next", "tracer"]

/-- The first of the names `base ++ suffix n`, `n` counting up from `start`, that is not `taken`.
Among more candidates than there are taken names one is free. -/
def firstFree (taken : List String) (candidate : Nat → String) (start : Nat) : String :=
  go taken.length start
where
  go : Nat → Nat → String
    | 0, n => candidate n
    | bound + 1, n => if taken.contains (candidate n) then go bound (n + 1) else candidate n

def numberedAlias (taken : List String) (base : String) : String :=
  firstFree taken (fun n => if n = 0 then base else base ++ toString n) 0

/-- The name `base` with as few underscores behind it as make it free. -/
def underscored (taken : List String) (base : String) : String :=
  firstFree taken (fun n => base ++ String.ofList (List.replicate n '_')) 0

/-- The imports of a generated file. -/
structure FileImports where
  /-- The import path of the file's own package, which is never imported. -/
  localPath : String
  aliases : List (String × String)
deriving DecidableEq, Repr

namespace FileImports

def baseAlias (path preferred : String) : String :=
  if preferred.isEmpty then fallbackName path else preferred

/-- Assigns aliases to paths in order, none of them in `taken` and no two the same. -/
def assign : List String → List (String × String) → List (String × String)
  | _, [] => []
  | taken, (path, preferred) :: rest =>
      let aliasName := numberedAlias taken (baseAlias path preferred)
      (path, aliasName) :: assign (aliasName :: taken) rest

/-- The imports of a file in the package at `localPath` that refers to `packages`, which have
preferred aliases. -/
def ofPackages (localPath : String) (packages : PathMap) : FileImports where
  localPath := localPath
  aliases := assign reservedNames <|
    packages.entries.filter fun entry => entry.1 ≠ localPath && !entry.1.isEmpty

def alias? (imports : FileImports) (path : String) : Option String :=
  imports.aliases.lookup path

def containsAlias (imports : FileImports) (name : String) : Bool :=
  imports.aliases.any fun entry => entry.2 = name

/-- How the file qualifies names: its own not at all, those of a package that it does not import as
their declaration does. -/
def qualifier (imports : FileImports) : Qualifier := fun package =>
  if package.path = imports.localPath then none
  else some ((imports.alias? package.path).getD package.aliasName)

def lastSegment (path : String) : String :=
  String.ofList ((Text.fieldsBy (· = '/') path.toList).getLastD [])

/-- One line of the import declaration. The alias is left out when it is the path's last segment. -/
def importLine (entry : String × String) : String :=
  let (path, aliasName) := entry
  if lastSegment path = aliasName then "\t" ++ Text.quote path ++ "\n"
  else "\t" ++ aliasName ++ " " ++ Text.quote path ++ "\n"

def render (imports : FileImports) : String :=
  if imports.aliases.isEmpty then ""
  else "import (\n" ++ String.join (imports.aliases.map importLine) ++ ")\n"

end FileImports

/-- The names of the fields of one wrapper. A type cannot have a field and a method of one name. -/
structure WrapperFields where
  next : String
  tracer : String
deriving DecidableEq, Repr

namespace WrapperFields

def ofMethods (methods : MethodSet) : WrapperFields where
  next := underscored methods.keys "next"
  tracer := underscored methods.keys "tracer"

def width (fields : WrapperFields) : Nat :=
  max fields.next.utf8ByteSize fields.tracer.utf8ByteSize

end WrapperFields

/-- Whether a declared parameter name can be kept: it is not blank, and hides nothing that the
generated code refers to. -/
def FileImports.keepsName (imports : FileImports) (name : String) : Bool :=
  name ≠ "_" && !reservedNames.contains name && !imports.containsAlias name

/-- The names of parameters from the place `index` on: those to keep, and new ones that differ from
all of `used`. -/
def fillNames : Nat → List String → List (Option String) → List String
  | _, _, [] => []
  | index, used, some name :: rest => name :: fillNames (index + 1) used rest
  | index, used, none :: rest =>
      let name := underscored used ("a" ++ toString index)
      name :: fillNames (index + 1) (name :: used) rest

def parameterNames (method : Method) (imports : FileImports) : List String :=
  let declared := method.params.map fun param => param.name.filter imports.keepsName
  fillNames 0 (declared.filterMap id) declared

end GoTrace
