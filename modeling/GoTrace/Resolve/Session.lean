import GoTrace.Resolve.Package

/-!
# Resolution sessions

What has been found out so far: parsed packages, names of packages, import tables and resolved
interfaces. A session is only ever added to, also by an operation that fails, so each package is
loaded once. It also holds the interfaces that are being resolved, and the questions that its loader
was asked.
-/

namespace GoTrace

/-- A question to a loader. -/
inductive LoaderRequest where
  | locate (path : String)
  | load (path : String)
deriving DecidableEq, Repr

abbrev InterfaceKey := String × String

/-- What has been found out so far. -/
structure Session where
  packages : List (String × Package)
  importTables : List ((String × Nat) × ImportTable)
  packageNames : List (String × String)
  interfaces : List (InterfaceKey × Interface)
  /-- The interfaces that are being resolved, outermost first. -/
  resolving : List InterfaceKey
  requests : List LoaderRequest
deriving Inhabited

/-- A computation in a session. What it has found out remains when it fails. -/
abbrev Resolution := ExceptT ResolveFailure (StateM Session)

namespace Session

def empty : Session := ⟨[], [], [], [], [], []⟩

def declaredTypes (session : Session) : Nat :=
  (session.packages.flatMap fun entry => entry.2.units.flatMap SourceFile.typeSpecs).length

def importCount (session : Session) : Nat :=
  (session.packages.flatMap fun entry => entry.2.units.flatMap SourceFile.imports).length

end Session

namespace Resolution

def fail {α : Type} (cause : ResolveError) : Resolution α :=
  throw (.error cause)

def ofExcept {α : Type} : Except ResolveFailure α → Resolution α
  | .ok value => pure value
  | .error failure => throw failure

def record (requests : List LoaderRequest) : Resolution Unit :=
  modify fun session => { session with requests := requests.reverse ++ session.requests }

/-- Adds a package that is already loaded, unless its path has a package. -/
def addPackage (loaded : LoadedPackage) : Resolution Package := do
  match (← get).packages.lookup loaded.path with
  | some package => return package
  | none =>
      let package ← ofExcept (Package.parse loaded)
      modify fun session =>
        { session with
          packageNames := (package.path, package.name) :: session.packageNames
          packages := (package.path, package) :: session.packages }
      return package

/-- The parsed package at `path`, which is loaded when it is first asked for. -/
def package (loader : Loader) (path : String) : Resolution Package := do
  match (← get).packages.lookup path with
  | some package => return package
  | none =>
      record [.load path]
      match loader.load path with
      | .error cause => fail cause
      | .ok none => fail (.load [path])
      | .ok (some loaded) => addPackage loaded

/-- The import table of one unit of a package. Only names that are not known yet are looked up. -/
def importTable (loader : Loader) (package : Package) (unit : Nat) : Resolution ImportTable := do
  match (← get).importTables.lookup (package.path, unit) with
  | some table => return table
  | none =>
      let specs := (package.units[unit]?.map (·.imports)).getD []
      let known := (← get).packageNames
      let unknown := (specs.filter fun spec =>
        spec.needsName && (known.lookup spec.path).isNone).map (·.path)
      let search := NameSearch.among loader unknown
      record (search.asked.map .locate)
      let found ← ofExcept (search.result.mapError .error)
      let names := found ++ known
      let table := ImportTable.ofSpecs specs fun path => names.lookup path
      modify fun session =>
        { session with
          packageNames := names
          importTables := ((package.path, unit), table) :: session.importTables }
      return table

def scope (loader : Loader) (path : String) (unit : Nat) : Resolution Scope := do
  let package ← package loader path
  let imports ← importTable loader package unit
  return ⟨package, unit, imports⟩

def packagePath (scope : Scope) (aliasName : String) : Resolution String :=
  match scope.imports.pathOf aliasName with
  | some path => return path
  | none => fail (.unknownPackage aliasName scope.fileName)

/-- Runs `action` while the interface `key` counts as being resolved. When the action is broken off
without an error, it keeps counting so. -/
def whileResolving {α : Type} (key : InterfaceKey) (action : Resolution α) : Resolution α := do
  modify fun session => { session with resolving := session.resolving ++ [key] }
  let leave : Resolution Unit :=
    modify fun session => { session with resolving := session.resolving.erase key }
  tryCatch (do
      let value ← action
      leave
      return value)
    fun failure => do
      match failure with
      | .error _ => leave
      | _ => pure ()
      throw failure

end Resolution

end GoTrace
