import GoTrace.Imports.Table
import GoTrace.Signature.Interface

/-!
# Packages and scopes

A package is the parsed form of its source files. A scope is one of these files together with
the import table of its own: what the names in a signature refer to.
-/

namespace GoTrace

/-- A package whose files are all parsed. -/
structure Package where
  path : String
  name : String
  units : List SourceFile
deriving Inhabited

namespace Package

/-- Parses the files of a package in order. The first file that cannot be read decides the error. -/
def parse (package : LoadedPackage) : Except ResolveFailure Package := do
  let units ← package.units.mapM fun unit =>
    (SourceFile.parse unit.text (some unit.fileName)).mapError
      (Failure.map (ResolveError.parse unit.fileName))
  return ⟨package.path, package.name, units⟩

def ref (package : Package) : PackageRef := ⟨package.path, package.name⟩

/-- The first of the units for which `find` succeeds: its place, and what was found. -/
def findInUnits {α : Type} (find : SourceFile → Option α) (units : List SourceFile) :
    Option (Nat × α) :=
  units.zipIdx.findSome? fun entry => (find entry.1).map fun found => (entry.2, found)

def findType (package : Package) (name : String) : Option (Nat × TypeSpec) :=
  findInUnits (fun unit => unit.typeSpecs.find? fun spec => spec.name.name = name) package.units

def findConst (package : Package) (name : String) : Option (Nat × ConstSpec) :=
  findInUnits (fun unit => unit.constSpecs.find? fun spec => spec.declares name) package.units

/-- The names of the interfaces without type parameters, in the order of their declarations. -/
def interfaceNames (package : Package) : List String :=
  (package.units.flatMap SourceFile.typeSpecs).filterMap fun spec =>
    match spec.typeParams, spec.type with
    | [], .interface _ => some spec.name.name
    | _, _ => none

def fileName (package : Package) (unit : Nat) : String :=
  (package.units[unit]?.bind (·.sourceName)).getD package.path

end Package

/-- What the names in a signature refer to: a unit of a package, and its imports. -/
structure Scope where
  package : Package
  unit : Nat
  imports : ImportTable
deriving Inhabited

def Scope.fileName (scope : Scope) : String :=
  scope.package.fileName scope.unit

/-- A package with every interface that it declares. -/
structure ResolvedPackage where
  name : String
  path : String
  interfaces : List Interface

def ResolvedPackage.interface? (package : ResolvedPackage) (name : String) : Option Interface :=
  package.interfaces.find? fun interface => interface.name = name

end GoTrace
