import GoTrace.Resolve.Error
import GoTrace.Syntax.Parse

/-!
# Where packages come from

Resolution asks two questions about an import path: whether there is a package and what it is
called, and what its source files are. A loader answers both. A `Library` is a loader over sources
that are given directly.
-/

namespace GoTrace

/-- One source file as text. -/
structure SourceUnit where
  fileName : String
  text : String
deriving DecidableEq, Repr, Inhabited

/-- A package as its loader found it. -/
structure LoadedPackage where
  path : String
  name : String
  units : List SourceUnit
deriving DecidableEq, Repr, Inhabited

/-- A package that was located but not read. Its name is missing when no file tells it. -/
structure PackageInfo where
  path : String
  name : Option String
deriving DecidableEq, Repr, Inhabited

/-- The last segment of an import path, up to its first dot: what a package is called when its files
do not tell. -/
def fallbackName (path : String) : String :=
  let segment := (Text.fieldsBy (· = '/') path.toList).getLastD []
  String.ofList (segment.takeWhile (· ≠ '.'))

/-- The package name of the first source whose package clause can be read. -/
def packageNameOf (sources : List String) : Option String :=
  sources.findSome? fun source => (SourceFile.packageName source).toOption

/-- The two questions about import paths. -/
structure Loader where
  locate : String → Option PackageInfo
  /-- Reads the source files of a package; nothing when there is no such package. -/
  load : String → Except ResolveError (Option LoadedPackage)
  /-- A bound on the number of types that any one package declares, and on the number of different
  paths that all packages together import. -/
  extent : Nat

/-- Source files by import path. The paths are in increasing order, the files of one path in the
order in which they were added. -/
structure Library where
  packages : List (String × List SourceUnit)
deriving DecidableEq, Repr, Inhabited

namespace Library

def empty : Library := ⟨[]⟩

def add (library : Library) (path : String) (unit : SourceUnit) : Library :=
  ⟨go library.packages⟩
where
  go : List (String × List SourceUnit) → List (String × List SourceUnit)
    | [] => [(path, [unit])]
    | entry :: rest =>
        if path < entry.1 then (path, [unit]) :: entry :: rest
        else if path = entry.1 then (entry.1, entry.2 ++ [unit]) :: rest
        else entry :: go rest

def paths (library : Library) : List String :=
  library.packages.map (·.1)

def units? (library : Library) (path : String) : Option (List SourceUnit) :=
  library.packages.lookup path

def size (library : Library) : Nat :=
  (library.packages.flatMap fun entry => entry.2.flatMap fun unit => unit.text.toList).length

def loader (library : Library) : Loader where
  locate path :=
    (library.units? path).map fun units => ⟨path, packageNameOf (units.map (·.text))⟩
  load path :=
    .ok ((library.units? path).map fun units =>
      ⟨path, (packageNameOf (units.map (·.text))).getD (fallbackName path), units⟩)
  extent := library.size

end Library

end GoTrace
