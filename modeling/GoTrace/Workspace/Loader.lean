import GoTrace.Workspace.Layout

/-!
# Loading packages from files

The loader over a file system, and the package of a directory.
-/

namespace GoTrace.Workspace

/-- Finds the package of an import path, reading its files only up to the first that tells its
name. -/
def locate (workspace : Workspace) (files : FileSystem) (importPath : String) :
    Option PackageInfo := do
  let directory ← workspace.directory? files importPath
  let sources ← (files.sourceFiles directory).toOption
  if sources.isEmpty then none
  else
    let name := sources.findSome? fun file => do
      let text ← (files.readText file).toOption
      if isIgnored text then none else (SourceFile.packageName text).toOption
    some ⟨importPath, name⟩

def assemble (importPath : String) (units : List SourceUnit) : Option LoadedPackage :=
  if units.isEmpty then none
  else
    some ⟨importPath, (packageNameOf (units.map (·.text))).getD (fallbackName importPath), units⟩

def load (workspace : Workspace) (files : FileSystem) (importPath : String) :
    Except ResolveError (Option LoadedPackage) :=
  match workspace.directory? files importPath with
  | none => .ok none
  | some directory => (files.packageSources directory).map (assemble importPath)

def loadDirectory (workspace : Workspace) (files : FileSystem) (directory : Path) :
    Except ResolveError LoadedPackage := do
  let place := files.absolute directory
  match workspace.importPath? files place with
  | none => .error (.load [place.text])
  | some importPath =>
      match assemble importPath (← files.packageSources place) with
      | some package => return package
      | none => .error (.load [importPath])

/-- The work space as a loader. No package has more files than there are nodes in the tree, and no
file declares more types than it has bytes. -/
def loader (workspace : Workspace) (files : FileSystem) : Loader where
  locate := workspace.locate files
  load := workspace.load files
  extent := files.root.weight * files.root.weight

end GoTrace.Workspace
