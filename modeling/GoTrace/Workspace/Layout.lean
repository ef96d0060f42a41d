import GoTrace.Module.Definition
import GoTrace.Toolchain.Environment
import GoTrace.Workspace.Sources

/-!
# Package directories

The module of a directory is described by the module file in it or in the nearest directory above.

An import path stands for the first directory that is there among: its place in the main module, in
the vendor directory, in the module that replaces the one it belongs to, in the required version of
that module, in the toolchain, and in each work space. In the other direction, the import path of a
directory is read off its place in the main module or in a work space.
-/

namespace GoTrace

/-! ## The module of a directory -/

namespace GoModule

def fileIn (directory : Path) : Path :=
  directory.join (.ofText "go.mod")

def read (files : FileSystem) (directory : Path) : Except ResolveError (Option GoModule) := do
  let text ← FileSystem.onPath (fileIn directory) (files.readText (fileIn directory))
  return parse directory text

/-- The module that a directory belongs to. Only the nearest module file counts, even if it names no
module. -/
def discover (files : FileSystem) (directory : Path) : Except ResolveError (Option GoModule) :=
  match directory.ancestors.find? fun above => files.isFile (fileIn above) with
  | some found => read files found
  | none => .ok none

end GoModule

/-! ## The directories of an import path -/

/-- Where packages are looked for: the main module, and the environment. -/
structure Workspace where
  module : Option GoModule
  environment : GoEnvironment
deriving DecidableEq, Repr

namespace Workspace

/-- The directory below `base` that an import path leads to. Empty segments lead nowhere. -/
def directoryBelow (base : Path) (importPath : List Char) : Path :=
  ((Text.fieldsBy (· = '/') importPath).filter fun segment => !segment.isEmpty).foldl
    (fun directory segment => directory.child (Text.octets (String.ofList segment))) base

def cached (workspace : Workspace) (path version : String) : Option Path :=
  workspace.environment.modcache.map fun cache =>
    cache.join (.ofText (GoModule.escape path ++ "@" ++ GoModule.escape version))

def replacing (workspace : Workspace) (module : GoModule) : ReplacementTarget → Option Path
  | .directory path => some (module.root.join path)
  | .module path version => workspace.cached path version

/-- The directories that an import path may stand for by what the main module says, best first. -/
def moduleCandidates (workspace : Workspace) (module : GoModule) (importPath : String) :
    List Path :=
  let own := (GoModule.below? module.path.toList importPath.toList).map fun rest =>
    directoryBelow module.root rest
  let vendored := directoryBelow (module.root.join (.ofText "vendor")) importPath.toList
  let replaced :=
    (GoModule.longestMatch? Replacement.path module.replaces importPath).bind fun found =>
      (workspace.replacing module found.1.target).map fun base => directoryBelow base found.2
  let required :=
    (GoModule.longestMatch? Requirement.path module.requires importPath).bind fun found =>
      (workspace.cached found.1.path found.1.version).map fun base => directoryBelow base found.2
  own.toList ++ [vendored] ++ replaced.toList ++ required.toList

def candidates (workspace : Workspace) (importPath : String) : List Path :=
  let bases := workspace.environment.goroot.toList ++ workspace.environment.gopath
  (workspace.module.map fun module => workspace.moduleCandidates module importPath).getD [] ++
    bases.map fun base => directoryBelow (base.join (.ofText "src")) importPath.toList

def directory? (workspace : Workspace) (files : FileSystem) (importPath : String) : Option Path :=
  (workspace.candidates importPath).find? files.isDirectory

/-- The import path of a package in a directory, which need not be there. -/
def importPath? (workspace : Workspace) (files : FileSystem) (directory : Path) : Option String :=
  let place := files.absolute directory
  let inModule := workspace.module.bind fun module =>
    (place.relativeTo? module.root).map fun rest =>
      let below := slashed rest
      if below = "" then module.path else module.path ++ "/" ++ below
  inModule.or (workspace.environment.gopath.findSome? fun base =>
    (place.relativeTo? (base.join (.ofText "src"))).bind fun rest =>
      let below := slashed rest
      if below = "" then none else some below)

/-- The work space around a directory, by the module it belongs to and the environment, and the
files after the environment has been looked at. -/
def discover (host : Host) (directory : Path) : Except ResolveError (Workspace × FileSystem) := do
  let module ← GoModule.discover host.files (host.files.absolute directory)
  return (⟨module, GoEnvironment.ofHost host⟩, host.filesAfterInquiry)

end Workspace

end GoTrace
