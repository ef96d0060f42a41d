import GoTrace.Command.Arguments
import GoTrace.Command.Output
import GoTrace.Command.Target
import GoTrace.Resolve.Interface

/-!
# Runs of the command

A run reads the package directories, resolves the interfaces that the user names, and writes one
file with their wrappers. It is a function from the arguments and the host to what the user sees and
the files that are left.

A host that has only some of the files of a machine can be completed with the places that a run asks
about, until it has all that the run depends on.
-/

namespace GoTrace

abbrev Generation := ExceptT CommandFailure (StateM Session)

namespace Generation

def resolving {α : Type} (action : Resolution α) : Generation α :=
  action.adapt (Failure.map .resolve)

def reading {α : Type} (result : Except ResolveError α) : Generation α :=
  match result with
  | .ok value => pure value
  | .error cause => throw (.error (.resolve cause))

/-- Adds the package of each directory; returns the import path of the first one. -/
def addDirectories (workspace : Workspace) (files : FileSystem) (directories : List Path) :
    Generation String := do
  let paths ← directories.mapM fun directory => do
    let loaded ← reading (workspace.loadDirectory files directory)
    return (← resolving (Resolution.addPackage loaded)).path
  return paths.headD ""

def text (options : Options) (targets : List Target) (workspace : Workspace) (files : FileSystem) :
    Generation String := do
  let first ← addDirectories workspace files options.directories
  let loader := workspace.loader files
  let interfaces ← targets.mapM fun target =>
    resolving (Resolution.interface loader (target.package.getD first) target.name)
  let package := (interfaces.head?.map Interface.package).getD ⟨first, ""⟩
  let output := OutputPackage.choose workspace files options.output options.package package
  match (WrapperFile.empty output options.tracer).addAll interfaces with
  | (.ok (), file) => return file.text
  | (.error cause, _) => throw (.error (.generate cause))

end Generation

/-- What a run leaves behind. -/
structure Outcome where
  status : Nat
  output : String
  errors : String
  files : FileSystem
deriving Inhabited

namespace Outcome

def usageStatus : Nat := 2

def failed (files : FileSystem) : CommandFailure → Outcome
  | .error cause => ⟨1, "", s!"traceable: {cause.diagnostic.message}\n", files⟩
  | .splitCharacter =>
      ⟨101, "", "traceable: an integer literal breaks off inside a character\n", files⟩
  | .exhausted => ⟨1, "", "traceable: too many embedded interfaces\n", files⟩

end Outcome

namespace Command

def versionLine : String := "traceable 0.1.0\n"

def help : String :=
  "Generate traced wrappers for Go interfaces\n\n" ++
    "Usage: traceable [OPTIONS] --types <TYPES> [DIR]...\n"

def prepare (options : Options) (host : Host) :
    Except CommandFailure (List Target × Workspace × FileSystem) := do
  let targets ← Target.parseAll options.types
  match Workspace.discover host (options.directories.headD .dot) with
  | .ok found => return (targets, found)
  | .error cause => throw (.error (.resolve cause))

def runWith (options : Options) (host : Host) : Outcome :=
  match prepare options host with
  | .error failure => .failed host.files failure
  | .ok (targets, workspace, files) =>
      match ((Generation.text options targets workspace files).run.run Session.empty).1 with
      | .error failure => .failed files failure
      | .ok text =>
          match options.output with
          | none => ⟨0, text, "", files⟩
          | some file =>
              match (writeOutput file text).run.run files with
              | (.ok (), files) => ⟨0, "", "", files⟩
              | (.error cause, files) => .failed files (.error cause)

def run (arguments : List String) (host : Host) : Outcome :=
  match Options.read arguments host.settings with
  | .ok options => runWith options host
  | .error .help => ⟨0, help, "", host.files⟩
  | .error .version => ⟨0, versionLine, "", host.files⟩
  | .error (.usage _) => ⟨Outcome.usageStatus, "", help, host.files⟩

end Command

/-! ## The places of a run -/

def LoaderRequest.path : LoaderRequest → String
  | locate path => path
  | load path => path

namespace Command

def places (options : Options) (host : Host) : List Path :=
  let first := options.directories.headD .dot
  let packages := match prepare options host with
    | .ok (targets, workspace, files) =>
        let session := ((Generation.text options targets workspace files).run.run Session.empty).2
        session.requests.flatMap fun asked => workspace.candidates asked.path
    | .error _ => []
  let modules := (host.files.absolute first).ancestors.map GoModule.fileIn
  options.directories ++ modules ++ (options.output.map directoryOf).toList ++
    options.output.toList ++ packages

end Command

end GoTrace
