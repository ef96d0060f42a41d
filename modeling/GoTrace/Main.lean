import GoTrace.Command.Run

/-!
# The command

The thin layer between the command and the machine. It copies the places that a run asks about into
a tree, runs the command on the tree, and carries out what has changed in it. Which places matter
depends on the files that are copied, so copying goes on until a run asks about nothing new. Names that
are no texts are not copied, and no other command is run, so the root of the toolchain is known from its
variable only.
-/

namespace GoTrace.Main

def variableNames : List String :=
  ["TRACEABLE_TYPES", "TRACEABLE_OUTPUT", "TRACEABLE_TRACER", "GOROOT", "GOPATH", "GOMODCACHE",
    "HOME"]

def namesOf (text : String) : Location :=
  (Path.ofText text).strides.filterMap fun stride =>
    match stride with
    | .enter name => some name
    | _ => none

def realPath? (path : Path) : IO (Option String) := do
  try return some (← IO.FS.realPath path.text).toString
  catch _ => return none

def copyReal (text : String) (root : Node) : IO Node := do
  let location := namesOf text
  match root.at? location with
  | some (.file ..) => return root
  | held =>
      if ← ((← IO.currentDir) / text).isDir then
        return if held.isSome then root else Node.put (.directory []) location root
      else return Node.put (.file (← IO.FS.readBinFile text)) location root

/-- Copies what stands at a path, given the path of the directory that it is an entry of. -/
def copyEntry (directory path : Path) (name : FileName) (root : Node) : IO Node := do
  match ← realPath? directory, ← realPath? path with
  | some outer, some real =>
      let place := (Path.ofText outer).child name
      let root ← copyReal real root
      if real = place.text then return root
      else return Node.put (.link (.ofText real)) (namesOf place.text) root
  | _, _ => return root

/-- Copies what stands at a path and, for a directory, its sources and the directories in it. -/
def copy (root : Node) (path : Path) : IO Node := do
  let root ← path.ancestors.reverse.foldlM (fun root path => do
    match path.parent?, path.fileName? with
    | some directory, some name =>
        copyEntry (if directory.octets.isEmpty then .dot else directory) path name root
    | _, _ => return root) root
  let listed := (← IO.currentDir) / path.text
  if ← listed.isDir then
    (← listed.readDir).foldlM (fun root entry => do
      let name := Text.octets entry.fileName
      if isSourceName name || (← entry.path.isDir) then
        copyEntry path (path.child name) name root
      else return root) root
  else return root

partial def complete (options : Options) (host : Host) (seen : List Path) : IO Host := do
  let asked := (Command.places options host).filter fun path => !seen.contains path
  if asked.isEmpty then return host
  else
    let root ← asked.foldlM copy host.files.root
    complete options { host with files := { host.files with root := root } } (seen ++ asked)

def carryOut (before after : Node) : IO Unit :=
  after.nodes.forM fun (location, node) => do
    let place := (Path.ofNames location).text
    match node, before.at? location with
    | .directory _, none => IO.FS.createDirAll place
    | .file content, some (.file held) =>
        if !(content == held) then IO.FS.writeBinFile place content
    | .file content, _ => IO.FS.writeBinFile place content
    | _, _ => return ()

def emptyHost : IO Host := do
  let current := namesOf (← IO.FS.realPath (← IO.currentDir)).toString
  let settings ← variableNames.filterMapM fun name => do
    return (← IO.getEnv name).map fun value => (name, Text.octets value)
  return {
    files := ⟨Node.put (.directory []) current (.directory []), current⟩
    settings := settings
    recordedHome := none
    inquiry := none }

def run (arguments : List String) : IO UInt32 := do
  let empty ← emptyHost
  let host ← match Options.read arguments empty.settings with
    | .ok options => complete options empty []
    | .error _ => pure empty
  let outcome := Command.run arguments host
  carryOut host.files.root outcome.files.root
  (← IO.getStdout).putStr outcome.output
  (← IO.getStderr).putStr outcome.errors
  return outcome.status.toUInt32

end GoTrace.Main

def main (arguments : List String) : IO UInt32 :=
  GoTrace.Main.run arguments
