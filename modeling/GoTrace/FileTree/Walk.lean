import GoTrace.FileTree.Node

/-!
# Following paths

A path is followed from a directory on, one stride for each segment. Symbolic links on the way are
followed too, up to a fixed number of them, so every walk ends. A walk can fail for one of the reasons
that the system gives.
-/

namespace GoTrace

/-! ## Errors of the file system -/

/-- Why an operation on a file or directory failed. -/
inductive FileError where
  | notFound
  | alreadyExists
  | notADirectory
  | isADirectory
  | tooManyLinks
  | nameTooLong
  | zeroInName
  /-- The bytes of a file that was read as text are not UTF-8. -/
  | notText
deriving DecidableEq, Repr

def FileError.message : FileError → String
  | notFound => "No such file or directory (os error 2)"
  | alreadyExists => "File exists (os error 17)"
  | notADirectory => "Not a directory (os error 20)"
  | isADirectory => "Is a directory (os error 21)"
  | tooManyLinks => "Too many levels of symbolic links (os error 40)"
  | nameTooLong => "File name too long (os error 36)"
  | zeroInName => "file name contained an unexpected NUL byte"
  | notText => "stream did not contain valid UTF-8"

/-! ## Walks -/

/-- One stride of a walk. -/
inductive Stride where
  | enter (name : FileName)
  /-- To the directory above; the root is above itself. -/
  | up
  /-- Nowhere, but the walk must have come to a directory. -/
  | stay
  /-- Nowhere, as for `stay`: this one stands for a slash at the end of a path. -/
  | settle
deriving DecidableEq, Repr

def Path.strides (path : Path) : List Stride :=
  let inner := path.segments.filterMap fun segment =>
    if segment.isEmpty then none
    else if segment = [Octet.dot] then some .stay
    else if segment = [Octet.dot, Octet.dot] then some .up
    else some (.enter segment)
  if !inner.isEmpty && path.octets.getLast? = some Octet.slash then inner ++ [.settle] else inner

/-- A tree of files, and the directory that relative paths start from. -/
structure FileSystem where
  root : Node
  current : Location
deriving Inhabited

/-- What the last name of a path may stand for. -/
inductive LastName where
  | existing
  | toWrite
deriving DecidableEq, Repr

namespace FileSystem

def linkLimit : Nat := 40

def nameLimit : Nat := 255

def pathLimit : Nat := 4095

def isTooLong (name : FileName) : Bool :=
  nameLimit < name.length

def checkPath (path : Path) : Except FileError Unit :=
  if path.octets.contains 0 then .error .zeroInName
  else if path.octets.isEmpty then .error .notFound
  else if pathLimit < path.octets.length then .error .nameTooLong
  else .ok ()

def startOf (path : Path) (origin : Location) : Location :=
  if path.isAbsolute then [] else origin

/-- Walks from `origin`. A link is left to `follow`, which is given its directory, its target and
what is to be walked after it. -/
def walkWith (files : FileSystem) (last : LastName)
    (follow : Location → Path → List Stride → Except FileError Location) :
    Location → List Stride → Except FileError Location
  | origin, [] => .ok origin
  | origin, stride :: rest =>
      match files.root.at? origin with
      | none => .error .notFound
      | some (.directory entries) =>
          match stride with
          | .stay | .settle => walkWith files last follow origin rest
          | .up => walkWith files last follow origin.dropLast rest
          | .enter name =>
              if last = .toWrite ∧ rest = [.settle] then .error .isADirectory
              else if isTooLong name then .error .nameTooLong
              else
                match entries.lookup name with
                | some (.link target) => follow origin target rest
                | some _ => walkWith files last follow (origin ++ [name]) rest
                | none =>
                    if last = .toWrite ∧ rest = [] then .ok (origin ++ [name])
                    else .error .notFound
      | some _ => .error .notADirectory

def walk (files : FileSystem) (last : LastName) (links : Nat) :
    Location → List Stride → Except FileError Location :=
  walkWith files last fun origin target rest =>
    match links with
    | 0 => .error .tooManyLinks
    | links + 1 => walk files last links (startOf target origin) (target.strides ++ rest)

def locate (files : FileSystem) (last : LastName) (path : Path) : Except FileError Location := do
  checkPath path
  files.walk last linkLimit (startOf path files.current) path.strides

def node (files : FileSystem) (path : Path) : Except FileError Node := do
  let location ← files.locate .existing path
  match files.root.at? location with
  | some node => .ok node
  | none => .error .notFound

def holds (files : FileSystem) (path : Path) : Bool :=
  (files.node path).toBool

def isDirectory (files : FileSystem) (path : Path) : Bool :=
  (files.node path).toOption.any Node.isDirectory

def isFile (files : FileSystem) (path : Path) : Bool :=
  (files.node path).toOption.any Node.isFile

/-- The path of the same node from the root, without links. It is found name by name, so there is no
limit to the length of the whole path. -/
def canonical (files : FileSystem) (path : Path) : Except FileError Path :=
  match checkPath path with
  | .ok () | .error .nameTooLong =>
      (files.walk .existing linkLimit (startOf path files.current) path.strides).map Path.ofNames
  | .error cause => .error cause

def readText (files : FileSystem) (path : Path) : Except FileError String := do
  match ← files.node path with
  | .file content =>
      match String.fromUTF8? content with
      | some text => .ok text
      | none => .error .notText
  | _ => .error .isADirectory

def list (files : FileSystem) (path : Path) : Except FileError (List FileName) := do
  match ← files.node path with
  | .directory entries => .ok (entries.map (·.1))
  | _ => .error .notADirectory

/-- The nearest of the given directories that is there, and the names that are missing below it.
Each path is the parent of the one before. A path that ends without a name is not left. -/
def deepest (files : FileSystem) : List Path → List FileName → Path × List FileName
  | [], missing => (.empty, missing)
  | [path], missing => (path, missing)
  | path :: above, missing =>
      if files.holds path then (path, missing)
      else
        match path.fileName? with
        | some name => files.deepest above (name :: missing)
        | none => (path, missing)

/-- The path from the root, without links and steps up, of what a path leads to or would lead to if
its missing directories were made. -/
def absolute (files : FileSystem) (path : Path) : Path :=
  match files.canonical path with
  | .ok found => found
  | .error _ =>
      let joined := if path.isAbsolute then path else (Path.ofNames files.current).join path
      let (existing, missing) := files.deepest joined.ancestors []
      let start := ((files.canonical existing).toOption).getD existing
      Path.normal (missing.foldl Path.child start).components

end FileSystem

end GoTrace
