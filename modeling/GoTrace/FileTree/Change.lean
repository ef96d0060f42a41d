import GoTrace.FileTree.Walk

/-!
# Changing files

Making directories and writing files. An action that fails keeps what it has done up to then.
-/

namespace GoTrace

abbrev FileAction := ExceptT FileError (StateM FileSystem)

namespace FileAction

def put (location : Location) (new : Node) : FileAction Unit :=
  modify fun files => { files with root := Node.put new location files.root }

/-- Splits strides into those to a directory and the name of an entry in it. -/
def lastEntry? (strides : List Stride) : Option (List Stride × FileName) :=
  match (strides.reverse.dropWhile (· = .settle)) with
  | .enter name :: before => some (before.reverse, name)
  | _ => none

/-- Makes one directory. Its parent must be there, and nothing may have its name. -/
def makeDirectory (path : Path) : FileAction Unit := do
  ofExcept (FileSystem.checkPath path)
  let files ← get
  let start := FileSystem.startOf path files.current
  match lastEntry? path.strides with
  | none => do
      let _ ← ofExcept (files.walk .existing FileSystem.linkLimit start path.strides)
      throw .alreadyExists
  | some (before, name) => do
      let parent ← ofExcept (files.walk .existing FileSystem.linkLimit start before)
      match files.root.at? parent with
      | some (.directory entries) =>
          if FileSystem.isTooLong name then throw .nameTooLong
          else if (entries.lookup name).isSome then throw .alreadyExists
          else put (parent ++ [name]) (.directory [])
      | some _ => throw .notADirectory
      | none => throw .notFound
where
  ofExcept {α : Type} : Except FileError α → FileAction α
    | .ok value => pure value
    | .error cause => throw cause

/-- Makes the first of the given directories, and those of the others that it needs. Each path is
the parent of the one before. -/
def makeChain : List Path → FileAction Unit
  | [] => throw .notFound
  | path :: above =>
      if path.octets.isEmpty then pure ()
      else
        let unlessThere (cause : FileError) : FileAction Unit := do
          if (← get).isDirectory path then pure () else throw cause
        tryCatch (makeDirectory path) fun cause =>
          if cause = .notFound then do
            makeChain above
            tryCatch (makeDirectory path) unlessThere
          else unlessThere cause

def makeDirectories (path : Path) : FileAction Unit :=
  makeChain path.ancestors

def write (path : Path) (content : ByteArray) : FileAction Unit := do
  let files ← get
  match files.locate .toWrite path with
  | .error cause => throw cause
  | .ok location =>
      match files.root.at? location with
      | some (.directory _) => throw .isADirectory
      | _ => put location (.file content)

end FileAction

end GoTrace
