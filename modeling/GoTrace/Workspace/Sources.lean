import GoTrace.FileTree.Walk
import GoTrace.Resolve.Loader

/-!
# The sources of a directory

The files of a package are the source files of its directory, less tests, files that a build
constraint excludes, and files that name another package than the first file does.
-/

namespace GoTrace

/-- Whether a source is excluded from every build: its first build constraint, which stands before
the package clause, is `ignore`. -/
def isIgnored (source : String) : Bool :=
  go (Text.lines source.toList)
where
  go : List (List Char) → Bool
    | [] => false
    | line :: rest =>
        let line := Text.trim line
        if line.isEmpty || "/*".toList.isPrefixOf line || ['*'].isPrefixOf line then go rest
        else
          match Text.dropPrefix? "//".toList line with
          | none => false
          | some comment =>
              match Text.dropPrefix? "go:build".toList comment with
              | some expression => Text.trim expression = "ignore".toList
              | none => go rest

/-- Whether a file of this name holds source code that is not a test. A name that is no text names no
source. -/
def isSourceName (name : FileName) : Bool :=
  (Text.ofOctets? name).any fun text =>
    ".go".toList.isSuffixOf text.toList && !"_test.go".toList.isSuffixOf text.toList

def atMost (first second : FileName) : Bool :=
  !(second < first)

namespace FileSystem

def onPath {α : Type} (path : Path) (result : Except FileError α) : Except ResolveError α :=
  result.mapError (.io path.text)

def sourceFiles (files : FileSystem) (directory : Path) : Except ResolveError (List Path) := do
  let names ← onPath directory (files.list directory)
  let sources := names.filter fun name =>
    isSourceName name && files.isFile (directory.child name)
  return (sources.mergeSort atMost).map directory.child

/-- The files that belong to one package, of files in the order of their names. `package` is the
name of that package, once a file has told it. -/
def belonging (package : Option String) : List SourceUnit → List SourceUnit
  | [] => []
  | unit :: rest =>
      if isIgnored unit.text then belonging package rest
      else
        match package, (SourceFile.packageName unit.text).toOption with
        | some first, some name =>
            if first = name then unit :: belonging package rest else belonging package rest
        | none, some name => unit :: belonging (some name) rest
        | _, none => unit :: belonging package rest

/-- The source files of the package in a directory. A file that cannot be read is an error, whether
or not it belongs to the package. -/
def packageSources (files : FileSystem) (directory : Path) :
    Except ResolveError (List SourceUnit) := do
  let sources ← files.sourceFiles directory
  let units ← sources.mapM fun file =>
    (onPath file (files.readText file)).map fun text => (⟨file.text, text⟩ : SourceUnit)
  return belonging none units

def packageNameIn? (files : FileSystem) (directory : Path) : Option String := do
  let units ← (files.packageSources directory).toOption
  packageNameOf (units.map (·.text))

end FileSystem

end GoTrace
