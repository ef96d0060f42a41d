import GoTrace.Command.Error
import GoTrace.FileTree.Change
import GoTrace.Workspace.Loader
import GoTrace.Wrapper.File

/-!
# The generated file on disk

A file that is written to a directory joins the package of that directory. A file that is not
written joins the package of the first interface.
-/

namespace GoTrace

/-- A package name made from the name of a directory: other characters than letters, digits and the
underscore are replaced, and no digit comes first. -/
def packageNameOfDirectory (directory : List Char) : String :=
  let name := directory.map fun c => if Text.isAlphanumeric c || c = '_' then c else '_'
  String.ofList (if name.isEmpty || name.head?.any Char.isDigit then '_' :: name else name)

def directoryOf (file : Path) : Path :=
  match file.parent? with
  | some parent => if parent.octets.isEmpty then .dot else parent
  | none => .dot

/-- The name of a directory as it is shown, wherever its path goes through links. -/
def directoryName (files : FileSystem) (directory : Path) : String :=
  ((((files.canonical directory).toOption.getD directory).fileName?).map Text.shown).getD "main"

namespace OutputPackage

def ofDirectory (workspace : Workspace) (files : FileSystem) (directory : Path) : OutputPackage :=
  let name := directoryName files directory
  { name := (files.packageNameIn? directory).getD (packageNameOfDirectory name.toList)
    path := (workspace.importPath? files directory).getD name }

def choose (workspace : Workspace) (files : FileSystem) (output : Option Path)
    (name : Option String) (first : PackageRef) : OutputPackage :=
  let package := match output with
    | some file => ofDirectory workspace files (directoryOf file)
    | none => ⟨first.aliasName, first.path⟩
  { package with name := name.getD package.name }

end OutputPackage

def writeOutput (file : Path) (text : String) : ExceptT CommandError (StateM FileSystem) Unit := do
  match file.parent? with
  | some parent =>
      if parent.octets.isEmpty then pure ()
      else telling parent (FileAction.makeDirectories parent)
  | none => pure ()
  telling file (FileAction.write file text.toUTF8)
where
  telling (path : Path) (action : FileAction Unit) :
      ExceptT CommandError (StateM FileSystem) Unit :=
    action.adapt (.write path)

end GoTrace
