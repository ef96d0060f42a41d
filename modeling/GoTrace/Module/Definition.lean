import GoTrace.FileTree.Path
import GoTrace.Literal.Unquote

/-!
# Module files

A module file names a module, the versions of other modules that it requires, and what replaces
them. It is read line by line: a line is a directive of its own, or opens a block of directives that
share its verb, or stands in such a block. Directives of other verbs say nothing about packages.
-/

namespace GoTrace

/-- Another module that is needed, at a version. -/
structure Requirement where
  path : String
  version : String
deriving DecidableEq, Repr, Inhabited

/-- What takes the place of a module. -/
inductive ReplacementTarget where
  | directory (path : Path)
  | module (path version : String)
deriving DecidableEq, Repr

/-- A module whose packages come from elsewhere. -/
structure Replacement where
  path : String
  target : ReplacementTarget
deriving DecidableEq, Repr

/-- A module: its path, its root directory, and where the packages of other modules come from. -/
structure GoModule where
  path : String
  root : Path
  requires : List Requirement
  replaces : List Replacement
deriving DecidableEq, Repr

namespace GoModule

/-- A directive that says where packages come from. -/
inductive Directive where
  | requires (requirement : Requirement)
  | replaces (replacement : Replacement)
deriving DecidableEq, Repr

def token (text : List Char) : String :=
  (Literal.unquote? text).getD (String.ofList text)

def tokens (text : List Char) : List String :=
  (Text.words text).map token

def target? : List String → Option ReplacementTarget
  | [directory] => some (.directory (.ofText directory))
  | [path, version] => some (.module path version)
  | _ => none

/-- The directive with the given verb and arguments. What follows the version of a requirement says
nothing, and neither does what follows the path of a replaced module. -/
def Directive.read? (verb arguments : List Char) : Option Directive :=
  if verb = "require".toList then
    match tokens arguments with
    | path :: version :: _ => some (.requires ⟨path, version⟩)
    | _ => none
  else if verb = "replace".toList then do
    let (left, right) ← Text.cutAt? "=>".toList arguments
    let path ← (tokens left).head?
    let target ← target? (tokens right)
    some (.replaces ⟨path, target⟩)
  else none

/-- What the lines up to some line say. -/
structure Draft where
  path : Option String
  block : Option (List Char)
  directives : List Directive
deriving Repr

namespace Draft

def empty : Draft := ⟨none, none, []⟩

def add (draft : Draft) (directive : Option Directive) : Draft :=
  { draft with directives := draft.directives ++ directive.toList }

/-- With a line that has no comment, no white space around it and is not empty. -/
def readLine (draft : Draft) (line : List Char) : Draft :=
  match draft.block with
  | some verb =>
      if line = [')'] then { draft with block := none }
      else draft.add (Directive.read? verb line)
  | none =>
      let (verb, rest) := (Text.cutBy? Text.isBlank line).getD (line, [])
      let arguments := Text.trim rest
      if verb = "module".toList then { draft with path := some (token arguments) }
      else if arguments = ['('] then { draft with block := some verb }
      else draft.add (Directive.read? verb arguments)

end Draft

def content (line : List Char) : List Char :=
  Text.trim (((Text.cutAt? "//".toList line).map (·.1)).getD line)

/-- Reads the text of a module file in the directory `root`. A text that names no module has no
meaning. -/
def parse (root : Path) (text : String) : Option GoModule :=
  let lines := ((Text.lines text.toList).map content).filter fun line => !line.isEmpty
  let draft := lines.foldl Draft.readLine Draft.empty
  draft.path.map fun path =>
    { path := path
      root := root
      requires := draft.directives.filterMap fun
        | .requires requirement => some requirement
        | .replaces _ => none
      replaces := draft.directives.filterMap fun
        | .requires _ => none
        | .replaces replacement => some replacement }

/-- What follows `outer` in an import path that is `outer` or lies below it. -/
def below? (outer path : List Char) : Option (List Char) :=
  if path = outer then some []
  else (Text.dropPrefix? outer path).bind (Text.dropPrefix? ['/'])

/-- The entry with the longest path at or above an import path, the last one among equals, and what
follows the path of the entry. -/
def longestMatch? {α : Type} (pathOf : α → String) (entries : List α) (path : String) :
    Option (α × List Char) :=
  entries.foldl
    (fun best entry =>
      match below? (pathOf entry).toList path.toList with
      | none => best
      | some rest =>
          match best with
          | some (held, _) =>
              if (pathOf entry).length < (pathOf held).length then best
              else some (entry, rest)
          | none => some (entry, rest))
    none

/-- A path or version as the module cache spells it: an exclamation mark and the lower case form in
place of each upper case letter, so that no two names differ by case alone. -/
def escape (text : String) : String :=
  String.ofList (text.toList.flatMap fun c => if c.isUpper then ['!', c.toLower] else [c])

end GoModule

end GoTrace
