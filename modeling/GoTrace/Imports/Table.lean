import GoTrace.Collection.Roster
import GoTrace.Resolve.Loader

/-!
# Import tables

The aliases that one file can use for other packages, each with the import path behind it. Imports
that end up under one alias are folded into one entry: the first path counts, further ones are kept
for reporting.
-/

namespace GoTrace

/-- An alias as one file sees it. -/
structure ImportedPackage where
  aliasName : String
  path : String
  /-- Further paths imported under the same alias, which are never referred to. -/
  duplicates : List String
deriving DecidableEq, Repr, Inhabited

namespace ImportedPackage

def fold (entry : ImportedPackage) (path : String) : ImportedPackage :=
  if entry.path = path || entry.duplicates.contains path then entry
  else { entry with duplicates := entry.duplicates ++ [path] }

theorem fold_aliasName (entry : ImportedPackage) (path : String) :
    (entry.fold path).aliasName = entry.aliasName := by
  unfold fold
  split <;> rfl

def foldUnder (aliasName path : String) (entry : ImportedPackage) : ImportedPackage :=
  if entry.aliasName = aliasName then entry.fold path else entry

theorem foldUnder_aliasName (aliasName path : String) (entry : ImportedPackage) :
    (foldUnder aliasName path entry).aliasName = entry.aliasName := by
  unfold foldUnder
  split
  · exact entry.fold_aliasName path
  · rfl

end ImportedPackage

abbrev ImportTable := Roster ImportedPackage.aliasName

namespace ImportTable

def insert (table : ImportTable) (aliasName path : String) : ImportTable :=
  if table.contains aliasName then
    table.mapItems (ImportedPackage.foldUnder aliasName path)
      (ImportedPackage.foldUnder_aliasName aliasName path)
  else table.addIfAbsent ⟨aliasName, path, []⟩

def pathOf (table : ImportTable) (aliasName : String) : Option String :=
  (table.get? aliasName).map (·.path)

def aliasOf (table : ImportTable) (path : String) : Option String :=
  (table.items.find? fun entry => entry.path = path).map (·.aliasName)

end ImportTable

namespace ImportSpec

/-- Whether the import brings an alias into its file. The pseudo package `C` does not, and neither
does a package under a blank or a dot. -/
def bindsAlias (spec : ImportSpec) : Bool :=
  spec.path ≠ "C" && spec.name ≠ some .blank && spec.name ≠ some .dot

/-- Whether the alias has to come from the package itself. -/
def needsName (spec : ImportSpec) : Bool :=
  spec.name = none && spec.path ≠ "C"

def aliasBy (spec : ImportSpec) (nameOf : String → Option String) : String :=
  match spec.name with
  | some (.named aliasName) => aliasName
  | _ => (nameOf spec.path).getD (fallbackName spec.path)

end ImportSpec

def ImportTable.ofSpecs (specs : List ImportSpec) (nameOf : String → Option String) : ImportTable :=
  (specs.filter ImportSpec.bindsAlias).foldl
    (fun table spec => table.insert (spec.aliasBy nameOf) spec.path) Roster.empty

/-- How far a look-up of names has come: the names that were found, the paths without a package, and
every path that the loader was asked for. -/
structure NameSearch where
  names : List (String × String)
  missing : List String
  asked : List String

namespace NameSearch

/-- Asks for one more path, unless it was asked for before. A package that does not tell its name is
called by its path. -/
def look (loader : Loader) (search : NameSearch) (path : String) : NameSearch :=
  if (search.names.lookup path).isSome || search.missing.contains path then search
  else
    let asked := search.asked ++ [path]
    match loader.locate path with
    | some info =>
        { search with
          names := search.names ++ [(path, info.name.getD (fallbackName path))]
          asked := asked }
    | none => { search with missing := search.missing ++ [path], asked := asked }

def among (loader : Loader) (paths : List String) : NameSearch :=
  paths.foldl (look loader) ⟨[], [], []⟩

def result (search : NameSearch) : Except ResolveError (List (String × String)) :=
  if search.missing.isEmpty then .ok search.names else .error (.load search.missing)

end NameSearch

def Loader.namesOf (loader : Loader) (paths : List String) :
    Except ResolveError (List (String × String)) :=
  (NameSearch.among loader paths).result

def ImportTable.resolve (loader : Loader) (specs : List ImportSpec) :
    Except ResolveError ImportTable :=
  (loader.namesOf ((specs.filter ImportSpec.needsName).map (·.path))).map fun names =>
    ImportTable.ofSpecs specs fun path => names.lookup path

end GoTrace
