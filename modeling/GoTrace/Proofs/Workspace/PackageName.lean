import GoTrace.Proofs.Grammar.LegibleFile
import GoTrace.Proofs.Resolve.Depth
import GoTrace.Workspace.Loader

/-!
# What a package is called

A loader tells the name of a package in two ways: by reading its files only up to the first package
clause, and with the package as a whole. Both pass over other files: of a work space one skips what it
cannot read, the other what belongs to another package. They tell the same name.
-/

namespace GoTrace

/-! ## The first file of a package -/

theorem Package.exists_head_of_parse {loaded : LoadedPackage} {package : Package}
    (h : Package.parse loaded = .ok package) {unit : SourceUnit}
    (hunit : loaded.units.head? = some unit) :
    ∃ file, package.units.head? = some file ∧
      SourceFile.parse unit.text (some unit.fileName) = .ok file := by
  obtain ⟨path, name, units⟩ := loaded
  obtain ⟨rest, rfl⟩ := List.head?_eq_some_iff.mp hunit
  rw [Package.parse, List.mapM_cons] at h
  cases hfile : SourceFile.parse unit.text (some unit.fileName) with
  | error failure =>
      rw [hfile] at h
      cases h
  | ok file =>
      rw [hfile] at h
      refine ⟨file, ?_, rfl⟩
      cases hfiles : rest.mapM fun unit =>
          (SourceFile.parse unit.text (some unit.fileName)).mapError
            (Failure.map (ResolveError.parse unit.fileName)) with
      | error failure =>
          simp only [hfiles] at h
          cases h
      | ok files =>
          simp only [hfiles] at h
          cases h
          rfl

theorem packageNameOf_cons_of_parse {text : String} {sourceName : Option String} {file : SourceFile}
    (h : SourceFile.parse text sourceName = .ok file) (rest : List String) :
    packageNameOf (text :: rest) = some file.package.name := by
  rw [packageNameOf, List.findSome?_cons, SourceFile.packageName_of_parse h]
  rfl

/-! ## Libraries -/

namespace Library

/-- The library with the given files, each with the import path of its package. -/
def ofFiles (files : List (String × SourceUnit)) : Library :=
  files.foldl (fun library file => library.add file.1 file.2) empty

def Inhabits (library : Library) : Prop :=
  ∀ entry ∈ library.packages, entry.2 ≠ []

theorem forall_mem_go {path : String} {unit : SourceUnit}
    {packages : List (String × List SourceUnit)} (h : ∀ entry ∈ packages, entry.2 ≠ []) :
    ∀ entry ∈ add.go path unit packages, entry.2 ≠ [] := by
  induction packages with
  | nil => exact List.forall_mem_cons.mpr ⟨List.cons_ne_nil _ _, nofun⟩
  | cons first rest ih =>
      obtain ⟨hfirst, hrest⟩ := List.forall_mem_cons.mp h
      unfold add.go
      split
      · exact List.forall_mem_cons.mpr ⟨List.cons_ne_nil _ _, h⟩
      · split
        · exact List.forall_mem_cons.mpr ⟨by simp, hrest⟩
        · exact List.forall_mem_cons.mpr ⟨hfirst, ih hrest⟩

theorem inhabits_foldl_add (files : List (String × SourceUnit)) {library : Library}
    (h : library.Inhabits) :
    (files.foldl (fun library file => library.add file.1 file.2) library).Inhabits := by
  induction files generalizing library with
  | nil => exact h
  | cons file rest ih => exact ih (forall_mem_go h)

theorem units_ne_nil_of_ofFiles {files : List (String × SourceUnit)} {path : String}
    {units : List SourceUnit} (h : (ofFiles files).units? path = some units) : units ≠ [] :=
  have hempty : empty.Inhabits := nofun
  inhabits_foldl_add files hempty _ (mem_of_lookup h)

/-- The name that is told for a package of files that can be read is the one in the first of them. -/
theorem name_of_parse {files : List (String × SourceUnit)} {path : String} {loaded : LoadedPackage}
    (h : (ofFiles files).loader.load path = .ok (some loaded)) {package : Package}
    (hparse : Package.parse loaded = .ok package) :
    ∃ first, package.units.head? = some first ∧ first.package.name = package.name := by
  simp only [loader, Except.ok.injEq, Option.map_eq_some_iff] at h
  obtain ⟨units, hunits, rfl⟩ := h
  obtain ⟨unit, rest, rfl⟩ := List.exists_cons_of_ne_nil (units_ne_nil_of_ofFiles hunits)
  obtain ⟨file, hfile, hread⟩ := Package.exists_head_of_parse hparse rfl
  refine ⟨file, hfile, ?_⟩
  rw [(Package.parse_eq_ok hparse).2, List.map_cons, packageNameOf_cons_of_parse hread]
  rfl

end Library

/-! ## Work spaces -/

namespace FileSystem

section

variable {package : Option String} {unit : SourceUnit} {name : String} (rest : List SourceUnit)

theorem belonging_of_ignored (h : isIgnored unit.text = true) :
    belonging package (unit :: rest) = belonging package rest := by
  rw [belonging.eq_def]
  dsimp only
  rw [if_pos h]

variable (h : isIgnored unit.text = false)

include h

theorem belonging_of_untold (hname : (SourceFile.packageName unit.text).toOption = none) :
    belonging package (unit :: rest) = unit :: belonging package rest := by
  rw [belonging.eq_def]
  dsimp only
  rw [if_neg (by rw [h]; nofun), hname]
  cases package <;> rfl

theorem belonging_of_told (hname : (SourceFile.packageName unit.text).toOption = some name) :
    belonging none (unit :: rest) = unit :: belonging (some name) rest := by
  rw [belonging.eq_def]
  dsimp only
  rw [if_neg (by rw [h]; nofun), hname]

theorem belonging_of_told_again {first : String}
    (hname : (SourceFile.packageName unit.text).toOption = some name) :
    belonging (some first) (unit :: rest) =
      if first = name then unit :: belonging (some first) rest
      else belonging (some first) rest := by
  rw [belonging.eq_def]
  dsimp only
  rw [if_neg (by rw [h]; nofun), hname]

end

/-- The name of its package that a source tells, unless it is excluded from every build. -/
def toldName (text : String) : Option String :=
  if isIgnored text then none else (SourceFile.packageName text).toOption

theorem packageNameOf_belonging (units : List SourceUnit) :
    packageNameOf ((belonging none units).map (·.text)) =
      units.findSome? fun unit => toldName unit.text := by
  induction units with
  | nil => rfl
  | cons unit rest ih =>
      rw [List.findSome?_cons, toldName]
      cases hignored : isIgnored unit.text with
      | true =>
          rw [belonging_of_ignored rest hignored]
          exact ih
      | false =>
          cases hname : (SourceFile.packageName unit.text).toOption with
          | none =>
              rw [belonging_of_untold rest hignored hname, List.map_cons, packageNameOf,
                List.findSome?_cons, hname]
              exact ih
          | some name =>
              rw [belonging_of_told rest hignored hname, List.map_cons, packageNameOf,
                List.findSome?_cons, hname]
              rfl

theorem eq_of_mem_belonging {first name : String} {units : List SourceUnit} {unit : SourceUnit}
    (h : unit ∈ belonging (some first) units)
    (htold : (SourceFile.packageName unit.text).toOption = some name) : name = first := by
  induction units with
  | nil => cases h
  | cons other rest ih =>
      cases hignored : isIgnored other.text with
      | true =>
          rw [belonging_of_ignored rest hignored] at h
          exact ih h
      | false =>
          cases hname : (SourceFile.packageName other.text).toOption with
          | none =>
              rw [belonging_of_untold rest hignored hname] at h
              rcases List.mem_cons.mp h with rfl | hmem
              · rw [hname] at htold
                cases htold
              · exact ih hmem
          | some told =>
              rw [belonging_of_told_again rest hignored hname] at h
              split at h
              · rename_i heq
                rcases List.mem_cons.mp h with rfl | hmem
                · rw [hname] at htold
                  cases htold
                  exact heq.symm
                · exact ih hmem
              · exact ih h

theorem packageNameOf_of_mem_belonging {units : List SourceUnit} {unit : SourceUnit}
    (h : unit ∈ belonging none units) {name : String}
    (htold : (SourceFile.packageName unit.text).toOption = some name) :
    packageNameOf ((belonging none units).map (·.text)) = some name := by
  induction units with
  | nil => cases h
  | cons other rest ih =>
      cases hignored : isIgnored other.text with
      | true =>
          rw [belonging_of_ignored rest hignored] at h ⊢
          exact ih h
      | false =>
          cases hname : (SourceFile.packageName other.text).toOption with
          | none =>
              rw [belonging_of_untold rest hignored hname] at h ⊢
              rw [List.map_cons, packageNameOf, List.findSome?_cons, hname]
              rcases List.mem_cons.mp h with rfl | hmem
              · rw [hname] at htold
                cases htold
              · exact ih hmem
          | some first =>
              rw [belonging_of_told rest hignored hname] at h ⊢
              rw [List.map_cons, packageNameOf, List.findSome?_cons, hname]
              rcases List.mem_cons.mp h with rfl | hmem
              · rw [← hname, htold]
              · rw [eq_of_mem_belonging hmem htold]

def readUnit (files : FileSystem) (file : Path) : Except ResolveError SourceUnit :=
  (onPath file (files.readText file)).map fun text => ⟨file.text, text⟩

theorem text_of_readUnit {files : FileSystem} {file : Path} {unit : SourceUnit}
    (h : files.readUnit file = .ok unit) : files.readText file = .ok unit.text := by
  unfold readUnit onPath at h
  cases htext : files.readText file with
  | error cause =>
      rw [htext] at h
      cases h
  | ok text =>
      rw [htext] at h
      cases h
      rfl

theorem exists_of_packageSources {files : FileSystem} {directory : Path} {found : List SourceUnit}
    (h : files.packageSources directory = .ok found) :
    ∃ sources units, files.sourceFiles directory = .ok sources ∧
      sources.mapM files.readUnit = .ok units ∧ found = belonging none units := by
  unfold packageSources at h
  cases hsources : files.sourceFiles directory with
  | error cause =>
      rw [hsources] at h
      cases h
  | ok sources =>
      rw [hsources] at h
      change (sources.mapM files.readUnit >>= fun units => pure (belonging none units)) = _ at h
      cases hunits : sources.mapM files.readUnit with
      | error cause =>
          rw [hunits] at h
          cases h
      | ok units =>
          rw [hunits] at h
          cases h
          exact ⟨sources, units, rfl, hunits, rfl⟩

/-- The first name that is told is the same whether the files are read one by one until it is told, or
all of them first. -/
theorem findSome?_of_mapM {files : FileSystem} {sources : List Path} {units : List SourceUnit}
    (h : sources.mapM files.readUnit = .ok units) :
    (sources.findSome? fun file => (files.readText file).toOption.bind toldName) =
      units.findSome? fun unit => toldName unit.text := by
  induction sources generalizing units with
  | nil =>
      cases h
      rfl
  | cons file rest ih =>
      rw [List.mapM_cons] at h
      cases hunit : files.readUnit file with
      | error cause =>
          rw [hunit] at h
          cases h
      | ok unit =>
          cases hrest : rest.mapM files.readUnit with
          | error cause =>
              rw [hunit, hrest] at h
              cases h
          | ok others =>
              rw [hunit, hrest] at h
              cases h
              rw [List.findSome?_cons, List.findSome?_cons, ih hrest, text_of_readUnit hunit]
              rfl

end FileSystem

namespace Workspace

variable {workspace : Workspace} {files : FileSystem} {path : String} {loaded : LoadedPackage}

theorem exists_of_load (h : workspace.load files path = .ok (some loaded)) :
    ∃ directory units, workspace.directory? files path = some directory ∧
      files.packageSources directory = .ok units ∧ units ≠ [] ∧
        loaded = ⟨path, (packageNameOf (units.map (·.text))).getD (fallbackName path), units⟩ := by
  unfold load at h
  split at h
  · cases h
  · rename_i directory hdirectory
    cases hunits : files.packageSources directory with
    | error cause =>
        rw [hunits] at h
        cases h
    | ok units =>
        rw [hunits] at h
        simp only [Except.map, Except.ok.injEq, assemble, Option.ite_none_left_eq_some,
          Option.some.injEq, List.isEmpty_iff] at h
        exact ⟨directory, units, hdirectory, hunits, h.1, h.2.symm⟩

theorem locate_of_sources {directory : Path} {sources : List Path}
    (hdirectory : workspace.directory? files path = some directory)
    (hsources : files.sourceFiles directory = .ok sources) (hne : sources ≠ []) :
    workspace.locate files path =
      some ⟨path, sources.findSome? fun file =>
        (files.readText file).toOption.bind FileSystem.toldName⟩ := by
  have hok : (files.sourceFiles directory).toOption = some sources := by
    rw [hsources]
    rfl
  rw [locate, hdirectory]
  change ((files.sourceFiles directory).toOption.bind fun sources => _) = _
  rw [hok, Option.bind_some, if_neg (by rwa [List.isEmpty_iff])]
  rfl

/-- A package that is loaded is located, under the name that it is loaded with. -/
theorem nameOf_of_load (h : workspace.load files path = .ok (some loaded)) :
    (workspace.loader files).nameOf path = some loaded.name := by
  obtain ⟨directory, found, hdirectory, hfound, hne, rfl⟩ := exists_of_load h
  obtain ⟨sources, units, hsources, hunits, rfl⟩ := FileSystem.exists_of_packageSources hfound
  have hsome : sources ≠ [] := by
    rintro rfl
    cases hunits
    exact hne rfl
  have hlocate := locate_of_sources hdirectory hsources hsome
  rw [FileSystem.findSome?_of_mapM hunits, ← FileSystem.packageNameOf_belonging] at hlocate
  change (workspace.locate files path).map _ = _
  rw [hlocate]
  rfl

/-- Every file of a package that can be parsed tells the name that the package is loaded with. -/
theorem name_of_parse (h : workspace.load files path = .ok (some loaded)) {package : Package}
    (hparse : Package.parse loaded = .ok package) :
    package.units ≠ [] ∧ ∀ file ∈ package.units, file.package.name = package.name := by
  obtain ⟨directory, found, -, hfound, hne, rfl⟩ := exists_of_load h
  obtain ⟨sources, units, -, -, rfl⟩ := FileSystem.exists_of_packageSources hfound
  constructor
  · obtain ⟨unit, rest, hunits⟩ := List.exists_cons_of_ne_nil hne
    obtain ⟨file, hfile, -⟩ := Package.exists_head_of_parse hparse (by rw [hunits]; rfl)
    exact List.ne_nil_of_mem (List.mem_of_mem_head? hfile)
  · intro file hfile
    obtain ⟨unit, hunit, hread⟩ := Package.exists_parse_of_mem hparse hfile
    have htold : (SourceFile.packageName unit.text).toOption = some file.package.name := by
      rw [SourceFile.packageName_of_parse hread]
      rfl
    rw [(Package.parse_eq_ok hparse).2, FileSystem.packageNameOf_of_mem_belonging hunit htold]
    rfl

end Workspace

/-! ## Both ways tell one name -/

/-- A file that is read has the name that its package clause alone tells. A package that is loaded,
from a library or from a work space, is located under the same name, and when its files can be parsed
it is the name in the first of them; in a work space it is the name in all of them. -/
theorem packageNames_agree :
    (∀ {text : String} {sourceName : Option String} {file : SourceFile},
      SourceFile.parse text sourceName = .ok file →
        SourceFile.packageName text = .ok file.package.name) ∧
    (∀ {files : List (String × SourceUnit)} {path : String} {loaded : LoadedPackage},
      (Library.ofFiles files).loader.load path = .ok (some loaded) →
        (Library.ofFiles files).loader.nameOf path = some loaded.name ∧
          ∀ {package : Package}, Package.parse loaded = .ok package →
            ∃ first, package.units.head? = some first ∧ first.package.name = package.name) ∧
    ∀ {workspace : Workspace} {files : FileSystem} {path : String} {loaded : LoadedPackage},
      (workspace.loader files).load path = .ok (some loaded) →
        (workspace.loader files).nameOf path = some loaded.name ∧
          ∀ {package : Package}, Package.parse loaded = .ok package →
            package.units ≠ [] ∧ ∀ file ∈ package.units, file.package.name = package.name :=
  ⟨SourceFile.packageName_of_parse,
    fun h => ⟨(Library.ofFiles _).steady.name h, fun hparse => Library.name_of_parse h hparse⟩,
    fun h => ⟨Workspace.nameOf_of_load h, fun hparse => Workspace.name_of_parse h hparse⟩⟩

/-! ## A directory with files of two packages -/

theorem FileSystem.sourceFiles_of_sorted {files : FileSystem} {directory : Path}
    {names : List FileName} (hnames : files.list directory = .ok names)
    (hsorted : (names.filter fun name =>
      isSourceName name && files.isFile (directory.child name)).Pairwise (atMost · ·)) :
    files.sourceFiles directory = .ok ((names.filter fun name =>
      isSourceName name && files.isFile (directory.child name)).map directory.child) := by
  rw [sourceFiles, hnames]
  exact congrArg (fun sorted => Except.ok (sorted.map directory.child))
    (List.mergeSort_of_pairwise hsorted)

/-- A directory with a file that is left out of every build, and with files of two packages. -/
def FileSystem.mixed : FileSystem where
  root :=
    let file (text : String) : Node := .file text.toUTF8
    .directory [(Text.octets "src", .directory [(Text.octets "a", .directory
      [(Text.octets "a.go", file "//go:build ignore\npackage main"), (Text.octets "b.go", file "package b"),
        (Text.octets "c.go", file "package c")])])]
  current := []

/-- A work space at the root of all files, without a module. -/
def Workspace.atRoot : Workspace := ⟨none, ⟨none, [.ofText "/"], none⟩⟩

theorem Workspace.load_mixed :
    (atRoot.loader FileSystem.mixed).load "a" =
      .ok (some ⟨"a", "b", [⟨"/src/a/b.go", "package b"⟩]⟩) := by
  have hdirectory : atRoot.directory? FileSystem.mixed "a" = some (.ofText "/src/a") := by
    decide +kernel
  have hnames : FileSystem.mixed.list (.ofText "/src/a") =
      .ok (["a.go", "b.go", "c.go"].map Text.octets) := by
    decide +kernel
  have hsources := FileSystem.sourceFiles_of_sorted hnames (by decide +kernel)
  change atRoot.load FileSystem.mixed "a" = _
  rw [load, hdirectory]
  dsimp only
  rw [FileSystem.packageSources, hsources]
  decide +kernel

theorem packageNames_agree_mixed :
    SourceFile.packageName "package b" = .ok "b" ∧
      (Library.ofFiles [("a", ⟨"b.go", "package b"⟩)]).loader.nameOf "a" = some "b" ∧
      (Workspace.atRoot.loader FileSystem.mixed).nameOf "a" = some "b" ∧
        ∃ package : Package,
          Package.parse ⟨"a", "b", [⟨"/src/a/b.go", "package b"⟩]⟩ = .ok package ∧
            package.units ≠ [] ∧ ∀ file ∈ package.units, file.package.name = package.name := by
  obtain ⟨hfile, hlibrary, hworkspace⟩ := packageNames_agree
  have hchecks : ((SourceFile.parse "package b" none).toOption.any fun file =>
      decide (file.package.name = "b") &&
        (Package.parse ⟨"a", "b", [⟨"/src/a/b.go", "package b"⟩]⟩).toOption.any fun _ =>
          true) = true := by
    decide +kernel
  obtain ⟨file, hread, hchecks⟩ := Resolution.exists_of_any_toOption hchecks
  obtain ⟨hname, hchecks⟩ := Bool.and_eq_true_iff.mp hchecks
  obtain ⟨package, hparse, -⟩ := Resolution.exists_of_any_toOption hchecks
  have hload : (Library.ofFiles [("a", ⟨"b.go", "package b"⟩)]).loader.load "a" =
      .ok (some ⟨"a", "b", [⟨"b.go", "package b"⟩]⟩) := by
    decide +kernel
  obtain ⟨hnameOf, hfirst⟩ := hworkspace Workspace.load_mixed
  refine ⟨?_, (hlibrary hload).1, hnameOf, package, hparse, hfirst hparse⟩
  rw [hfile hread, of_decide_eq_true hname]

end GoTrace
