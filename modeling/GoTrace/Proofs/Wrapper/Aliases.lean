import Mathlib.Data.List.Find
import Mathlib.Data.List.Nodup
import GoTrace.Proofs.Imports.Table
import GoTrace.Proofs.Wrapper.ReadBack

/-!
# Aliases that are left out

A generated file leaves the alias of an import out when it is the last segment of the path. Who reads
the file then calls the package by the name in its package clause, and that need not be the last
segment. Here it is said for which imports the two agree.
-/

namespace GoTrace

open Lexeme Grammar Resolution

namespace FileImports

/-- What a file calls a package whose import is read as `line`, where `nameOf` tells the names of
packages. -/
def knownAs (nameOf : String → Option String) (line : Option ImportName × String) :
    Option String :=
  if line.2 = "C" then none
  else
    match line.1 with
    | none => some ((nameOf line.2).getD (fallbackName line.2))
    | some (.named aliasName) => some aliasName
    | some _ => none

theorem knownAs_specRead (nameOf : String → Option String) (spec : ImportSpec) (aliasName : String) :
    (spec.bindsAlias = true ∧ spec.aliasBy nameOf = aliasName) ↔
      knownAs nameOf (specRead spec) = some aliasName := by
  obtain ⟨name, path, span⟩ := spec
  unfold knownAs specRead ImportSpec.bindsAlias ImportSpec.aliasBy
  by_cases hpath : path = "C"
  · simp [hpath]
  · cases name with
    | none => simp [hpath]
    | some name => cases name <;> simp [hpath]

/-- The path of the first import that who reads the file knows by an alias. -/
def pathKnownAs (imports : FileImports) (nameOf : String → Option String) (aliasName : String) :
    Option String :=
  (imports.aliases.find? fun entry => knownAs nameOf (lineRead entry) = some aliasName).map (·.1)

theorem pathOf_ofSpecs {imports : FileImports} {specs : List ImportSpec}
    (h : specs.map specRead = imports.aliases.map lineRead) (nameOf : String → Option String)
    (aliasName : String) :
    (ImportTable.ofSpecs specs nameOf).pathOf aliasName = imports.pathKnownAs nameOf aliasName := by
  have hspecs : (specs.filter ImportSpec.bindsAlias).find?
        (fun spec => spec.aliasBy nameOf = aliasName) =
      specs.find? ((fun line => decide (knownAs nameOf line = some aliasName)) ∘ specRead) := by
    rw [List.find?_filter]
    congr 1
    funext spec
    rw [Function.comp_apply, decide_eq_decide, decide_eq_true_iff]
    exact knownAs_specRead nameOf spec aliasName
  have hlines := congrArg (fun lines => (List.find?
    (fun line => decide (knownAs nameOf line = some aliasName)) lines).map Prod.snd) h
  simp only [List.find?_map, Option.map_map] at hlines
  rw [ImportTable.pathOf_ofSpecs, hspecs]
  exact hlines

/-- Who reads the import calls the package by its alias: a written alias can be read, and one that is
left out is the name of the package. -/
def TellsAlias (loader : Loader) (entry : String × String) : Prop :=
  entry.1 ≠ "C" ∧
    if lastSegment entry.1 = entry.2 then loader.nameOf entry.1 = some entry.2 else entry.2 ≠ "_"

instance (loader : Loader) (entry : String × String) : Decidable (TellsAlias loader entry) :=
  inferInstanceAs (Decidable (_ ∧ _))

theorem tellsAlias_iff {loader : Loader} {entry : String × String}
    (h : (loader.nameOf entry.1).isSome = true) :
    TellsAlias loader entry ↔ knownAs loader.nameOf (lineRead entry) = some entry.2 := by
  obtain ⟨path, aliasName⟩ := entry
  obtain ⟨name, hname⟩ := Option.isSome_iff_exists.mp h
  unfold TellsAlias knownAs lineRead writtenName
  dsimp only at hname ⊢
  by_cases hpath : path = "C"
  · simp [hpath]
  · by_cases hlast : lastSegment path = aliasName
    · simp [hpath, hlast, hname]
    · by_cases hblank : aliasName = "_"
      · subst hblank
        simp [hpath, hlast]
      · simp [hpath, hlast, hblank]

variable {localPath : String} {packages : PathMap}

/-- Every alias leads back to its path just where all imports tell their aliases. -/
theorem forall_pathKnownAs_iff {loader : Loader}
    (hnames : ∀ entry ∈ (ofPackages localPath packages).aliases,
      (loader.nameOf entry.1).isSome = true) :
    (∀ entry ∈ (ofPackages localPath packages).aliases,
        (ofPackages localPath packages).pathKnownAs loader.nameOf entry.2 = some entry.1) ↔
      ∀ entry ∈ (ofPackages localPath packages).aliases, TellsAlias loader entry := by
  constructor
  · intro hpaths entry hentry
    obtain ⟨found, hfound, hpath⟩ := Option.map_eq_some_iff.mp (hpaths entry hentry)
    have hsame : found = entry :=
      List.inj_on_of_nodup_map nodup_map_fst_aliases (List.mem_of_find?_eq_some hfound) hentry hpath
    have hknown := List.find?_some hfound
    rw [hsame] at hknown
    exact (tellsAlias_iff (hnames entry hentry)).mpr (of_decide_eq_true hknown)
  · intro htells entry hentry
    have hknown : ∀ other ∈ (ofPackages localPath packages).aliases,
        knownAs loader.nameOf (lineRead other) = some other.2 := fun other hother =>
      (tellsAlias_iff (hnames other hother)).mp (htells other hother)
    have hfind : (ofPackages localPath packages).aliases.find?
          (fun other => knownAs loader.nameOf (lineRead other) = some entry.2) =
        (ofPackages localPath packages).aliases.find? fun other => other.2 = entry.2 := by
      refine List.find?_congr fun other hother => ?_
      simp only [hknown other hother, Option.some.injEq]
    rw [pathKnownAs, hfind, find?_alias hentry]
    rfl

end FileImports

namespace WrapperFile

open FileImports

/-- A file with wrappers is read, and so is its table of imports, by who can locate what the file
imports. -/
theorem resolve_of_added {output : OutputPackage} (houtput : IsIdentifier output.name)
    {interfaces : List Interface} (hresolved : ∀ interface ∈ interfaces, interface.Resolved)
    (hnamed : ∀ interface ∈ interfaces, interface.Named)
    (hwritable : ∀ interface ∈ interfaces, interface.Writable output.path) {backend : Backend}
    {file : WrapperFile} (hfile : (empty output backend).addAll interfaces = (.ok (), file))
    {loader : Loader} (hnames : ∀ entry ∈ (importsOf output backend file.interfaces.items).aliases,
      (loader.nameOf entry.1).isSome = true) (sourceName : Option String) :
    ∃ parsed table, SourceFile.parse file.text sourceName = .ok parsed ∧
      ImportTable.resolve loader parsed.imports = .ok table ∧
      ∀ aliasName, table.pathOf aliasName =
        (importsOf output backend file.interfaces.items).pathKnownAs loader.nameOf aliasName := by
  obtain ⟨parsed, hparsed, -, hspecs⟩ :=
    parse_of_added houtput hresolved hnamed hwritable hfile sourceName
  have hlocated : ∀ path ∈ Loader.neededPaths parsed.imports, (loader.locate path).isSome = true := by
    intro path hpath
    obtain ⟨spec, hspec, rfl⟩ := List.mem_map.mp hpath
    have hread : specRead spec ∈ parsed.imports.map specRead :=
      List.mem_map_of_mem (List.mem_of_mem_filter hspec)
    rw [hspecs] at hread
    obtain ⟨entry, hentry, hline⟩ := List.mem_map.mp hread
    have hpath : entry.1 = spec.path := congrArg Prod.snd hline
    rw [← hpath, ← Option.isSome_map]
    exact hnames entry hentry
  have hmissing : loader.missing (Loader.neededPaths parsed.imports) = [] := by
    refine List.filter_eq_nil_iff.mpr fun path hpath => ?_
    rw [Option.isNone_iff_eq_none, ← Option.not_isSome_iff_eq_none, not_not]
    exact hlocated path (List.mem_eraseDups.mp hpath)
  exact ⟨parsed, _, hparsed, Loader.resolve_eq_ok hmissing, pathOf_ofSpecs hspecs loader.nameOf⟩

/-- A file with wrappers is read, and its table of imports has every alias of the file for its path just
where each import tells its alias. -/
theorem pathOf_iff_tellsAlias {output : OutputPackage} (houtput : IsIdentifier output.name)
    {interfaces : List Interface} (hresolved : ∀ interface ∈ interfaces, interface.Resolved)
    (hnamed : ∀ interface ∈ interfaces, interface.Named)
    (hwritable : ∀ interface ∈ interfaces, interface.Writable output.path) {backend : Backend}
    {file : WrapperFile} (hfile : (empty output backend).addAll interfaces = (.ok (), file))
    {loader : Loader} (hnames : ∀ entry ∈ (importsOf output backend file.interfaces.items).aliases,
      (loader.nameOf entry.1).isSome = true) (sourceName : Option String) :
    ∃ parsed table, SourceFile.parse file.text sourceName = .ok parsed ∧
      ImportTable.resolve loader parsed.imports = .ok table ∧
      ((∀ entry ∈ (importsOf output backend file.interfaces.items).aliases,
          table.pathOf entry.2 = some entry.1) ↔
        ∀ entry ∈ (importsOf output backend file.interfaces.items).aliases,
          TellsAlias loader entry) := by
  obtain ⟨parsed, table, hparsed, htable, hpaths⟩ :=
    resolve_of_added houtput hresolved hnamed hwritable hfile hnames sourceName
  refine ⟨parsed, table, hparsed, htable, ?_⟩
  simp only [hpaths]
  exact forall_pathKnownAs_iff hnames

/-- An interface that calls a package `foo`, as the last segment of its path says, where the package
clause says `name`. -/
def aliased (name : String) : Library :=
  ((Library.empty.add "x/foo" ⟨"foo.go", "package " ++ name ++ "\ntype T int\n"⟩).add
    "e/api" ⟨"api.go", "package api\nimport foo \"x/foo\"\ntype A interface \x7b M(v foo.T) \x7d\n"⟩).add
      Backend.openTracing.package.path ⟨"ot.go", "package opentracing\ntype Tracer interface\x7b\x7d\n"⟩

/-- Where the package is called by its name, the alias that is left out is read. -/
theorem pathOf_iff_tellsAlias_foo :
    ∃ interface file parsed table,
      answer (Resolution.interface (aliased "foo").loader "e/api" "A") Session.empty = .ok interface ∧
      interface.Writable "e/out" ∧
      (empty ⟨"out", "e/out"⟩ .openTracing).addAll [interface] = (.ok (), file) ∧
      SourceFile.parse file.text none = .ok parsed ∧
      ImportTable.resolve (aliased "foo").loader parsed.imports = .ok table ∧
      ∀ entry ∈ (importsOf ⟨"out", "e/out"⟩ .openTracing file.interfaces.items).aliases,
        table.pathOf entry.2 = some entry.1 := by
  have hchecks : ((answer (Resolution.interface (aliased "foo").loader "e/api" "A")
      Session.empty).toOption.any fun interface =>
        let file := ((empty ⟨"out", "e/out"⟩ .openTracing).addAll [interface]).2
        decide (interface.Writable "e/out" ∧
          ∀ entry ∈ (importsOf ⟨"out", "e/out"⟩ .openTracing file.interfaces.items).aliases,
            ((aliased "foo").loader.nameOf entry.1).isSome = true ∧
              TellsAlias (aliased "foo").loader entry)) = true := by
    decide +kernel
  obtain ⟨interface, hinterface, hchecks⟩ := exists_of_any_toOption hchecks
  obtain ⟨hwritable, hentries⟩ := of_decide_eq_true hchecks
  have hresolved : interface.Resolved := ⟨_, _, "e/api", "A", .empty, hinterface⟩
  have hnamed : interface.Named := Session.Reached.named .empty (aliased "foo").faithful hinterface
  obtain ⟨parsed, table, hparsed, htable, hpaths⟩ :=
    pathOf_iff_tellsAlias (by decide) (List.forall_mem_singleton.mpr hresolved)
      (List.forall_mem_singleton.mpr hnamed) (List.forall_mem_singleton.mpr hwritable) rfl
      (fun entry hentry => (hentries entry hentry).1) none
  exact ⟨interface, _, parsed, table, hinterface, hwritable, rfl, hparsed, htable,
    hpaths.mpr fun entry hentry => (hentries entry hentry).2⟩

/-- Where the package has another name than the last segment of its path, the file still leaves the
alias `foo` out, and who reads it knows nothing by that name. -/
theorem pathOf_foo_eq_none :
    ∃ interface file parsed table,
      answer (Resolution.interface (aliased "bar").loader "e/api" "A") Session.empty = .ok interface ∧
      interface.Writable "e/out" ∧
      (empty ⟨"out", "e/out"⟩ .openTracing).addAll [interface] = (.ok (), file) ∧
      (∀ entry ∈ (importsOf ⟨"out", "e/out"⟩ .openTracing file.interfaces.items).aliases,
        ((aliased "bar").loader.nameOf entry.1).isSome = true) ∧
      ("x/foo", "foo") ∈ (importsOf ⟨"out", "e/out"⟩ .openTracing file.interfaces.items).aliases ∧
      SourceFile.parse file.text none = .ok parsed ∧
      ImportTable.resolve (aliased "bar").loader parsed.imports = .ok table ∧
      table.pathOf "foo" = none ∧ table.pathOf "bar" = some "x/foo" := by
  have hchecks : ((answer (Resolution.interface (aliased "bar").loader "e/api" "A")
      Session.empty).toOption.any fun interface =>
        let file := ((empty ⟨"out", "e/out"⟩ .openTracing).addAll [interface]).2
        let imports := importsOf ⟨"out", "e/out"⟩ .openTracing file.interfaces.items
        decide (interface.Writable "e/out" ∧
          (∀ entry ∈ imports.aliases, ((aliased "bar").loader.nameOf entry.1).isSome = true) ∧
          ("x/foo", "foo") ∈ imports.aliases ∧
          imports.pathKnownAs (aliased "bar").loader.nameOf "foo" = none ∧
          imports.pathKnownAs (aliased "bar").loader.nameOf "bar" = some "x/foo")) = true := by
    decide +kernel
  obtain ⟨interface, hinterface, hchecks⟩ := exists_of_any_toOption hchecks
  obtain ⟨hwritable, hnames, hmem, hfoo, hbar⟩ := of_decide_eq_true hchecks
  have hresolved : interface.Resolved := ⟨_, _, "e/api", "A", .empty, hinterface⟩
  have hnamed : interface.Named := Session.Reached.named .empty (aliased "bar").faithful hinterface
  obtain ⟨parsed, table, hparsed, htable, hpaths⟩ :=
    resolve_of_added (by decide) (List.forall_mem_singleton.mpr hresolved)
      (List.forall_mem_singleton.mpr hnamed) (List.forall_mem_singleton.mpr hwritable) rfl hnames none
  exact ⟨interface, _, parsed, table, hinterface, hwritable, rfl, hnames, hmem, hparsed, htable,
    (hpaths "foo").trans hfoo, (hpaths "bar").trans hbar⟩

end WrapperFile

end GoTrace
