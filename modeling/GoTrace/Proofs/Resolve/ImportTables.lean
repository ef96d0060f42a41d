import GoTrace.Proofs.Collection.FirstUse
import GoTrace.Proofs.Resolve.Transparency

/-!
# Import tables are those of the loader

A resolver asks its loader only for the names that it has not found out, and keeps the tables that it
makes. As long as nothing is added and it is passed only the packages that it has handed out, the table
of a unit is the one that is made from the loader alone, and when packages are missing it names the same
ones. Another package of the same path would leave its table behind for a unit that it does not have.
-/

namespace GoTrace

open Resolution

/-! ## Packages that are missing -/

namespace Library

/-- The paths without a package that are imported without a name, in order and as often as they are
imported. -/
def lacking (library : Library) (specs : List ImportSpec) : List String :=
  (specs.filter fun spec =>
    spec.name = none ∧ spec.path ≠ "C" ∧ spec.path ∉ library.paths).map (·.path)

variable {library : Library} {specs : List ImportSpec}

theorem locate_eq_none_iff {path : String} :
    library.loader.locate path = none ↔ path ∉ library.paths := by
  simp only [loader, units?, Option.map_eq_none_iff, List.lookup_eq_none_iff, paths, List.mem_map,
    not_exists, not_and, bne_iff_ne, ne_eq]
  exact forall₂_congr fun entry _ => not_congr eq_comm

theorem missing_neededPaths :
    library.loader.missing (Loader.neededPaths specs) = (library.lacking specs).eraseDups := by
  rw [Loader.missing, filter_eraseDups, Loader.neededPaths, List.filter_map, List.filter_filter,
    lacking]
  congr 2
  refine List.filter_congr fun spec _ => ?_
  rw [Bool.eq_iff_iff]
  simp [Option.isNone_iff_eq_none, locate_eq_none_iff, ImportSpec.needsName]
  tauto

theorem lacking_eq_nil_iff :
    library.lacking specs = [] ↔
      ¬ ∃ spec ∈ specs, spec.name = none ∧ spec.path ≠ "C" ∧ spec.path ∉ library.paths := by
  simp only [lacking, List.map_eq_nil_iff, List.filter_eq_nil_iff, decide_eq_true_eq, not_exists,
    not_and]

theorem eraseDups_lacking_ne_nil (h : library.lacking specs ≠ []) :
    (library.lacking specs).eraseDups ≠ [] := by
  obtain ⟨path, hpath⟩ := List.exists_mem_of_ne_nil _ h
  exact List.ne_nil_of_mem (List.mem_eraseDups.mpr hpath)

theorem resolve_eq_error (h : library.lacking specs ≠ []) :
    ImportTable.resolve library.loader specs =
      .error (.load (library.lacking specs).eraseDups) := by
  have hmissing : library.loader.missing (Loader.neededPaths specs) ≠ [] := by
    rw [missing_neededPaths]
    exact eraseDups_lacking_ne_nil h
  rw [ImportTable.resolve, ← Loader.neededPaths, Loader.namesOf_eq_error hmissing,
    missing_neededPaths]
  rfl

theorem exists_resolve_eq_ok (h : library.lacking specs = []) :
    ∃ table, ImportTable.resolve library.loader specs = .ok table := by
  have hmissing : library.loader.missing (Loader.neededPaths specs) = [] := by
    rw [missing_neededPaths, h]
    rfl
  exact ⟨_, Loader.resolve_eq_ok hmissing⟩

end Library

/-! ## Tables in any session -/

theorem Session.Sound.answer_importTable {loader : Loader} {session : Session}
    {stack : List InterfaceKey} (hs : session.Sound loader stack) {package : Package}
    (hpackage : loader.Holds package) {unit : Nat} {file : SourceFile}
    (hfile : package.units[unit]? = some file) :
    answer (importTable loader package unit) session =
      (ImportTable.resolve loader file.imports).mapError .error := by
  rw [(importTable_settles hpackage unit).answer hs.coherent, Loader.tableOf, hfile]
  rfl

/-- Whatever a resolver was asked before about the packages that it hands out, it makes the import table
of a unit as its loader alone does, and fails with the same error. It fails exactly when a package is
missing that is imported without a name, and then it names each of these packages once, in the order of
their first imports. -/
theorem Session.importTable_eq_resolve (library : Library) {session : Session}
    (h : session.Secluded library.loader) {package : Package}
    (hpackage : session.packageAt library.loader package.path = .ok package) {unit : Nat}
    {file : SourceFile} (hfile : package.units[unit]? = some file) :
    answer (importTable library.loader package unit) session =
        (ImportTable.resolve library.loader file.imports).mapError .error ∧
      ((∃ failure, answer (importTable library.loader package unit) session = .error failure) ↔
        ∃ spec ∈ file.imports,
          spec.name = none ∧ spec.path ≠ "C" ∧ spec.path ∉ library.paths) ∧
      ∀ failure, answer (importTable library.loader package unit) session = .error failure →
        ∃ missing, failure = .error (.load missing) ∧
          ListsUses (library.lacking file.imports) missing := by
  have hholds := h.holds library.steady hpackage
  have hanswer := (h.sound library.steady).answer_importTable hholds hfile
  rw [hanswer]
  refine ⟨rfl, ?_⟩
  by_cases hlacking : library.lacking file.imports = []
  · obtain ⟨table, htable⟩ := Library.exists_resolve_eq_ok hlacking
    have hnone := Library.lacking_eq_nil_iff.mp hlacking
    rw [htable]
    exact ⟨⟨fun ⟨_, hfails⟩ => (nomatch hfails), fun hsome => absurd hsome hnone⟩, nofun⟩
  · rw [Library.resolve_eq_error hlacking]
    refine ⟨⟨fun _ => not_not.mp (mt Library.lacking_eq_nil_iff.mpr hlacking), fun _ => ⟨_, rfl⟩⟩, ?_⟩
    rintro failure heq
    cases heq
    exact ⟨_, rfl, .eraseDups _⟩

/-- A file that imports a package which another file imports as well, and two that are missing, one of
them twice. -/
def Library.halfKnown : Library :=
  ((Library.empty.add "io" ⟨"io.go", "package io"⟩).add "b" ⟨"b.go", "package b\nimport \"io\""⟩).add
    "a" ⟨"a.go", "package a\nimport (\n\"y/gone\"\n\"io\"\n\"C\"\n\"x/gone\"\n\"y/gone\"\n)"⟩

/-- After the name of one package was found out, and after the table has failed before. -/
theorem Session.importTable_eq_resolve_halfKnown :
    let session := after (scope Library.halfKnown.loader "a" 0)
      (after (scope Library.halfKnown.loader "b" 0) .empty)
    ∃ package file, session.packageAt Library.halfKnown.loader "a" = .ok package ∧
      package.units[0]? = some file ∧
      answer (importTable Library.halfKnown.loader package 0) session =
        (ImportTable.resolve Library.halfKnown.loader file.imports).mapError .error ∧
      ∃ missing,
        answer (importTable Library.halfKnown.loader package 0) session =
          .error (.error (.load missing)) ∧
        ListsUses ["y/gone", "x/gone", "y/gone"] missing := by
  intro session
  have hchecks : ((session.packageAt Library.halfKnown.loader "a").toOption.any fun package =>
      package.path = "a" && package.units[0]?.any fun file =>
        decide (Library.halfKnown.lacking file.imports = ["y/gone", "x/gone", "y/gone"])) = true := by
    decide +kernel
  obtain ⟨package, hpackage, hchecks⟩ := exists_of_any_toOption hchecks
  obtain ⟨hpath, hunits⟩ := Bool.and_eq_true_iff.mp hchecks
  obtain ⟨file, hfile, hlacking⟩ := (Option.any_eq_true _ _).mp hunits
  replace hlacking := of_decide_eq_true hlacking
  have hknown : Session.Secluded Library.halfKnown.loader
      (after (scope Library.halfKnown.loader "b" 0) .empty) :=
    .call .empty rfl (.scope "b" 0) (by decide +kernel)
  have hsecluded : session.Secluded Library.halfKnown.loader :=
    .call hknown rfl (.scope "a" 0) (by decide +kernel)
  obtain ⟨hanswer, hfails, hlists⟩ := Session.importTable_eq_resolve Library.halfKnown hsecluded
    (by rw [of_decide_eq_true hpath, hpackage]) hfile
  have hlacks : ¬ Library.halfKnown.lacking file.imports = [] := by simp [hlacking]
  obtain ⟨failure, hfailure⟩ := hfails.mpr (not_not.mp (mt Library.lacking_eq_nil_iff.mpr hlacks))
  obtain ⟨missing, rfl, hmissing⟩ := hlists failure hfailure
  exact ⟨package, file, hpackage, hfile, hanswer, missing, hfailure, hlacking ▸ hmissing⟩

/-! ## A package of the same path -/

/-- A package that imports another under an alias. -/
def Library.aliased : Library :=
  Library.empty.add "a" ⟨"a.go", "package a\nimport foo \"x/foo\""⟩

/-- The package of the same path was parsed elsewhere, and gives the alias to another import. Its table
is kept, and then taken for the one of the file that is loaded. -/
theorem Session.importTable_eq_resolve_namesake :
    ∃ namesake package file,
      Package.parse ⟨"a", "a", [⟨"a.go", "package a\nimport foo \"y/other\""⟩]⟩ = .ok namesake ∧
      Library.aliased.loader.parsed "a" = .ok package ∧ package.units[0]? = some file ∧
      let session := after (importTable Library.aliased.loader namesake 0) .empty
      session.Reached (· = Library.aliased.loader) (fun _ => .unadded) ∧
        (answer (importTable Library.aliased.loader package 0) session).toOption.map
            (·.pathOf "foo") = some (some "y/other") ∧
        (ImportTable.resolve Library.aliased.loader file.imports).toOption.map
            (·.pathOf "foo") = some (some "x/foo") := by
  have hchecks : ((Package.parse
      ⟨"a", "a", [⟨"a.go", "package a\nimport foo \"y/other\""⟩]⟩).toOption.any fun namesake =>
        (Library.aliased.loader.parsed "a").toOption.any fun package =>
          package.units[0]?.any fun file =>
            let session := after (importTable Library.aliased.loader namesake 0) .empty
            decide (Lasting (answer (importTable Library.aliased.loader namesake 0) .empty)) &&
            decide ((answer (importTable Library.aliased.loader package 0) session).toOption.map
              (·.pathOf "foo") = some (some "y/other")) &&
            decide ((ImportTable.resolve Library.aliased.loader file.imports).toOption.map
              (·.pathOf "foo") = some (some "x/foo"))) = true := by
    decide +kernel
  obtain ⟨namesake, hnamesake, hchecks⟩ := exists_of_any_toOption hchecks
  obtain ⟨package, hpackage, hchecks⟩ := exists_of_any_toOption hchecks
  obtain ⟨file, hfile, hchecks⟩ := (Option.any_eq_true _ _).mp hchecks
  obtain ⟨hchecks, hmade⟩ := Bool.and_eq_true_iff.mp hchecks
  obtain ⟨hlasting, hkept⟩ := Bool.and_eq_true_iff.mp hchecks
  refine ⟨namesake, package, file, hnamesake, hpackage, hfile, ?_, of_decide_eq_true hkept,
    of_decide_eq_true hmade⟩
  exact .call .empty rfl (.importTable 0 trivial) (of_decide_eq_true hlasting)

end GoTrace
