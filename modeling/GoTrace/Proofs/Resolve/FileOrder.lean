import GoTrace.Proofs.Resolve.Depth
import GoTrace.Proofs.Resolve.Rearranged
import GoTrace.Proofs.Workspace.PackageName
import Mathlib.Data.List.Perm.Basic

/-!
# The order of files

Libraries whose packages have the same files, each in an order of its own, resolve every interface alike:
where the files of a package can be read, have one package clause, and no two of them declare one type or
one constant, nothing that depends on their order reaches an answer.
-/

namespace GoTrace

def SourceUnit.Reads (unit : SourceUnit) (file : SourceFile) : Prop :=
  SourceFile.parse unit.text (some unit.fileName) = .ok file

/-- The units of a package are the texts of files that have one package clause, and no two of which
declare one type or one constant. -/
structure SourceFile.Sources (units : List SourceUnit) (files : List SourceFile) : Prop where
  reads : List.Forall₂ SourceUnit.Reads units files
  clause : ∀ file ∈ files, ∀ other ∈ files, file.package.name = other.package.name
  types : files.Pairwise fun file other => file.typeNames.Disjoint other.typeNames
  constants : files.Pairwise fun file other => file.constNames.Disjoint other.constNames

namespace SourceFile

variable {units units' : List SourceUnit} {files : List SourceFile}

theorem Sources.parse (h : Sources units files) (path name : String) :
    Package.parse ⟨path, name, units⟩ = .ok ⟨path, name, files⟩ := by
  have hfiles : units.mapM (fun unit =>
      (SourceFile.parse unit.text (some unit.fileName)).mapError
        (Failure.map (ResolveError.parse unit.fileName))) = .ok files := by
    have hreads := h.reads
    clear h
    induction hreads with
    | nil => rfl
    | cons hunit _ ih =>
        rw [List.mapM_cons, show SourceFile.parse _ _ = _ from hunit, ih]
        rfl
  rw [Package.parse]
  dsimp only
  rw [hfiles]
  rfl

theorem Sources.packageNameOf (h : Sources units files) :
    packageNameOf (units.map (·.text)) = files.head?.map (·.package.name) := by
  cases h.reads with
  | nil => rfl
  | cons hunit _ => exact packageNameOf_cons_of_parse hunit _

theorem Sources.exists_perm (h : Sources units files) (hperm : units.Perm units') :
    ∃ files', Sources units' files' ∧ files.Perm files' := by
  obtain ⟨files', hreads, hfiles⟩ := List.perm_comp_forall₂ hperm.symm h.reads
  have hmem {file : SourceFile} : file ∈ files' ↔ file ∈ files := hfiles.mem_iff
  refine ⟨files', ⟨hreads, ?_, ?_, ?_⟩, hfiles.symm⟩
  · exact fun file hfile other hother => h.clause file (hmem.mp hfile) other (hmem.mp hother)
  · exact hfiles.symm.pairwise h.types List.disjoint_symm
  · exact hfiles.symm.pairwise h.constants List.disjoint_symm

theorem Sources.head_eq {files' : List SourceFile} (h : Sources units files) (hperm : files.Perm files') :
    files.head?.map (·.package.name) = files'.head?.map (·.package.name) := by
  cases hfile : files.head? with
  | none =>
      obtain rfl := List.head?_eq_none_iff.mp hfile
      rw [List.nil_perm.mp hperm]
      rfl
  | some file =>
      cases hfile' : files'.head? with
      | none =>
          obtain rfl := List.head?_eq_none_iff.mp hfile'
          rw [List.perm_nil.mp hperm] at hfile
          cases hfile
      | some file' =>
          exact congrArg some (h.clause file (List.mem_of_head? hfile) file'
            (hperm.mem_iff.mpr (List.mem_of_head? hfile')))

end SourceFile

namespace Library

/-- The libraries have the same packages, and each package has the same files in both. -/
def Rearranged (first second : Library) : Prop :=
  List.Forall₂ (fun entry entry' => entry.1 = entry'.1 ∧ entry.2.Perm entry'.2) first.packages
    second.packages

/-- Every package of the library is one of readable files that fit together. -/
def Orderly (library : Library) : Prop :=
  ∀ entry ∈ library.packages, ∃ files, SourceFile.Sources entry.2 files

variable {first second : Library}

theorem Rearranged.units?_rel (h : first.Rearranged second) (path : String) :
    Option.Rel List.Perm (first.units? path) (second.units? path) := by
  rw [units?, units?]
  unfold Rearranged at h
  generalize first.packages = packages at h
  generalize second.packages = packages' at h
  induction h with
  | nil => exact .none
  | @cons entry entry' _ _ hentry _ ih =>
      obtain ⟨key, units⟩ := entry
      obtain ⟨key', units'⟩ := entry'
      obtain ⟨rfl, hperm⟩ : key = key' ∧ units.Perm units' := hentry
      rw [List.lookup_cons, List.lookup_cons]
      split
      · exact .some hperm
      · exact ih

theorem Rearranged.size_eq (h : first.Rearranged second) : first.size = second.size := by
  rw [size, size]
  refine List.Perm.length_eq ?_
  unfold Rearranged at h
  generalize first.packages = packages at h
  generalize second.packages = packages' at h
  induction h with
  | nil => exact .nil
  | cons hentry _ ih =>
      rw [List.flatMap_cons, List.flatMap_cons]
      exact (hentry.2.flatMap_right _).append ih

/-- At every path both libraries have no package, or the same one with its files in two orders. -/
theorem Rearranged.cases (h : first.Rearranged second) (horderly : first.Orderly) (path : String) :
    first.units? path = none ∧ second.units? path = none ∨
      ∃ units units' files files', first.units? path = some units ∧
        second.units? path = some units' ∧ SourceFile.Sources units files ∧
          SourceFile.Sources units' files' ∧ files.Perm files' ∧
            packageNameOf (units.map (·.text)) = packageNameOf (units'.map (·.text)) := by
  have hrel := h.units?_rel path
  cases hfirst : first.units? path with
  | none =>
      rw [hfirst] at hrel
      generalize second.units? path = found at hrel
      cases hrel
      exact .inl ⟨rfl, rfl⟩
  | some units =>
      obtain ⟨files, hsources⟩ := horderly _ (mem_of_lookup hfirst)
      rw [hfirst] at hrel
      generalize second.units? path = found at hrel
      cases hrel with
      | @some _ units' hperm =>
          obtain ⟨files', hsources', hfiles⟩ := hsources.exists_perm hperm
          refine .inr ⟨units, units', files, files', rfl, rfl, hsources, hsources', hfiles, ?_⟩
          rw [hsources.packageNameOf, hsources'.packageNameOf, hsources.head_eq hfiles]

theorem Rearranged.loader (h : first.Rearranged second) (horderly : first.Orderly) :
    first.loader.Rearranged second.loader where
  steady := first.steady
  steady' := second.steady
  locate := by
    funext path
    simp only [Library.loader]
    rcases h.cases horderly path with
      ⟨hfirst, hsecond⟩ | ⟨units, units', files, files', hfirst, hsecond, -, -, -, hname⟩
    · rw [hfirst, hsecond]
    · rw [hfirst, hsecond, Option.map_some, Option.map_some, hname]
  parsed path := by
    simp only [Loader.parsed, Library.loader]
    rcases h.cases horderly path with
      ⟨hfirst, hsecond⟩ |
      ⟨units, units', files, files', hfirst, hsecond, hsources, hsources', hfiles, hname⟩
    · rw [hfirst, hsecond]
      exact .error _
    · rw [hfirst, hsecond]
      dsimp only [Option.map_some]
      rw [hsources.parse, hsources'.parse, hname]
      exact .ok ⟨rfl, rfl, hfiles, hsources.types, hsources.constants⟩

/-- The order of the files in packages reaches no answer: over both libraries an interface resolves to
the same methods, or resolving it fails with the same error. -/
theorem interface_rearranged (h : first.Rearranged second) (horderly : first.Orderly)
    (path name : String) :
    Resolution.answer (Resolution.interface first.loader path name) Session.empty =
        Resolution.answer (Resolution.interface second.loader path name) Session.empty ∧
      Resolution.answer (Resolution.interface first.loader path name) Session.empty ≠
        .error .exhausted := by
  have hbound : Resolution.depthBound first.loader Session.empty =
      Resolution.depthBound second.loader Session.empty := by
    have hextent : first.loader.extent = second.loader.extent := h.size_eq
    rw [Resolution.depthBound, Resolution.depthBound, hextent]
  have hmatched := Resolution.interfaceUpTo_matched (h.loader horderly)
    (Resolution.depthBound first.loader Session.empty) path name
  refine ⟨?_, first.interface_ends path name _⟩
  rw [Resolution.answer_interface, Resolution.answer_interface, ← hbound]
  exact (hmatched.answer (Session.paired_empty _ _)).eq

/-- A package of two files that each need the other, and one that is imported. -/
def split : Library :=
  ⟨[("a", [⟨"i.go", "package a\nimport q \"b\"\ntype I interface \x7b M(x [N]q.T); J \x7d\n"⟩,
      ⟨"j.go", "package a\nconst N = 2\ntype J interface \x7b K() \x7d\n"⟩]),
    ("b", [⟨"t.go", "package b\ntype T int\n"⟩])]⟩

/-- The same with the two files the other way round. -/
def splitReversed : Library :=
  ⟨split.packages.map fun entry => (entry.1, entry.2.reverse)⟩

theorem orderly_split : split.Orderly := by
  have hread {text name clause : String} {types constants : List String}
      (h : (SourceFile.parse text (some name)).toOption.any (fun file =>
        file.package.name = clause && file.typeNames = types && file.constNames = constants) = true) :
      ∃ file, SourceUnit.Reads ⟨name, text⟩ file ∧ file.package.name = clause ∧
        file.typeNames = types ∧ file.constNames = constants := by
    obtain ⟨file, hfile, hnames⟩ := Resolution.exists_of_any_toOption h
    simp only [Bool.and_eq_true, decide_eq_true_eq] at hnames
    exact ⟨file, hfile, hnames.1.1, hnames.1.2, hnames.2⟩
  refine List.forall_mem_cons.mpr ⟨?_, List.forall_mem_singleton.mpr ?_⟩
  · obtain ⟨file, hreads, hclause, htypes, hconstants⟩ := hread
      (show _ = true from by decide +kernel : (SourceFile.parse
        "package a\nimport q \"b\"\ntype I interface \x7b M(x [N]q.T); J \x7d\n"
        (some "i.go")).toOption.any (fun file => file.package.name = "a" &&
          file.typeNames = ["I"] && file.constNames = []) = true)
    obtain ⟨file', hreads', hclause', htypes', hconstants'⟩ := hread
      (show _ = true from by decide +kernel : (SourceFile.parse
        "package a\nconst N = 2\ntype J interface \x7b K() \x7d\n"
        (some "j.go")).toOption.any (fun file => file.package.name = "a" &&
          file.typeNames = ["J"] && file.constNames = ["N"]) = true)
    refine ⟨[file, file'], .cons hreads (.cons hreads' .nil), ?_, ?_, ?_⟩
    · simp [hclause, hclause']
    · simp [htypes, htypes']
    · simp [hconstants, hconstants']
  · obtain ⟨file, hreads, -⟩ := hread
      (show _ = true from by decide +kernel : (SourceFile.parse "package b\ntype T int\n"
        (some "t.go")).toOption.any (fun file => file.package.name = "b" &&
          file.typeNames = ["T"] && file.constNames = []) = true)
    exact ⟨[file], .cons hreads .nil, by simp, List.pairwise_singleton _ _,
      List.pairwise_singleton _ _⟩

theorem interface_rearranged_split :
    split.Rearranged splitReversed ∧ split.Orderly ∧
      Resolution.answer (Resolution.interface split.loader "a" "I") Session.empty =
        Resolution.answer (Resolution.interface splitReversed.loader "a" "I") Session.empty ∧
      Resolution.answer (Resolution.interface split.loader "a" "I") Session.empty ≠
        .error .exhausted := by
  have hrearranged : split.Rearranged splitReversed :=
    .cons ⟨rfl, (List.reverse_perm _).symm⟩ (.cons ⟨rfl, (List.reverse_perm _).symm⟩ .nil)
  exact ⟨hrearranged, orderly_split, interface_rearranged hrearranged orderly_split "a" "I"⟩

end Library

end GoTrace
