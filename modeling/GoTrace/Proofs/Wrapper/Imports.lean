import Mathlib.Data.List.Nodup
import GoTrace.Proofs.Collection.PathMap
import GoTrace.Proofs.Grammar.Listing
import GoTrace.Proofs.Literal.Quoted
import GoTrace.Proofs.Resolve.LegibleInterface
import GoTrace.Proofs.Text.Bytes
import GoTrace.Proofs.Wrapper.Names
import GoTrace.Wrapper.File

/-!
# What names stand for in a generated file

A generated file imports every package that its interfaces refer to, each under an alias of its own.
So what a name stands for can be told from the imports alone, and it is what the name was written
for.
-/

namespace GoTrace

open Lexeme

/-! ## Aliases -/

def PackageRef.unaliased (package : PackageRef) : PackageRef := ⟨package.path, ""⟩

namespace FileImports

/-- What names stand for in a file with the imports: an alias for the path it was assigned to, and an
exported name alone for the package of the file. -/
def naming (imports : FileImports) : Naming
  | some aliasName, _ =>
      (imports.aliases.find? fun entry => entry.2 = aliasName).map fun entry => some ⟨entry.1, ""⟩
  | none, name => some (if isExported name then some ⟨imports.localPath, ""⟩ else none)

/-- Whatever the file calls a package is an identifier. -/
def Legible (imports : FileImports) : Prop := ∀ entry ∈ imports.aliases, IsIdentifier entry.2

variable {localPath : String} {packages : PathMap}

theorem mem_of_alias? {imports : FileImports} {path aliasName : String}
    (h : imports.alias? path = some aliasName) : (path, aliasName) ∈ imports.aliases := by
  obtain ⟨before, rest, heq, -⟩ := List.lookup_eq_some_iff.mp h
  rw [heq]
  exact List.mem_append_right _ List.mem_cons_self

/-- The paths of the imports are those of the packages, less the path of the file. -/
theorem map_fst_aliases :
    (ofPackages localPath packages).aliases.map (·.1) =
      packages.paths.filter fun path => path ≠ localPath && !path.isEmpty := by
  rw [ofPackages, map_fst_assign, PathMap.paths, List.filter_map]
  rfl

theorem path_of_mem_aliases {entry : String × String}
    (h : entry ∈ (ofPackages localPath packages).aliases) :
    entry.1 ∈ packages.paths ∧ entry.1 ≠ localPath := by
  have hmem : entry.1 ∈ (ofPackages localPath packages).aliases.map (·.1) := List.mem_map_of_mem h
  rw [map_fst_aliases, List.mem_filter] at hmem
  exact ⟨hmem.1, by simpa using (Bool.and_eq_true_iff.mp hmem.2).1⟩

theorem nodup_map_fst_aliases : ((ofPackages localPath packages).aliases.map (·.1)).Nodup := by
  rw [map_fst_aliases]
  exact packages.nodup_paths.filter _

theorem alias?_eq_some_iff {path aliasName : String} :
    (ofPackages localPath packages).alias? path = some aliasName ↔
      (path, aliasName) ∈ (ofPackages localPath packages).aliases := by
  refine ⟨mem_of_alias?, fun hmem => ?_⟩
  cases halias : (ofPackages localPath packages).alias? path with
  | none =>
      have hnone := List.lookup_eq_none_iff.mp halias _ hmem
      simp at hnone
  | some held =>
      have hsame := List.inj_on_of_nodup_map nodup_map_fst_aliases (mem_of_alias? halias) hmem rfl
      exact congrArg some (congrArg Prod.snd hsame)

theorem pairwise_aliases :
    (ofPackages localPath packages).aliases.Pairwise fun first second => first.1 < second.1 := by
  rw [← List.pairwise_map (f := Prod.fst) (R := (· < ·)), map_fst_aliases]
  exact (List.pairwise_map.mpr packages.sorted).filter _

theorem pairwise_bytes :
    ((ofPackages localPath packages).aliases.map (·.1)).Pairwise
      fun first second => Text.bytes first < Text.bytes second :=
  List.pairwise_map.mpr (pairwise_aliases.imp Text.bytes_lt_bytes)

theorem exists_alias? {path : String} (hpath : path ∈ packages.paths) (hlocal : path ≠ localPath)
    (hempty : path ≠ "") :
    ∃ aliasName, (ofPackages localPath packages).alias? path = some aliasName := by
  have hmem : path ∈ (ofPackages localPath packages).aliases.map (·.1) := by
    rw [map_fst_aliases, List.mem_filter]
    simp [hpath, hlocal, hempty]
  obtain ⟨entry, hentry, rfl⟩ := List.mem_map.mp hmem
  exact ⟨entry.2, alias?_eq_some_iff.mpr hentry⟩

theorem legible_ofPackages (h : ∀ entry ∈ packages.entries, IsIdentifier entry.2) :
    (ofPackages localPath packages).Legible := by
  intro entry hentry
  exact isIdentifier_of_mem_assign (fun _ hmem => h _ (List.mem_filter.mp hmem).1) hentry

theorem find?_alias {path aliasName : String}
    (h : (path, aliasName) ∈ (ofPackages localPath packages).aliases) :
    (ofPackages localPath packages).aliases.find? (fun entry => entry.2 = aliasName) =
      some (path, aliasName) := by
  have hnodup : ((ofPackages localPath packages).aliases.map (·.2)).Nodup := nodup_assign _ _
  generalize (ofPackages localPath packages).aliases = aliases at h hnodup
  induction aliases with
  | nil => cases h
  | cons first rest ih =>
      rw [List.map_cons, List.nodup_cons] at hnodup
      rcases List.mem_cons.mp h with rfl | h
      · simp
      · have hne : first.2 ≠ aliasName := by
          intro heq
          exact hnodup.1 (List.mem_map.mpr ⟨_, h, heq.symm⟩)
        simp [hne, ih h hnodup.2]

theorem Legible.isIdentifier_alias {imports : FileImports} (h : imports.Legible)
    {path aliasName : String} (halias : imports.alias? path = some aliasName) :
    IsIdentifier aliasName :=
  h _ (mem_of_alias? halias)

theorem Legible.isIdentifier_qualifier {imports : FileImports} (h : imports.Legible)
    {package : PackageRef} (hpackage : IsIdentifier package.aliasName) {aliasName : String}
    (haliasName : imports.qualifier package = some aliasName) : IsIdentifier aliasName := by
  unfold qualifier at haliasName
  rw [Option.ite_none_left_eq_some] at haliasName
  obtain ⟨-, heq⟩ := haliasName
  cases halias : imports.alias? package.path with
  | none =>
      rw [halias] at heq
      cases heq
      exact hpackage
  | some held =>
      rw [halias] at heq
      cases heq
      exact h.isIdentifier_alias halias

/-- A name is written so that it stands for what it was written for, when the packages have a place in
the file and identifiers for names, and names with a package are exported. -/
theorem nameWritten (h : ∀ entry ∈ packages.entries, IsIdentifier entry.2)
    {package : Option PackageRef} {name : String} (hname : PackageRef.Names package name)
    (hexported : package.isSome = true → isExported name = true)
    (haliasName : ∀ held, package = some held → IsIdentifier held.aliasName)
    (hpath : ∀ held, package = some held → held.path ≠ localPath →
      held.path ∈ packages.paths ∧ held.path ≠ "") :
    NameWritten (ofPackages localPath packages).qualifier (ofPackages localPath packages).naming
      PackageRef.unaliased package name where
  identifier := hname.identifier
  aliasName aliasName heq := by
    obtain ⟨held, rfl, hheld⟩ := Option.bind_eq_some_iff.mp heq
    exact (legible_ofPackages h).isIdentifier_qualifier (haliasName held rfl) hheld
  reads := by
    cases package with
    | none => simp [naming, hname.bare rfl]
    | some held =>
        by_cases hlocal : held.path = localPath
        · have hqualifier : (ofPackages localPath packages).qualifier held = none := if_pos hlocal
          have hlocalPath : (ofPackages localPath packages).localPath = localPath := rfl
          simp [hqualifier, naming, hexported rfl, hlocalPath, hlocal, PackageRef.unaliased]
        · obtain ⟨hmem, hempty⟩ := hpath held rfl hlocal
          obtain ⟨aliasName, halias⟩ := exists_alias? hmem hlocal hempty
          have hqualifier : (ofPackages localPath packages).qualifier held = some aliasName := by
            rw [qualifier, halias, Option.getD_some]
            exact if_neg hlocal
          simp [hqualifier, naming, find?_alias (mem_of_alias? halias), PackageRef.unaliased]

/-- A name with a package is written so that it stands for some name with a package. -/
theorem Legible.nameWritten {imports : FileImports} (h : imports.Legible) {package : PackageRef}
    {name : String} (hpackage : IsIdentifier package.aliasName) (hname : IsIdentifier name) :
    NameWritten imports.qualifier (fun _ _ => some (some default)) (fun _ => default)
      (some package) name where
  identifier := hname
  aliasName _ heq := h.isIdentifier_qualifier hpackage heq
  reads := rfl

end FileImports

/-! ## The packages of a file -/

namespace WrapperFile

def withInterface (map : PathMap) (interface : Interface) : PathMap :=
  (map.addPackages interface.type.references).merge interface.imports.entries

theorem mem_paths_withInterface {map : PathMap} {interface : Interface} {path : String} :
    path ∈ (withInterface map interface).paths ↔
      path ∈ map.paths ∨ ∃ package ∈ interface.references, package.path = path := by
  have himports : path ∈ interface.imports.entries.map (·.1) ↔
      ∃ package ∈ interface.methods.items.flatMap Method.references, package.path = path := by
    change path ∈ interface.imports.paths ↔ _
    rw [interface.collected, PathMap.mem_paths_addPackages]
    simp [PathMap.paths, PathMap.empty]
  rw [withInterface, PathMap.mem_paths_merge, PathMap.mem_paths_addPackages, himports, or_assoc]
  simp only [Interface.type, Descriptor.references, Option.toList_some, Interface.references,
    List.mem_cons, List.not_mem_nil, or_false, or_and_right, exists_or]

theorem mem_of_mem_withInterface {map : PathMap} {interface : Interface} {entry : String × String}
    (h : entry ∈ (withInterface map interface).entries) :
    entry ∈ map.entries ∨
      ∃ package ∈ interface.references, entry = (package.path, package.aliasName) := by
  rcases PathMap.mem_of_mem_merge h with h | h
  · rcases PathMap.mem_of_mem_addPackages h with h | ⟨package, hpackage, heq⟩
    · exact .inl h
    · obtain rfl := List.mem_singleton.mp hpackage
      exact .inr ⟨_, List.mem_cons_self, heq⟩
  · rw [interface.collected] at h
    rcases PathMap.mem_of_mem_addPackages h with h | ⟨package, hpackage, heq⟩
    · cases h
    · exact .inr ⟨package, List.mem_cons_of_mem _ hpackage, heq⟩

theorem mem_paths_foldl {map : PathMap} {interfaces : List Interface} {path : String} :
    path ∈ (interfaces.foldl withInterface map).paths ↔
      path ∈ map.paths ∨
        ∃ interface ∈ interfaces, ∃ package ∈ interface.references, package.path = path := by
  induction interfaces generalizing map with
  | nil => simp
  | cons interface rest ih =>
      rw [List.foldl_cons, ih, mem_paths_withInterface, or_assoc]
      simp only [List.mem_cons, or_and_right, exists_or, exists_eq_left]

theorem mem_of_mem_foldl {map : PathMap} {interfaces : List Interface} {entry : String × String}
    (h : entry ∈ (interfaces.foldl withInterface map).entries) :
    entry ∈ map.entries ∨ ∃ interface ∈ interfaces, ∃ package ∈ interface.references,
      entry = (package.path, package.aliasName) := by
  induction interfaces generalizing map with
  | nil => exact .inl h
  | cons interface rest ih =>
      rcases ih h with h | ⟨other, hother, hrefers⟩
      · rcases mem_of_mem_withInterface h with h | hrefers
        · exact .inl h
        · exact .inr ⟨interface, List.mem_cons_self, hrefers⟩
      · exact .inr ⟨other, List.mem_cons_of_mem _ hother, hrefers⟩

/-- The imports of a file with wrappers for the interfaces. -/
def importsOf (output : OutputPackage) (backend : Backend) (interfaces : List Interface) :
    FileImports :=
  .ofPackages output.path (packages backend interfaces)

variable {backend : Backend} {interfaces : List Interface}

/-- The file has a place for the packages that an interface refers to, for the one that declares the
type of tracers, and for `context` where a method has to make one. -/
theorem mem_paths_packages {path : String} :
    path ∈ (packages backend interfaces).paths ↔
      path = backend.package.path ∨
        (∃ interface ∈ interfaces, ∃ package ∈ interface.references, package.path = path) ∨
        path = contextPath ∧ backend.needsBackground = true ∧
          ∃ interface ∈ interfaces, ∃ method ∈ interface.methods.items,
            method.contextParam = none := by
  have htraced : path ∈ ((interfaces.foldl withInterface PathMap.empty).addPackages
      backend.tracerType.references).paths ↔ path = backend.package.path ∨
        ∃ interface ∈ interfaces, ∃ package ∈ interface.references, package.path = path := by
    rw [PathMap.mem_paths_addPackages, mem_paths_foldl, or_comm]
    simp [PathMap.paths, PathMap.empty, Backend.tracerType, Descriptor.references, eq_comm]
  change path ∈ (if _ then _ else _ : PathMap).paths ↔ _
  split
  · rename_i hneeds
    simp only [Bool.and_eq_true, List.any_eq_true, Option.isNone_iff_eq_none] at hneeds
    have hput : path ∈ (((interfaces.foldl withInterface PathMap.empty).addPackages
        backend.tracerType.references).addIfAbsent contextPath contextPath).paths ↔ _ :=
      PathMap.mem_map_put
    refine hput.trans ?_
    simp only [hneeds, and_true]
    rw [or_comm, ← or_assoc]
    exact or_congr_left htraced
  · rename_i hneeds
    simp only [Bool.and_eq_true, List.any_eq_true, Option.isNone_iff_eq_none] at hneeds
    simp only [hneeds, and_false, or_false]
    exact htraced

/-- A file has a place only for packages that its interfaces refer to, and for those that its backend
needs. -/
theorem forall_mem_packages {accept : String × String → Prop}
    (hbackend : accept (backend.package.path, backend.package.aliasName))
    (hcontext : accept (contextPath, contextPath))
    (h : ∀ interface ∈ interfaces, ∀ package ∈ interface.references,
      accept (package.path, package.aliasName)) :
    ∀ entry ∈ (packages backend interfaces).entries, accept entry := by
  have htraced : ∀ entry ∈ ((interfaces.foldl withInterface PathMap.empty).addPackages
      backend.tracerType.references).entries, accept entry := by
    intro entry hentry
    rcases PathMap.mem_of_mem_addPackages hentry with hentry | ⟨package, hpackage, rfl⟩
    · rcases mem_of_mem_foldl hentry with hentry | ⟨interface, hinterface, package, hrefers, rfl⟩
      · cases hentry
      · exact h interface hinterface package hrefers
    · obtain rfl := List.mem_singleton.mp hpackage
      exact hbackend
  intro entry hentry
  change entry ∈ (if _ then _ else _ : PathMap).entries at hentry
  split at hentry
  · rcases PathMap.eq_or_mem_of_mem_put hentry with rfl | hmem
    · exact hcontext
    · exact htraced entry hmem
  · exact htraced entry hentry

/-- The aliases to prefer are identifiers when they are so where the interfaces come from. -/
theorem isIdentifier_of_mem_packages
    (h : ∀ interface ∈ interfaces, ∀ package ∈ interface.references,
      IsIdentifier package.aliasName) :
    ∀ entry ∈ (packages backend interfaces).entries, IsIdentifier entry.2 := by
  have hbackend : IsIdentifier backend.package.aliasName := by cases backend <;> decide
  have hcontext : IsIdentifier contextPath := by decide
  exact forall_mem_packages hbackend hcontext h

end WrapperFile

end GoTrace
