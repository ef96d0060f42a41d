import GoTrace.Proofs.Module.Lookup
import GoTrace.Workspace.Layout

/-!
# Where the directories of an import path come from

There are six grounds on which a directory may hold the package of an import path. On two of them a module
is looked up, among those that are replaced or those that are required: the directory then belongs to the
deepest module whose segments the import path begins with, and what follows these segments leads to it.
-/

namespace GoTrace.Workspace

open GoModule

/-- The grounds on which a directory may hold the package of an import path. -/
inductive Offers (workspace : Workspace) (importPath : String) : Path → Prop
  | own {module : GoModule} {rest : List Char} : workspace.module = some module →
      Leaves module.path.toList importPath.toList rest →
      Offers workspace importPath (directoryBelow module.root rest)
  | vendored {module : GoModule} : workspace.module = some module →
      Offers workspace importPath
        (directoryBelow (module.root.join (.ofText "vendor")) importPath.toList)
  /-- The package is in a module that is replaced, and `base` is the directory of what replaces it. -/
  | replaced {module : GoModule} {replacement : Replacement} {rest : List Char} {base : Path} :
      workspace.module = some module →
      Deepest Replacement.path module.replaces importPath replacement →
      Leaves replacement.path.toList importPath.toList rest →
      workspace.replacing module replacement.target = some base →
      Offers workspace importPath (directoryBelow base rest)
  /-- The package is in a module that is required, and `base` is its directory in the cache. -/
  | required {module : GoModule} {requirement : Requirement} {rest : List Char} {base : Path} :
      workspace.module = some module →
      Deepest Requirement.path module.requires importPath requirement →
      Leaves requirement.path.toList importPath.toList rest →
      workspace.cached requirement.path requirement.version = some base →
      Offers workspace importPath (directoryBelow base rest)
  | toolchain {base : Path} : workspace.environment.goroot = some base →
      Offers workspace importPath (directoryBelow (base.join (.ofText "src")) importPath.toList)
  | outside {base : Path} : base ∈ workspace.environment.gopath →
      Offers workspace importPath (directoryBelow (base.join (.ofText "src")) importPath.toList)

variable {workspace : Workspace} {importPath : String} {place : Path}

theorem mem_candidates_iff_exists : place ∈ workspace.candidates importPath ↔
    (∃ module, workspace.module = some module ∧
      place ∈ workspace.moduleCandidates module importPath) ∨
    ∃ base, (workspace.environment.goroot = some base ∨ base ∈ workspace.environment.gopath) ∧
      directoryBelow (base.join (.ofText "src")) importPath.toList = place := by
  unfold candidates
  simp only [List.mem_append, List.mem_map, Option.mem_toList]
  refine or_congr_left ?_
  cases workspace.module <;> simp

/-- The directories that an import path may stand for are those that there are grounds for. -/
theorem mem_candidates_iff :
    place ∈ workspace.candidates importPath ↔ workspace.Offers importPath place := by
  rw [mem_candidates_iff_exists]
  simp only [moduleCandidates, List.mem_append, List.mem_singleton, Option.mem_toList,
    Option.bind_eq_some_iff, Option.map_eq_some_iff, Prod.exists, below?_eq_some_iff,
    longestMatch?_eq_some_iff, or_assoc]
  constructor
  · rintro (⟨module, hmodule, hmem⟩ | ⟨base, hroot | hbase, rfl⟩)
    · obtain ⟨rest, hrest, rfl⟩ | rfl | hreplaced | hrequired := hmem
      · exact .own hmodule hrest
      · exact .vendored hmodule
      · obtain ⟨replacement, rest, ⟨hdeepest, hrest⟩, base, hbase, rfl⟩ := hreplaced
        exact .replaced hmodule hdeepest hrest hbase
      · obtain ⟨requirement, rest, ⟨hdeepest, hrest⟩, base, hbase, rfl⟩ := hrequired
        exact .required hmodule hdeepest hrest hbase
    · exact .toolchain hroot
    · exact .outside hbase
  · intro h
    cases h with
    | own hmodule hrest => exact .inl ⟨_, hmodule, .inl ⟨_, hrest, rfl⟩⟩
    | vendored hmodule => exact .inl ⟨_, hmodule, .inr (.inl rfl)⟩
    | replaced hmodule hdeepest hrest hbase =>
        exact .inl ⟨_, hmodule, .inr (.inr (.inl ⟨_, _, ⟨hdeepest, hrest⟩, _, hbase, rfl⟩))⟩
    | required hmodule hdeepest hrest hbase =>
        exact .inl ⟨_, hmodule, .inr (.inr (.inr ⟨_, _, ⟨hdeepest, hrest⟩, _, hbase, rfl⟩))⟩
    | toolchain hroot => exact .inr ⟨_, .inl hroot, rfl⟩
    | outside hbase => exact .inr ⟨_, .inr hbase, rfl⟩

/-- Modules are looked up by whole segments. An entry is found just where the path of one is that which is
looked up or a parent of it; what is found is the last entry with the longest such path, and comes with
what its path leaves. So each directory of a replacement or in the cache that a package may be in belongs
to the deepest module whose segments the import path begins with. -/
theorem lookup_by_segments {α : Type} (pathOf : α → String) (entries : List α) (importPath : String)
    (workspace : Workspace) :
    ((longestMatch? pathOf entries importPath).isSome = true ↔
      ∃ entry ∈ entries, Encloses (pathOf entry).toList importPath.toList) ∧
    (∀ entry rest, longestMatch? pathOf entries importPath = some (entry, rest) ↔
      Deepest pathOf entries importPath entry ∧
        Leaves (pathOf entry).toList importPath.toList rest) ∧
    (∀ path, Encloses path importPath.toList ↔ segments path <+: segments importPath.toList) ∧
    ∀ place, place ∈ workspace.candidates importPath ↔ workspace.Offers importPath place :=
  ⟨isSome_longestMatch?_iff, fun _ _ => longestMatch?_eq_some_iff, fun _ => encloses_iff_segments,
    fun _ => mem_candidates_iff⟩

end GoTrace.Workspace
