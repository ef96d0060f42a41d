import GoTrace.Proofs.Collection.FirstUse
import GoTrace.Proofs.Imports.Table
import Mathlib.Data.List.Find

/-!
# What imports are folded into

The imports of a file use aliases for paths, one after the other. A table has one entry for each alias,
which holds every path that the alias was used for: the first one, and the others as duplicates. One
more use keeps that so, and therefore it holds of the table that is made from all imports.
-/

namespace GoTrace

/-- The alias that an import uses, and the path that it uses it for. The pseudo package `C`, a blank and
a dot use none. -/
def ImportSpec.use? (nameOf : String → Option String) (spec : ImportSpec) :
    Option (String × String) :=
  if spec.path = "C" then none
  else
    match spec.name with
    | some .blank => none
    | some .dot => none
    | some (.named aliasName) => some (aliasName, spec.path)
    | none => some ((nameOf spec.path).getD (fallbackName spec.path), spec.path)

theorem ImportSpec.use?_eq (nameOf : String → Option String) (spec : ImportSpec) :
    spec.use? nameOf =
      if spec.bindsAlias then some (spec.aliasBy nameOf, spec.path) else none := by
  obtain ⟨name, path, span⟩ := spec
  unfold use? bindsAlias aliasBy
  by_cases hpath : path = "C"
  · simp [hpath]
  · cases name with
    | none => simp [hpath]
    | some name => cases name <;> simp [hpath]

/-! ## The paths of one alias -/

/-- The paths that an alias is used for, in order and as often as it is used for them. -/
def pathsUnder (uses : List (String × String)) (aliasName : String) : List String :=
  (uses.filter fun use => use.1 = aliasName).map (·.2)

theorem pathsUnder_concat (uses : List (String × String)) (use : String × String)
    (aliasName : String) :
    pathsUnder (uses ++ [use]) aliasName =
      pathsUnder uses aliasName ++ if use.1 = aliasName then [use.2] else [] := by
  unfold pathsUnder
  rw [List.filter_append, List.map_append]
  split <;> simp [*]

theorem pathsUnder_eq_nil {uses : List (String × String)} {aliasName : String}
    (h : aliasName ∉ uses.map (·.1)) : pathsUnder uses aliasName = [] := by
  rw [pathsUnder, List.map_eq_nil_iff, List.filter_eq_nil_iff]
  rintro use huse heq
  exact h (of_decide_eq_true heq ▸ List.mem_map_of_mem huse)

namespace ImportedPackage

/-- The entry holds all of the paths: one that it stands for, and the others as duplicates, each once
and in the order of first uses. -/
structure Gathers (paths : List String) (entry : ImportedPackage) : Prop where
  apart : entry.path ∉ entry.duplicates
  others : ListsUses (paths.filter fun path => path ≠ entry.path) entry.duplicates

variable {paths : List String} {entry : ImportedPackage}

theorem Gathers.fold (h : entry.Gathers paths) (path : String) :
    (entry.fold path).Gathers (paths ++ [path]) := by
  unfold ImportedPackage.fold
  by_cases hsame : entry.path = path
  · rw [if_pos (by simp [hsame])]
    refine ⟨h.apart, ?_⟩
    simpa [hsame, List.filter_append] using h.others
  · have hother : [path].filter (fun path => path ≠ entry.path) = [path] := by
      simp [Ne.symm hsame]
    by_cases hheld : path ∈ entry.duplicates
    · rw [if_pos (by simp [hheld])]
      refine ⟨h.apart, ?_⟩
      rw [List.filter_append, hother]
      exact h.others.concat_of_mem ((h.others.mem_iff path).mp hheld)
    · rw [if_neg (by simp [hsame, hheld])]
      refine ⟨by simp [h.apart, hsame], ?_⟩
      rw [List.filter_append, hother]
      exact h.others.concat_of_notMem fun hused => hheld ((h.others.mem_iff path).mpr hused)

theorem gathers_singleton (aliasName path : String) :
    Gathers [path] ⟨aliasName, path, []⟩ where
  apart := List.not_mem_nil
  others := by simpa using ListsUses.nil

end ImportedPackage

namespace ImportTable

/-- The table that the uses are folded into. -/
structure Folds (uses : List (String × String)) (table : ImportTable) : Prop where
  /-- Each alias that is used has one entry, and the entries are in the order of first uses. -/
  aliases : ListsUses (uses.map (·.1)) table.keys
  path : ∀ aliasName,
    table.pathOf aliasName = (uses.find? fun use => use.1 = aliasName).map (·.2)
  gathers : ∀ {aliasName entry}, table.get? aliasName = some entry →
    entry.Gathers (pathsUnder uses aliasName)
  aliasOf : ∀ path,
    table.aliasOf path = table.keys.find? fun aliasName => table.pathOf aliasName = some path

variable {uses : List (String × String)} {table : ImportTable}

theorem keys_insert (table : ImportTable) (aliasName path : String) :
    (table.insert aliasName path).keys =
      if aliasName ∈ table.keys then table.keys else table.keys ++ [aliasName] := by
  unfold insert
  simp only [Roster.contains_eq_true_iff]
  split
  · simp [Roster.keys, Roster.mapItems, Function.comp_def, ImportedPackage.foldUnder_aliasName]
  · rename_i hnew
    have hcontains : table.contains aliasName = false := by
      rwa [← Bool.not_eq_true, Roster.contains_eq_true_iff]
    simp [Roster.keys, Roster.items_addIfAbsent, hcontains]

theorem aliasOf_eq_find? (table : ImportTable) (path : String) :
    table.aliasOf path =
      table.keys.find? fun aliasName => table.pathOf aliasName = some path := by
  rw [aliasOf, Roster.keys, List.find?_map]
  congr 1
  refine List.find?_congr fun entry hentry => ?_
  simp [pathOf, Roster.get?_eq_some hentry]

theorem folds_empty : Folds [] Roster.empty where
  aliases := .nil
  path _ := rfl
  gathers h := nomatch h
  aliasOf := aliasOf_eq_find? _

theorem Folds.insert (h : table.Folds uses) (aliasName path : String) :
    (table.insert aliasName path).Folds (uses ++ [(aliasName, path)]) where
  aliases := by
    rw [List.map_append, keys_insert]
    split
    · rename_i hheld
      exact h.aliases.concat_of_mem ((h.aliases.mem_iff aliasName).mp hheld)
    · rename_i hnew
      exact h.aliases.concat_of_notMem fun hused => hnew ((h.aliases.mem_iff aliasName).mpr hused)
  path other := by
    rw [pathOf_insert, h.path, List.find?_append, Option.map_or]
    by_cases heq : aliasName = other
    · simp [heq]
    · simp [heq]
  gathers {other entry} hentry := by
    rw [get?_insert] at hentry
    rw [pathsUnder_concat]
    by_cases heq : aliasName = other
    · subst heq
      rw [if_pos rfl, Option.some.injEq] at hentry
      rw [if_pos rfl]
      cases hheld : table.get? aliasName with
      | some held =>
          rw [hheld] at hentry
          exact hentry ▸ (h.gathers hheld).fold path
      | none =>
          rw [hheld] at hentry
          subst hentry
          have hnew : aliasName ∉ uses.map (·.1) := by
            rw [← h.aliases.mem_iff, ← Roster.contains_eq_true_iff, ← Roster.isSome_get?, hheld]
            decide
          rw [pathsUnder_eq_nil hnew]
          exact ImportedPackage.gathers_singleton aliasName path
    · rw [if_neg heq] at hentry
      rw [if_neg heq, List.append_nil]
      exact h.gathers hentry
  aliasOf := aliasOf_eq_find? _

theorem folds_foldl (uses : List (String × String)) :
    Folds uses (uses.foldl (fun table use => table.insert use.1 use.2) Roster.empty) := by
  induction uses using List.reverseRecOn with
  | nil => exact folds_empty
  | append_singleton uses use ih =>
      rw [List.foldl_append]
      exact ih.insert use.1 use.2

/-- The table of a file is what the uses of its imports are folded into. -/
theorem folds_ofSpecs (specs : List ImportSpec) (nameOf : String → Option String) :
    (ofSpecs specs nameOf).Folds (specs.filterMap (ImportSpec.use? nameOf)) := by
  have huses : specs.filterMap (ImportSpec.use? nameOf) =
      (specs.filter ImportSpec.bindsAlias).map fun spec => (spec.aliasBy nameOf, spec.path) := by
    rw [← List.filterMap_eq_map, List.filterMap_filter]
    exact List.filterMap_congr fun spec _ => spec.use?_eq nameOf
  rw [huses]
  have hfolds := folds_foldl
    ((specs.filter ImportSpec.bindsAlias).map fun spec => (spec.aliasBy nameOf, spec.path))
  rwa [List.foldl_map] at hfolds

end ImportTable

end GoTrace
