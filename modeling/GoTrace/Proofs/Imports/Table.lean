import GoTrace.Imports.Table
import GoTrace.Proofs.Collection.Roster

/-!
# What an alias stands for

A table folds further imports under one alias into the first. So an alias stands for the path of the
first import that has it, and whatever it stands for was imported by the file.
-/

namespace GoTrace

namespace ImportedPackage

theorem fold_path (entry : ImportedPackage) (path : String) :
    (entry.fold path).path = entry.path := by
  unfold fold
  split <;> rfl

end ImportedPackage

namespace ImportTable

theorem get?_insert (table : ImportTable) (aliasName path other : String) :
    (table.insert aliasName path).get? other =
      if aliasName = other then
        some (((table.get? aliasName).map (·.fold path)).getD ⟨aliasName, path, []⟩)
      else table.get? other := by
  unfold insert
  rw [← Roster.isSome_get?]
  cases hheld : table.get? aliasName with
  | none =>
      rw [Option.isSome_none, if_neg (by decide), Roster.get?_addIfAbsent]
      split
      · rename_i heq
        rw [← heq, hheld]
        rfl
      · rw [Option.or_none]
  | some held =>
      rw [Option.isSome_some, if_pos rfl, Roster.get?_mapItems]
      split
      · rename_i heq
        obtain ⟨-, hname⟩ := Roster.get?_eq_some_iff.mp hheld
        rw [← heq, hheld]
        simp [ImportedPackage.foldUnder, hname]
      · rename_i hne
        cases hother : table.get? other with
        | none => rfl
        | some entry =>
            obtain ⟨-, hname⟩ := Roster.get?_eq_some_iff.mp hother
            simp [ImportedPackage.foldUnder, hname, Ne.symm hne]

theorem pathOf_insert (table : ImportTable) (aliasName path other : String) :
    (table.insert aliasName path).pathOf other =
      (table.pathOf other).or (if aliasName = other then some path else none) := by
  unfold pathOf
  rw [get?_insert]
  split
  · rename_i heq
    rw [← heq]
    cases table.get? aliasName <;> simp [ImportedPackage.fold_path]
  · rw [Option.or_none]

theorem pathOf_foldl (table : ImportTable) (specs : List ImportSpec)
    (nameOf : String → Option String) (aliasName : String) :
    (specs.foldl (fun table spec => table.insert (spec.aliasBy nameOf) spec.path) table).pathOf
        aliasName =
      (table.pathOf aliasName).or
        ((specs.find? fun spec => spec.aliasBy nameOf = aliasName).map (·.path)) := by
  induction specs generalizing table with
  | nil => simp
  | cons spec rest ih =>
      rw [List.foldl_cons, ih, pathOf_insert, Option.or_assoc, List.find?_cons]
      by_cases heq : spec.aliasBy nameOf = aliasName
      · simp [heq]
      · simp [heq]

/-- An alias stands for the path of the first import that brings it into the file. -/
theorem pathOf_ofSpecs (specs : List ImportSpec) (nameOf : String → Option String)
    (aliasName : String) :
    (ofSpecs specs nameOf).pathOf aliasName =
      ((specs.filter ImportSpec.bindsAlias).find? fun spec =>
        spec.aliasBy nameOf = aliasName).map (·.path) := by
  rw [ofSpecs, pathOf_foldl]
  rfl

theorem exists_spec_of_pathOf {specs : List ImportSpec} {nameOf : String → Option String}
    {aliasName path : String} (h : (ofSpecs specs nameOf).pathOf aliasName = some path) :
    ∃ spec ∈ specs, spec.path = path := by
  rw [pathOf_ofSpecs] at h
  obtain ⟨spec, hspec, rfl⟩ := Option.map_eq_some_iff.mp h
  exact ⟨spec, (List.mem_filter.mp (List.mem_of_find?_eq_some hspec)).1, rfl⟩

theorem exists_spec_of_resolve {loader : Loader} {specs : List ImportSpec} {table : ImportTable}
    (h : resolve loader specs = .ok table) {aliasName path : String}
    (hpath : table.pathOf aliasName = some path) : ∃ spec ∈ specs, spec.path = path := by
  unfold resolve at h
  cases hnames : loader.namesOf ((specs.filter ImportSpec.needsName).map (·.path)) with
  | error cause =>
      rw [hnames] at h
      cases h
  | ok names =>
      rw [hnames] at h
      cases h
      exact exists_spec_of_pathOf hpath

end ImportTable

end GoTrace
