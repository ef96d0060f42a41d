import GoTrace.Collection.PathMap
import GoTrace.Signature.Descriptor

/-!
# What a map from import paths holds

The paths of a map are the paths that were put into it, and each of its names was put there with its
path.
-/

namespace GoTrace.PathMap

def paths (map : PathMap) : List String := map.entries.map (·.1)

theorem nodup_paths (map : PathMap) : map.paths.Nodup := by
  refine List.pairwise_map.mpr (map.sorted.imp ?_)
  intro first second hlt heq
  rw [heq] at hlt
  exact String.lt_irrefl _ hlt

theorem mem_map_put {keep : Bool} {path name : String} {entries : List (String × String)}
    {other : String} :
    other ∈ (put keep path name entries).map (·.1) ↔ other = path ∨ other ∈ entries.map (·.1) := by
  induction entries with
  | nil => simp [put]
  | cons entry rest ih =>
      unfold put
      by_cases hlt : path < entry.1
      · simp [hlt]
      · by_cases heq : path = entry.1
        · cases keep <;> simp [heq]
        · rw [if_neg hlt, if_neg heq, List.map_cons, List.mem_cons, ih, List.map_cons, List.mem_cons]
          exact or_left_comm

theorem eq_or_mem_of_mem_put {keep : Bool} {path name : String} {entries : List (String × String)}
    {entry : String × String} (h : entry ∈ put keep path name entries) :
    entry = (path, name) ∨ entry ∈ entries := by
  induction entries with
  | nil => simpa [put] using h
  | cons first rest ih =>
      unfold put at h
      by_cases hlt : path < first.1
      · simpa [hlt] using h
      · by_cases heq : path = first.1
        · rw [if_neg hlt, if_pos heq] at h
          cases keep
          · exact (List.mem_cons.mp h).imp_right (List.mem_cons_of_mem _)
          · exact .inr h
        · rw [if_neg hlt, if_neg heq] at h
          rcases List.mem_cons.mp h with rfl | h
          · exact .inr List.mem_cons_self
          · exact (ih h).imp_right (List.mem_cons_of_mem _)

/-- The map with further entries, of which the first for a path counts. -/
def merge (map : PathMap) (entries : List (String × String)) : PathMap :=
  entries.foldl (fun map entry => map.addIfAbsent entry.1 entry.2) map

theorem addPackages_eq_merge (map : PathMap) (packages : List PackageRef) :
    map.addPackages packages =
      map.merge (packages.map fun package => (package.path, package.aliasName)) := by
  rw [merge, List.foldl_map]
  rfl

theorem mem_paths_merge {map : PathMap} {entries : List (String × String)} {path : String} :
    path ∈ (map.merge entries).paths ↔ path ∈ map.paths ∨ path ∈ entries.map (·.1) := by
  induction entries generalizing map with
  | nil => simp [merge]
  | cons entry rest ih =>
      have hfirst : path ∈ (map.addIfAbsent entry.1 entry.2).paths ↔
          path = entry.1 ∨ path ∈ map.paths := mem_map_put
      change path ∈ ((map.addIfAbsent entry.1 entry.2).merge rest).paths ↔ _
      rw [ih, hfirst, List.map_cons, List.mem_cons, or_assoc, or_left_comm]

theorem mem_of_mem_merge {map : PathMap} {entries : List (String × String)}
    {entry : String × String} (h : entry ∈ (map.merge entries).entries) :
    entry ∈ map.entries ∨ entry ∈ entries := by
  induction entries generalizing map with
  | nil => exact .inl h
  | cons first rest ih =>
      rw [show map.merge (first :: rest) = (map.addIfAbsent first.1 first.2).merge rest from rfl] at h
      rcases ih h with hmem | hmem
      · rcases eq_or_mem_of_mem_put hmem with heq | hmem
        · exact .inr (List.mem_cons.mpr (.inl heq))
        · exact .inl hmem
      · exact .inr (List.mem_cons_of_mem _ hmem)

theorem mem_paths_addPackages {map : PathMap} {packages : List PackageRef} {path : String} :
    path ∈ (map.addPackages packages).paths ↔
      path ∈ map.paths ∨ ∃ package ∈ packages, package.path = path := by
  rw [addPackages_eq_merge, mem_paths_merge, List.map_map]
  simp

theorem mem_of_mem_addPackages {map : PathMap} {packages : List PackageRef}
    {entry : String × String} (h : entry ∈ (map.addPackages packages).entries) :
    entry ∈ map.entries ∨ ∃ package ∈ packages, entry = (package.path, package.aliasName) := by
  rw [addPackages_eq_merge] at h
  refine (mem_of_mem_merge h).imp_right ?_
  intro hmem
  obtain ⟨package, hpackage, heq⟩ := List.mem_map.mp hmem
  exact ⟨package, hpackage, heq.symm⟩

theorem find?_put {path name other : String} {entries : List (String × String)}
    (hsorted : entries.Pairwise fun first second => first.1 < second.1) :
    ((put true path name entries).find? fun entry => entry.1 = other).map (·.2) =
      ((entries.find? fun entry => entry.1 = other).map (·.2)).or
        (if path = other then some name else none) := by
  induction entries with
  | nil => by_cases heq : path = other <;> simp [put, heq]
  | cons entry rest ih =>
      obtain ⟨hfirst, hrest⟩ := List.pairwise_cons.mp hsorted
      unfold put
      by_cases hlt : path < entry.1
      · rw [if_pos hlt]
        by_cases heq : path = other
        · -- All paths of the map come later, so none of them is the one looked for.
          subst heq
          have hlater : (entry :: rest).find? (fun entry => entry.1 = path) = none := by
            refine List.find?_eq_none.mpr fun found hfound => ?_
            rw [decide_eq_true_eq]
            rintro rfl
            rcases List.mem_cons.mp hfound with rfl | hfound
            · exact String.lt_irrefl _ hlt
            · exact String.lt_irrefl _ (String.lt_trans hlt (hfirst found hfound))
          rw [hlater, List.find?_cons_of_pos (by simp)]
          simp
        · rw [List.find?_cons_of_neg (by simpa using heq), if_neg heq, Option.or_none]
      · rw [if_neg hlt]
        by_cases heq : path = entry.1
        · rw [if_pos heq, if_pos rfl]
          by_cases hother : path = other
          · rw [List.find?_cons_of_pos (by simpa using heq.symm.trans hother)]
            simp
          · rw [if_neg hother, Option.or_none]
        · rw [if_neg heq]
          by_cases hother : entry.1 = other
          · rw [List.find?_cons_of_pos (by simpa using hother),
              List.find?_cons_of_pos (by simpa using hother)]
            simp
          · rw [List.find?_cons_of_neg (by simpa using hother),
              List.find?_cons_of_neg (by simpa using hother), ih hrest]

/-- Of the packages with one path the first gives the name, unless the path had one before. -/
theorem get?_addPackages (map : PathMap) (packages : List PackageRef) (path : String) :
    (map.addPackages packages).get? path =
      (map.get? path).or
        ((packages.find? fun package => package.path = path).map (·.aliasName)) := by
  induction packages generalizing map with
  | nil => exact (Option.or_none).symm
  | cons package rest ih =>
      have hadded : (map.addIfAbsent package.path package.aliasName).get? path =
          (map.get? path).or (if package.path = path then some package.aliasName else none) :=
        find?_put map.sorted
      change ((map.addIfAbsent package.path package.aliasName).addPackages rest).get? path = _
      rw [ih, hadded, Option.or_assoc]
      by_cases heq : package.path = path
      · rw [if_pos heq, List.find?_cons_of_pos (by simpa using heq)]
        rfl
      · rw [if_neg heq, List.find?_cons_of_neg (by simpa using heq), Option.none_or]

end GoTrace.PathMap
