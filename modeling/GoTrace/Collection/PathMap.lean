/-!
# Maps from import paths

A finite map from import paths to names, listed in the order of the paths. Strings are ordered by
their code points, which is also the order of their bytes.
-/

namespace GoTrace

/-- Import paths with a name each, in increasing order of the paths. -/
structure PathMap where
  entries : List (String × String)
  sorted : entries.Pairwise fun first second => first.1 < second.1

namespace PathMap

@[ext]
theorem ext {first second : PathMap} (h : first.entries = second.entries) : first = second := by
  cases first
  cases second
  cases h
  rfl

instance : DecidableEq PathMap := fun first second =>
  decidable_of_iff (first.entries = second.entries) ⟨PathMap.ext, fun h => h ▸ rfl⟩

def empty : PathMap := ⟨[], List.Pairwise.nil⟩

instance : Inhabited PathMap := ⟨empty⟩

def get? (map : PathMap) (path : String) : Option String :=
  (map.entries.find? fun entry => entry.1 = path).map (·.2)

/-- Puts a path into a sorted list; `keep` chooses between the name that was there and the new
one. -/
def put (keep : Bool) (path name : String) : List (String × String) → List (String × String)
  | [] => [(path, name)]
  | entry :: rest =>
      if path < entry.1 then (path, name) :: entry :: rest
      else if path = entry.1 then (if keep then entry else (path, name)) :: rest
      else entry :: put keep path name rest

theorem mem_put {keep : Bool} {path name : String} {entries : List (String × String)}
    {entry : String × String} (h : entry ∈ put keep path name entries) :
    entry.1 = path ∨ entry ∈ entries := by
  induction entries with
  | nil =>
      simp only [put, List.mem_singleton] at h
      exact Or.inl (h ▸ rfl)
  | cons first rest ih =>
      unfold put at h
      split at h
      · rcases List.mem_cons.mp h with h | h
        · exact Or.inl (h ▸ rfl)
        · exact Or.inr h
      · split at h
        · rename_i heq
          rcases List.mem_cons.mp h with h | h
          · cases keep
            · exact Or.inl (h ▸ rfl)
            · exact Or.inr (List.mem_cons.mpr (Or.inl h))
          · exact Or.inr (List.mem_cons_of_mem _ h)
        · rcases List.mem_cons.mp h with h | h
          · exact Or.inr (List.mem_cons.mpr (Or.inl h))
          · exact (ih h).imp_right (List.mem_cons_of_mem _)

theorem put_sorted {keep : Bool} {path name : String} {entries : List (String × String)}
    (h : entries.Pairwise fun first second => first.1 < second.1) :
    (put keep path name entries).Pairwise fun first second => first.1 < second.1 := by
  induction entries with
  | nil => simp [put]
  | cons first rest ih =>
      rw [List.pairwise_cons] at h
      unfold put
      split
      · rename_i hlt
        rw [List.pairwise_cons, List.pairwise_cons]
        refine ⟨?_, h⟩
        intro entry hmem
        rcases List.mem_cons.mp hmem with rfl | hmem
        · exact hlt
        · exact String.lt_trans hlt (h.1 entry hmem)
      · rename_i hnot
        split
        · rename_i heq
          rw [List.pairwise_cons]
          refine ⟨?_, h.2⟩
          intro entry hmem
          cases keep
          · exact heq ▸ h.1 entry hmem
          · exact h.1 entry hmem
        · rename_i hne
          rw [List.pairwise_cons]
          refine ⟨?_, ih h.2⟩
          intro entry hmem
          rcases mem_put hmem with heq | hmem
          · rcases Decidable.em (first.1 < path) with hlt | hge
            · exact heq ▸ hlt
            · exact absurd (String.le_antisymm hge hnot) hne
          · exact h.1 entry hmem

def addIfAbsent (map : PathMap) (path name : String) : PathMap :=
  ⟨put true path name map.entries, put_sorted map.sorted⟩

def insert (map : PathMap) (path name : String) : PathMap :=
  ⟨put false path name map.entries, put_sorted map.sorted⟩

/-- The map with the given entries, of which a later one for the same path counts. -/
def ofList (entries : List (String × String)) : PathMap :=
  entries.foldl (fun map entry => map.insert entry.1 entry.2) empty

end PathMap

end GoTrace
