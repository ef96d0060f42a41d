import GoTrace.Collection.Roster

/-!
# What the operations of rosters do to the items

Adding the items of one roster to another leaves the items that were there in front, followed by
those whose keys were free.
-/

namespace GoTrace.Roster

variable {α : Type} {key : α → String}

theorem items_replace (roster : Roster key) (item : α) :
    (roster.replace item).items =
      (roster.items.filter fun other => key other ≠ key item) ++ [item] := rfl

theorem items_addIfAbsent (roster : Roster key) (item : α) :
    (roster.addIfAbsent item).items =
      if roster.contains (key item) then roster.items else roster.items ++ [item] := by
  unfold addIfAbsent
  split
  · rfl
  · rfl

theorem contains_addIfAbsent (roster : Roster key) (item : α) (name : String) :
    (roster.addIfAbsent item).contains name = (roster.contains name || key item = name) := by
  unfold contains
  rw [items_addIfAbsent]
  split
  · rename_i hkey
    by_cases heq : key item = name
    · rw [← heq]
      simpa [contains] using hkey
    · simp [heq]
  · simp

theorem contains_replace (roster : Roster key) (item : α) (name : String) :
    (roster.replace item).contains name = (roster.contains name || key item = name) := by
  unfold contains
  rw [items_replace, List.any_append, List.any_filter]
  by_cases heq : key item = name
  · simp [heq]
  · congr 1
    · refine List.any_congr rfl fun other => ?_
      by_cases hother : key other = name
      · have hne : name ≠ key item := fun h => heq h.symm
        simp [hother, hne]
      · simp [hother]
    · simp

theorem contains_foldl_addIfAbsent (roster : Roster key) (items : List α) (name : String) :
    (items.foldl addIfAbsent roster).contains name =
      (roster.contains name || items.any fun item => key item = name) := by
  induction items generalizing roster with
  | nil => simp
  | cons item rest ih =>
      rw [List.foldl_cons, ih, contains_addIfAbsent, List.any_cons, Bool.or_assoc]

theorem items_foldl_addIfAbsent (roster : Roster key) {items : List α}
    (h : (items.map key).Nodup) :
    (items.foldl addIfAbsent roster).items =
      roster.items ++ items.filter fun item => !roster.contains (key item) := by
  induction items generalizing roster with
  | nil => simp
  | cons item rest ih =>
      rw [List.map_cons, List.nodup_cons] at h
      rw [List.foldl_cons, ih _ h.2]
      have hrest : (rest.filter fun other => !(roster.addIfAbsent item).contains (key other)) =
          rest.filter fun other => !roster.contains (key other) := by
        refine List.filter_congr fun other hother => ?_
        have hne : key item ≠ key other := fun heq =>
          h.1 (heq ▸ List.mem_map.mpr ⟨other, hother, rfl⟩)
        simp [contains_addIfAbsent, hne]
      rw [hrest, items_addIfAbsent, List.filter_cons]
      cases roster.contains (key item) with
      | true => simp
      | false => simp

theorem mem_of_mem_replace {roster : Roster key} {item other : α}
    (h : other ∈ (roster.replace item).items) : other = item ∨ other ∈ roster.items := by
  rw [items_replace, List.mem_append] at h
  rcases h with h | h
  · exact .inr (List.mem_filter.mp h).1
  · exact .inl (List.mem_singleton.mp h)

theorem mem_of_mem_foldl_addIfAbsent {roster : Roster key} {items : List α} {other : α}
    (h : other ∈ (items.foldl addIfAbsent roster).items) :
    other ∈ roster.items ∨ other ∈ items := by
  induction items generalizing roster with
  | nil => exact .inl h
  | cons item rest ih =>
      rcases ih h with hmem | hmem
      · rw [items_addIfAbsent] at hmem
        split at hmem
        · exact .inl hmem
        · rcases List.mem_append.mp hmem with hmem | hmem
          · exact .inl hmem
          · exact .inr (List.mem_cons.mpr (.inl (List.mem_singleton.mp hmem)))
      · exact .inr (List.mem_cons_of_mem _ hmem)

/-! ## Looking up -/

theorem isSome_get? (roster : Roster key) (name : String) :
    (roster.get? name).isSome = roster.contains name := by
  rw [Bool.eq_iff_iff, get?, contains, List.find?_isSome, List.any_eq_true]

theorem get?_mapItems (roster : Roster key) {f : α → α} (keeps : ∀ item, key (f item) = key item)
    (name : String) : (roster.mapItems f keeps).get? name = (roster.get? name).map f := by
  simp only [get?, mapItems, List.find?_map, Function.comp_def, keeps]

theorem get?_addIfAbsent (roster : Roster key) (item : α) (name : String) :
    (roster.addIfAbsent item).get? name =
      (roster.get? name).or (if key item = name then some item else none) := by
  rw [get?, get?, items_addIfAbsent]
  split
  · rename_i hheld
    split
    · rename_i heq
      rw [heq, ← isSome_get?, Option.isSome_iff_exists] at hheld
      obtain ⟨held, hheld⟩ := hheld
      rw [get?] at hheld
      rw [hheld, Option.some_or]
    · rw [Option.or_none]
  · rw [List.find?_append]
    by_cases heq : key item = name
    · simp [heq]
    · simp [heq]

theorem get?_eq_some {roster : Roster key} {item : α} (h : item ∈ roster.items) :
    roster.get? (key item) = some item := by
  obtain ⟨items, hnodup⟩ := roster
  change item ∈ items at h
  change items.find? (fun other => key other = key item) = some item
  induction items with
  | nil => cases h
  | cons first rest ih =>
      rw [List.map_cons, List.nodup_cons] at hnodup
      rw [List.find?_cons]
      rcases List.mem_cons.mp h with rfl | hmem
      · simp
      · have hne : key first ≠ key item := fun heq =>
          hnodup.1 (heq ▸ List.mem_map.mpr ⟨item, hmem, rfl⟩)
        simp [hne, ih hnodup.2 hmem]

theorem get?_eq_some_iff {roster : Roster key} {item : α} {name : String} :
    roster.get? name = some item ↔ item ∈ roster.items ∧ key item = name := by
  constructor
  · intro h
    refine ⟨List.mem_of_find?_eq_some h, ?_⟩
    simpa using List.find?_some h
  · rintro ⟨hmem, rfl⟩
    exact get?_eq_some hmem

end GoTrace.Roster
