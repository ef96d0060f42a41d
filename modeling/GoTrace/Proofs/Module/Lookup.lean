import GoTrace.Module.Definition
import GoTrace.Proofs.Text.Cut
import Mathlib.Data.List.Induction

/-!
# The module of an import path

A module holds the packages whose import paths are its own path or go on behind it with a slash, so
`a/b` holds `a/b/c` and not `a/bc`. Of the modules that hold a package the one with the longest path is
looked up, and of several entries with this path the last one.
-/

namespace GoTrace.GoModule

variable {outer path rest : List Char}

/-! ## Paths that enclose a path -/

/-- Whether a path is `path` or a parent of it. -/
def Encloses (outer path : List Char) : Prop :=
  outer = path ∨ outer ++ ['/'] <+: path

instance (outer path : List Char) : Decidable (Encloses outer path) :=
  inferInstanceAs (Decidable (_ ∨ _))

/-- What is left of a path behind one that encloses it. -/
inductive Leaves (outer : List Char) : List Char → List Char → Prop
  | self : Leaves outer outer []
  | below (rest : List Char) : Leaves outer (outer ++ '/' :: rest) rest

theorem encloses_iff_exists_leaves : Encloses outer path ↔ ∃ rest, Leaves outer path rest := by
  constructor
  · rintro (rfl | ⟨rest, rfl⟩)
    · exact ⟨[], .self⟩
    · rw [List.append_assoc]
      exact ⟨rest, .below rest⟩
  · rintro ⟨rest, _ | _⟩
    · exact .inl rfl
    · exact .inr ⟨rest, List.append_assoc ..⟩

theorem Leaves.encloses (h : Leaves outer path rest) : Encloses outer path :=
  encloses_iff_exists_leaves.mpr ⟨rest, h⟩

theorem below?_append (outer below : List Char) :
    below? outer (outer ++ '/' :: below) = some below := by
  have hlonger : outer ++ '/' :: below ≠ outer := by simp
  rw [below?, if_neg hlonger, Text.dropPrefix?_append, Option.bind_some]
  exact Text.dropPrefix?_append ['/'] below

theorem below?_self (outer : List Char) : below? outer outer = some [] := if_pos rfl

theorem below?_eq_some_iff : below? outer path = some rest ↔ Leaves outer path rest := by
  constructor
  · intro h
    unfold below? at h
    split at h
    · rename_i heq
      cases h
      exact heq ▸ .self
    · obtain ⟨behind, hbehind, hrest⟩ := Option.bind_eq_some_iff.mp h
      rw [Text.dropPrefix?_eq_some_iff.mp hbehind, Text.dropPrefix?_eq_some_iff.mp hrest]
      exact .below rest
  · rintro (_ | _)
    · exact below?_self outer
    · exact below?_append outer rest

theorem below?_eq_none_iff : below? outer path = none ↔ ¬ Encloses outer path := by
  rw [encloses_iff_exists_leaves, Option.eq_none_iff_forall_ne_some]
  simp only [ne_eq, below?_eq_some_iff, not_exists]

def segments (path : List Char) : List (List Char) :=
  Text.fieldsBy (· = '/') path

theorem encloses_iff_segments : Encloses outer path ↔ segments outer <+: segments path := by
  constructor
  · intro h
    obtain ⟨rest, _ | _⟩ := encloses_iff_exists_leaves.mp h
    · exact List.prefix_refl _
    · rw [segments, segments, Text.fieldsBy_append_mark_cons]
      exact List.prefix_append _ _
  · rintro ⟨more, hmore⟩
    have htext (text : List Char) : ['/'].intercalate (segments text) = text :=
      Text.intercalate_fieldsBy text
    have hpath := htext path
    rw [← hmore] at hpath
    by_cases hnil : more = []
    · rw [hnil, List.append_nil, htext] at hpath
      exact .inl hpath
    · have hne : segments outer ≠ [] := Text.fieldsBy_ne_nil outer
      rw [Text.intercalate_append hne hnil, htext] at hpath
      exact hpath ▸ (Leaves.below _).encloses

/-! ## The deepest entry -/

section

variable {α : Type} {pathOf : α → String} {entries : List α} {path : String} {entry : α}
  {rest : List Char}

/-- The entry is one whose path encloses a path. No other such entry has a longer path, and none behind
it has one as long. -/
structure Deepest (pathOf : α → String) (entries : List α) (path : String) (entry : α) : Prop where
  encloses : Encloses (pathOf entry).toList path.toList
  splits : ∃ before after, entries = before ++ entry :: after ∧
    (∀ other ∈ before, Encloses (pathOf other).toList path.toList →
      (pathOf other).length ≤ (pathOf entry).length) ∧
    ∀ other ∈ after, Encloses (pathOf other).toList path.toList →
      (pathOf other).length < (pathOf entry).length

theorem Deepest.mem (h : Deepest pathOf entries path entry) : entry ∈ entries := by
  obtain ⟨before, after, rfl, -, -⟩ := h.splits
  exact List.mem_append_right _ List.mem_cons_self

theorem Deepest.length_le (h : Deepest pathOf entries path entry) {other : α} (hmem : other ∈ entries)
    (hother : Encloses (pathOf other).toList path.toList) :
    (pathOf other).length ≤ (pathOf entry).length := by
  obtain ⟨before, after, rfl, hbefore, hafter⟩ := h.splits
  rcases List.mem_append.mp hmem with hmem | hmem
  · exact hbefore other hmem hother
  · rcases List.mem_cons.mp hmem with rfl | hmem
    · exact Nat.le_refl _
    · exact Nat.le_of_lt (hafter other hmem hother)

/-- There is one deepest entry at most, also where several entries have one path. -/
theorem Deepest.unique {other : α} (h : Deepest pathOf entries path entry)
    (hother : Deepest pathOf entries path other) : entry = other := by
  have hle := hother.length_le h.mem h.encloses
  have hge := h.length_le hother.mem hother.encloses
  obtain ⟨before, after, hsplit, -, hafter⟩ := h.splits
  obtain ⟨before', after', hsplit', -, hafter'⟩ := hother.splits
  rw [hsplit] at hsplit'
  -- the two stand at one place, or one behind the other, where it would have to be shorter
  rcases List.append_eq_append_iff.mp hsplit' with ⟨between, -, hrest⟩ | ⟨between, -, hrest⟩
  · rcases List.cons_eq_append_iff.mp hrest with ⟨-, hcons⟩ | ⟨later, -, rfl⟩
    · exact (List.cons.inj hcons).1.symm
    · exact absurd (hafter other (by simp) hother.encloses) (Nat.not_lt.mpr hle)
  · rcases List.cons_eq_append_iff.mp hrest with ⟨-, hcons⟩ | ⟨later, -, rfl⟩
    · exact (List.cons.inj hcons).1
    · exact absurd (hafter' entry (by simp) h.encloses) (Nat.not_lt.mpr hge)

variable {last : α}

/-- The deepest entry stays so in front of one that does not enclose the path, or is not as deep. -/
theorem Deepest.concat (h : Deepest pathOf entries path entry)
    (hlast : Encloses (pathOf last).toList path.toList →
      (pathOf last).length < (pathOf entry).length) :
    Deepest pathOf (entries ++ [last]) path entry := by
  obtain ⟨before, after, rfl, hbefore, hafter⟩ := h.splits
  refine ⟨h.encloses, before, after ++ [last], by simp, hbefore, ?_⟩
  exact List.forall_mem_append.mpr ⟨hafter, List.forall_mem_singleton.mpr hlast⟩

theorem deepest_concat (hlast : Encloses (pathOf last).toList path.toList)
    (h : ∀ other ∈ entries, Encloses (pathOf other).toList path.toList →
      (pathOf other).length ≤ (pathOf last).length) :
    Deepest pathOf (entries ++ [last]) path last :=
  ⟨hlast, entries, [], rfl, h, nofun⟩

/-! ## Looking up -/

theorem longestMatch?_concat (entries : List α) (last : α) :
    longestMatch? pathOf (entries ++ [last]) path =
      match below? (pathOf last).toList path.toList with
      | none => longestMatch? pathOf entries path
      | some rest =>
          match longestMatch? pathOf entries path with
          | some (held, behind) =>
              if (pathOf last).length < (pathOf held).length then some (held, behind)
              else some (last, rest)
          | none => some (last, rest) := by
  rw [longestMatch?, List.foldl_append, List.foldl_cons, List.foldl_nil, ← longestMatch?]
  cases longestMatch? pathOf entries path <;> rfl

/-- Nothing is found just where no entry encloses the path, and else the deepest entry is. -/
theorem longestMatch?_cases (pathOf : α → String) (entries : List α) (path : String) :
    (longestMatch? pathOf entries path = none ∧
      ∀ entry ∈ entries, ¬ Encloses (pathOf entry).toList path.toList) ∨
    ∃ entry rest, longestMatch? pathOf entries path = some (entry, rest) ∧
      Deepest pathOf entries path entry ∧ Leaves (pathOf entry).toList path.toList rest := by
  -- from the end of the list, since an entry takes the place of those in front of it
  induction entries using List.reverseRecOn with
  | nil => exact .inl ⟨rfl, nofun⟩
  | append_singleton entries last ih =>
      rw [longestMatch?_concat]
      cases hbelow : below? (pathOf last).toList path.toList with
      | none =>
          have hlast := below?_eq_none_iff.mp hbelow
          rcases ih with ⟨hnone, hall⟩ | ⟨held, behind, hfound, hdeepest, hbehind⟩
          · exact .inl ⟨hnone, List.forall_mem_append.mpr ⟨hall, List.forall_mem_singleton.mpr hlast⟩⟩
          · exact .inr ⟨held, behind, hfound, hdeepest.concat (absurd · hlast), hbehind⟩
      | some rest =>
          have hrest := below?_eq_some_iff.mp hbelow
          rcases ih with ⟨hnone, hall⟩ | ⟨held, behind, hfound, hdeepest, hbehind⟩
          · rw [hnone]
            refine .inr ⟨last, rest, rfl, deepest_concat hrest.encloses ?_, hrest⟩
            exact fun other hmem hother => absurd hother (hall other hmem)
          · rw [hfound]
            by_cases hlt : (pathOf last).length < (pathOf held).length
            · exact .inr ⟨held, behind, if_pos hlt, hdeepest.concat fun _ => hlt, hbehind⟩
            · refine .inr ⟨last, rest, if_neg hlt, deepest_concat hrest.encloses ?_, hrest⟩
              exact fun other hmem hother =>
                Nat.le_trans (hdeepest.length_le hmem hother) (Nat.not_lt.mp hlt)

theorem isSome_longestMatch?_iff : (longestMatch? pathOf entries path).isSome = true ↔
    ∃ entry ∈ entries, Encloses (pathOf entry).toList path.toList := by
  rcases longestMatch?_cases pathOf entries path with ⟨hnone, hall⟩ | ⟨entry, rest, hfound, hdeepest, -⟩
  · rw [hnone]
    refine iff_of_false nofun ?_
    rintro ⟨entry, hmem, hentry⟩
    exact hall entry hmem hentry
  · rw [hfound]
    exact iff_of_true rfl ⟨entry, hdeepest.mem, hdeepest.encloses⟩

theorem longestMatch?_eq_some_iff : longestMatch? pathOf entries path = some (entry, rest) ↔
    Deepest pathOf entries path entry ∧ Leaves (pathOf entry).toList path.toList rest := by
  rcases longestMatch?_cases pathOf entries path with
    ⟨hnone, hall⟩ | ⟨held, behind, hfound, hdeepest, hbehind⟩
  · rw [hnone]
    refine iff_of_false nofun ?_
    rintro ⟨hentry, -⟩
    exact hall entry hentry.mem hentry.encloses
  · rw [hfound]
    constructor
    · rintro ⟨⟩
      exact ⟨hdeepest, hbehind⟩
    · rintro ⟨hentry, hrest⟩
      obtain rfl := hdeepest.unique hentry
      rw [← below?_eq_some_iff] at hbehind hrest
      rw [Option.some.inj (hbehind.symm.trans hrest)]

end

/-- `a/b` does not enclose `a/bc`, and the last entry for `a` counts. -/
example : longestMatch? Prod.fst [("a", 1), ("a/b", 2), ("a", 3)] "a/bc/d" =
    some (("a", 3), "bc/d".toList) := by
  decide

end GoTrace.GoModule
