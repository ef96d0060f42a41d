import Mathlib.Data.List.Nodup
import GoTrace.Proofs.Wrapper.Imports

/-!
# Numbers behind aliases

The imports of a generated file get their aliases one after the other, in the order of the bytes of
their paths. Each is called what its package prefers to be called, and when that is reserved or given
out already, the least number that makes it free stands behind it. A number may lead to the very alias
that a later package prefers, so what is given out is looked at for each package anew.
-/

namespace GoTrace

/-! ## Numbers -/

/-- The name is `base` if that is free, and else `base` with the least number behind it, from 1 on,
that makes it free. -/
def LeastNumbered (taken : String → Prop) (base name : String) : Prop :=
  (¬ taken base ∧ name = base) ∨
    taken base ∧ ∃ n, 1 ≤ n ∧ name = base ++ toString n ∧ ¬ taken name ∧
      ∀ lower, 1 ≤ lower → lower < n → taken (base ++ toString lower)

/-- The search for a free name: it stops at a name that is free, and goes from one that is taken to
`base` with the next number. The number of names that it leaves behind is `rounds`. -/
inductive NumberSearch (taken : String → Prop) (base : String) : Nat → String → Nat → String → Prop
  | stop {next : Nat} {name : String} (hfree : ¬ taken name) : NumberSearch taken base next name 0 name
  | go {next : Nat} {name : String} {rounds : Nat} {found : String} (htaken : taken name)
      (hrest : NumberSearch taken base (next + 1) (base ++ toString next) rounds found) :
      NumberSearch taken base next name (rounds + 1) found

section

variable {taken : String → Prop} {base : String}

theorem numberSearch_numberedBy {start rounds : Nat}
    (hbefore : ∀ i < rounds, taken (numberedBy base (start + i)))
    (hfree : ¬ taken (numberedBy base (start + rounds))) :
    NumberSearch taken base (start + 1) (numberedBy base start) rounds
      (numberedBy base (start + rounds)) := by
  induction rounds generalizing start with
  | zero => exact .stop hfree
  | succ rounds ih =>
      refine .go (hbefore 0 (Nat.succ_pos rounds)) ?_
      rw [Nat.add_comm rounds 1, ← Nat.add_assoc] at hfree ⊢
      refine ih (fun i hi => ?_) hfree
      rw [Nat.add_assoc, Nat.add_comm 1 i]
      exact hbefore (i + 1) (Nat.succ_lt_succ hi)

theorem numberSearch_least {n : Nat} (hfree : ¬ taken (numberedBy base n))
    (hbefore : ∀ lower < n, taken (numberedBy base lower)) :
    NumberSearch taken base 1 base n (numberedBy base n) := by
  have hsearch := @numberSearch_numberedBy taken base 0 n
  simp only [Nat.zero_add] at hsearch
  exact hsearch hbefore hfree

theorem leastNumbered_least {n : Nat} (hfree : ¬ taken (numberedBy base n))
    (hbefore : ∀ lower < n, taken (numberedBy base lower)) :
    LeastNumbered taken base (numberedBy base n) := by
  cases n with
  | zero => exact .inl ⟨hfree, rfl⟩
  | succ n =>
      refine .inr ⟨hbefore 0 (Nat.succ_pos n), n + 1, Nat.succ_pos n, rfl, hfree, ?_⟩
      intro lower hpos hlt
      have htaken := hbefore lower hlt
      rwa [numberedBy, if_neg (Nat.ne_of_gt hpos)] at htaken

end

/-- What is chosen is found by the search, after no more rounds than there are taken names. -/
theorem numberedAlias_spec (taken : List String) (base : String) :
    LeastNumbered (· ∈ taken) base (numberedAlias taken base) ∧
      ∃ rounds ≤ taken.length,
        NumberSearch (· ∈ taken) base 1 base rounds (numberedAlias taken base) := by
  obtain ⟨n, heq, hall⟩ := exists_eq_firstFree taken (numberedBy base) 0
  replace heq : numberedAlias taken base = numberedBy base n := heq
  have hbefore : ∀ lower < n, numberedBy base lower ∈ taken := fun lower =>
    hall lower (Nat.zero_le lower)
  have hfree : numberedBy base n ∉ taken := heq ▸ numberedAlias_not_mem taken base
  have hrounds : n ≤ taken.length := by
    refine @le_length_of_candidates_mem taken (numberedBy base) (fun _ _ => numberedBy_injective) 0 n ?_
    intro lower hlt
    rw [Nat.zero_add]
    exact hbefore lower hlt
  rw [heq]
  exact ⟨leastNumbered_least hfree hbefore, n, hrounds, numberSearch_least hfree hbefore⟩

namespace FileImports

theorem eq_numberedAlias_of_assign {taken : List String}
    {entries before after : List (String × String)} {path aliasName : String}
    (h : assign taken entries = before ++ (path, aliasName) :: after) :
    ∃ preferred, (path, preferred) ∈ entries ∧
      aliasName =
        numberedAlias ((before.map (·.2)).reverse ++ taken) (baseAlias path preferred) := by
  induction entries generalizing taken before with
  | nil => simp [assign] at h
  | cons entry rest ih =>
      obtain ⟨first, preferred⟩ := entry
      rw [assign] at h
      cases before with
      | nil =>
          obtain ⟨hentry, -⟩ := List.cons.inj h
          cases hentry
          exact ⟨preferred, List.mem_cons_self, rfl⟩
      | cons given before =>
          obtain ⟨rfl, hrest⟩ := List.cons.inj h
          obtain ⟨preferred', hmem, heq⟩ := ih hrest
          refine ⟨preferred', List.mem_cons_of_mem _ hmem, ?_⟩
          simpa using heq

/-- The imports of a file: the packages of a map, less the one of the file and one without a path, in
the order of the bytes of their paths and under aliases that are numbered one after the other. -/
structure Numbered (localPath : String) (packages : PathMap) (imports : FileImports) : Prop where
  localPath_eq : imports.localPath = localPath
  holds : ∀ path, (imports.alias? path).isSome = true ↔
    path ∈ packages.paths ∧ path ≠ "" ∧ path ≠ localPath
  increasing : (imports.aliases.map (·.1)).Pairwise
    fun first second => Text.bytes first < Text.bytes second
  nodup : (imports.aliases.map (·.2)).Nodup
  unreserved : ∀ entry ∈ imports.aliases, entry.2 ∉ ["t", "span", "next", "tracer"]
  numbered : ∀ before path aliasName after preferred,
    imports.aliases = before ++ (path, aliasName) :: after → (path, preferred) ∈ packages.entries →
      let taken := fun name => name ∈ ["t", "span", "next", "tracer"] ∨ name ∈ before.map (·.2)
      let base := if preferred = "" then fallbackName path else preferred
      LeastNumbered taken base aliasName ∧
        ∃ rounds ≤ 4 + before.length, NumberSearch taken base 1 base rounds aliasName

variable {localPath : String} {packages : PathMap}

theorem isSome_alias?_iff {path : String} :
    ((ofPackages localPath packages).alias? path).isSome = true ↔
      path ∈ packages.paths ∧ path ≠ "" ∧ path ≠ localPath := by
  constructor
  · intro hsome
    obtain ⟨aliasName, halias⟩ := Option.isSome_iff_exists.mp hsome
    have hmem : path ∈ (ofPackages localPath packages).aliases.map (·.1) :=
      List.mem_map_of_mem (mem_of_alias? halias)
    rw [map_fst_aliases, List.mem_filter] at hmem
    simpa [and_comm] using hmem
  · rintro ⟨hpath, hempty, hlocal⟩
    exact Option.isSome_iff_exists.mpr (exists_alias? hpath hlocal hempty)

theorem baseAlias_eq (path preferred : String) :
    baseAlias path preferred = if preferred = "" then fallbackName path else preferred := by
  simp [baseAlias]

theorem preferred_unique {path preferred preferred' : String}
    (h : (path, preferred) ∈ packages.entries) (h' : (path, preferred') ∈ packages.entries) :
    preferred = preferred' :=
  congrArg Prod.snd (List.inj_on_of_nodup_map packages.nodup_paths h h' rfl)

/-- Every finite map from paths to preferred aliases leads to imports that are numbered so. -/
theorem numbered_ofPackages (localPath : String) (packages : PathMap) :
    Numbered localPath packages (ofPackages localPath packages) where
  localPath_eq := rfl
  holds _ := isSome_alias?_iff
  increasing := pairwise_bytes
  nodup := nodup_assign _ _
  unreserved _ hentry := not_mem_of_mem_assign hentry
  numbered before path aliasName after preferred haliases hpreferred := by
    obtain ⟨preferred', hmem, rfl⟩ := eq_numberedAlias_of_assign haliases
    obtain rfl := preferred_unique hpreferred (List.mem_filter.mp hmem).1
    obtain ⟨hleast, rounds, hrounds, hsearch⟩ :=
      numberedAlias_spec ((before.map (·.2)).reverse ++ reservedNames) (baseAlias path preferred)
    have htaken : (fun name => name ∈ (before.map (·.2)).reverse ++ reservedNames) =
        fun name => name ∈ reservedNames ∨ name ∈ before.map (·.2) := by
      funext name
      rw [List.mem_append, List.mem_reverse, or_comm]
    have hlength : ((before.map (·.2)).reverse ++ reservedNames).length = 4 + before.length := by
      rw [List.length_append, List.length_reverse, List.length_map, Nat.add_comm]
      rfl
    rw [htaken] at hleast hsearch
    dsimp only
    rw [← baseAlias_eq]
    exact ⟨hleast, rounds, hlength ▸ hrounds, hsearch⟩

/-- A number that is given out makes a later package go on to the next one. -/
example :
    (ofPackages "e/out" (.ofList [("a/log", "log"), ("b/log", "log"), ("c/log1", "log1"),
      ("d/span", ""), ("e/out", "out")])).aliases =
      [("a/log", "log"), ("b/log", "log1"), ("c/log1", "log11"), ("d/span", "span1")] := by
  decide +kernel

end FileImports

end GoTrace
