import GoTrace.Proofs.Grammar.Words
import GoTrace.Proofs.Literal.Decimal
import GoTrace.Wrapper.Names
import Mathlib.Data.List.Perm.Subperm

/-!
# Names that are chosen

Every name that is chosen for a generated file is an identifier, and none of the names that it must
not be. Aliases are different for different paths.
-/

namespace GoTrace

namespace Lexeme

theorem isLower_of_mem_keywords : ∀ word ∈ keywords, word.toList.all Char.isLower = true := by
  decide

/-- A keyword has lower case letters only, so a name with any other character is none. -/
theorem IsIdentifier.append {name suffix : String} (h : IsIdentifier name)
    (hsuffix : suffix.toList.all isIdentChar = true)
    (hmark : ∃ c ∈ (name ++ suffix).toList, c.isLower = false) :
    IsIdentifier (name ++ suffix) := by
  have hall : (name ++ suffix).toList.all isIdentChar = true := by
    rw [String.toList_append, List.all_append, h.all_isIdentChar, hsuffix, Bool.and_self]
  have hahead : wordAhead (name ++ suffix).toList = (name ++ suffix).toList := by
    have happend := wordAhead_append hall (show StopsWord [] from trivial)
    rwa [List.append_nil] at happend
  have hkeyword : name ++ suffix ∉ keywords := by
    intro hmem
    obtain ⟨c, hc, hlower⟩ := hmark
    have hlowers := List.all_eq_true.mp (isLower_of_mem_keywords _ hmem) c hc
    exact absurd (hlower.symm.trans hlowers) (by decide)
  obtain ⟨c, rest, heq, hstart⟩ := h.exists_cons
  have hcons : (name ++ suffix).toList = c :: (rest ++ suffix.toList) := by
    rw [String.toList_append, heq, List.cons_append]
  unfold IsIdentifier identifier?
  rw [hahead]
  simp only [hcons]
  rw [← hcons, String.ofList_toList]
  simp [hstart, hkeyword]

end Lexeme

open Lexeme

/-! ## Free names -/

theorem exists_eq_firstFree (taken : List String) (candidate : Nat → String) (start : Nat) :
    ∃ n, firstFree taken candidate start = candidate n ∧
      ∀ m, start ≤ m → m < n → candidate m ∈ taken := by
  unfold firstFree
  generalize taken.length = bound
  induction bound generalizing start with
  | zero => exact ⟨start, rfl, fun m hstart hlt => absurd hlt (Nat.not_lt.mpr hstart)⟩
  | succ bound ih =>
      rw [firstFree.go]
      split
      · rename_i htaken
        obtain ⟨n, hn, hbefore⟩ := ih (start + 1)
        refine ⟨n, hn, fun m hstart hlt => ?_⟩
        rcases Nat.eq_or_lt_of_le hstart with rfl | hstart
        · simpa using htaken
        · exact hbefore m hstart hlt
      · exact ⟨start, rfl, fun m hstart hlt => absurd hlt (Nat.not_lt.mpr hstart)⟩

/-- Different candidates that are all taken are no more than there are taken names. -/
theorem le_length_of_candidates_mem {taken : List String} {candidate : Nat → String}
    (hinj : ∀ m n, candidate m = candidate n → m = n) {start count : Nat}
    (h : ∀ i < count, candidate (start + i) ∈ taken) : count ≤ taken.length := by
  have hnodup : ((List.range count).map fun i => candidate (start + i)).Nodup := by
    refine List.pairwise_map.mpr (List.Pairwise.imp ?_ List.nodup_range)
    intro i j hne heq
    have hsame := hinj _ _ heq
    omega
  have hsubset : ((List.range count).map fun i => candidate (start + i)) ⊆ taken := by
    intro name hname
    obtain ⟨i, hi, rfl⟩ := List.mem_map.mp hname
    exact h i (List.mem_range.mp hi)
  have hlength := (hnodup.subperm hsubset).length_le
  rwa [List.length_map, List.length_range] at hlength

theorem firstFree_not_mem {taken : List String} {candidate : Nat → String}
    (hinj : ∀ m n, candidate m = candidate n → m = n) (start : Nat) :
    firstFree taken candidate start ∉ taken := by
  intro hmem
  -- When the last candidate is taken, so are all before it: one more than there are taken names.
  have hall (bound start : Nat) (h : firstFree.go taken candidate bound start ∈ taken) :
      ∀ i ≤ bound, candidate (start + i) ∈ taken := by
    induction bound generalizing start with
    | zero =>
        intro i hi
        obtain rfl := Nat.le_zero.mp hi
        exact h
    | succ bound ih =>
        rw [firstFree.go] at h
        split at h
        · rename_i hfirst
          intro i hi
          cases i with
          | zero => simpa using hfirst
          | succ i =>
              have hlater := ih (start + 1) h i (by omega)
              rwa [show start + 1 + i = start + (i + 1) by omega] at hlater
        · rename_i hfirst
          simp [h] at hfirst
  have hcount := le_length_of_candidates_mem hinj fun i hi =>
    hall taken.length start hmem i (Nat.le_of_lt_succ hi)
  omega

theorem toList_toString (n : Nat) : (toString n).toList = Nat.toDigits 10 n := by
  simp [toString, Nat.repr]

theorem toString_injective {m n : Nat} (h : toString m = toString n) : m = n := by
  have hdigits : Nat.toDigits 10 m = Nat.toDigits 10 n := by
    rw [← toList_toString, h, toList_toString]
  have hvalue := Literal.digitsFrom?_toDigits m
  rw [hdigits, Literal.digitsFrom?_toDigits] at hvalue
  exact (Option.some.inj hvalue).symm

/-! ## Numbers and underscores -/

theorem isIdentChar_of_isDigit {c : Char} (h : c.isDigit = true) : isIdentChar c = true := by
  obtain ⟨-, hhigh⟩ := Text.toNat_of_isDigit h
  have hascii : c.toNat < 0x80 := by omega
  simp [isIdentChar, Text.isDecimalDigit, hascii, h]

theorem all_toString (n : Nat) : (toString n).toList.all isIdentChar = true := by
  rw [toList_toString, List.all_eq_true]
  intro c hc
  exact isIdentChar_of_isDigit (Literal.isDigit_of_mem_toDigits hc)

theorem isIdentifier_numbered {base : String} (h : IsIdentifier base) (n : Nat) :
    IsIdentifier (base ++ toString n) := by
  refine h.append (all_toString n) ?_
  have hne : Nat.toDigits 10 n ≠ [] := Nat.toDigits_ne_nil
  obtain ⟨c, hc⟩ := List.exists_mem_of_ne_nil _ hne
  refine ⟨c, ?_, ?_⟩
  · rw [String.toList_append, toList_toString]
    exact List.mem_append_right _ hc
  · obtain ⟨-, hhigh⟩ := Text.toNat_of_isDigit (Literal.isDigit_of_mem_toDigits hc)
    exact Bool.and_eq_false_iff.mpr
      (.inl (decide_eq_false fun hle => absurd (Nat.le_trans hle hhigh) (by decide)))

/-- The name `base`, with the number behind it unless that is 0. -/
def numberedBy (base : String) (n : Nat) : String := if n = 0 then base else base ++ toString n

theorem numberedBy_injective {base : String} {m n : Nat} (h : numberedBy base m = numberedBy base n) :
    m = n := by
  have hne (n : Nat) : base ≠ base ++ toString n := by
    intro heq
    have hlength := congrArg String.length heq
    have hpos : 0 < (toString n).length := by
      rw [← String.length_toList, toList_toString]
      exact List.length_pos_of_ne_nil Nat.toDigits_ne_nil
    rw [String.length_append] at hlength
    omega
  unfold numberedBy at h
  split at h
  · split at h
    · omega
    · exact absurd h (hne n)
  · split at h
    · exact absurd h.symm (hne m)
    · exact toString_injective (String.append_right_inj base |>.mp h)

theorem numberedAlias_not_mem (taken : List String) (base : String) :
    numberedAlias taken base ∉ taken :=
  firstFree_not_mem (fun _ _ => numberedBy_injective) 0

theorem isIdentifier_numberedAlias {base : String} (h : IsIdentifier base) (taken : List String) :
    IsIdentifier (numberedAlias taken base) := by
  obtain ⟨n, hn, -⟩ := exists_eq_firstFree taken (numberedBy base) 0
  change IsIdentifier (firstFree taken (numberedBy base) 0)
  rw [hn, numberedBy]
  split
  · exact h
  · exact isIdentifier_numbered h n

theorem isIdentifier_underscored {base : String} (h : IsIdentifier base) (taken : List String) :
    IsIdentifier (underscored taken base) := by
  obtain ⟨n, hn, -⟩ := exists_eq_firstFree taken
    (fun n => base ++ String.ofList (List.replicate n '_')) 0
  rw [underscored, hn]
  cases n with
  | zero => simpa using h
  | succ n =>
      refine h.append ?_ ⟨'_', ?_, by decide⟩
      · rw [String.toList_ofList, List.all_eq_true]
        intro c hc
        rw [List.eq_of_mem_replicate hc]
        decide
      · rw [String.toList_append, String.toList_ofList]
        exact List.mem_append_right _ (by simp)

/-! ## Aliases of imports -/

namespace FileImports

theorem map_fst_assign (taken : List String) (entries : List (String × String)) :
    (assign taken entries).map (·.1) = entries.map (·.1) := by
  induction entries generalizing taken with
  | nil => rfl
  | cons entry rest ih => simp [assign, ih]

theorem not_mem_of_mem_assign {taken : List String} {entries : List (String × String)}
    {entry : String × String} (h : entry ∈ assign taken entries) : entry.2 ∉ taken := by
  induction entries generalizing taken with
  | nil => cases h
  | cons first rest ih =>
      rcases List.mem_cons.mp h with rfl | h
      · exact numberedAlias_not_mem _ _
      · exact fun hmem => ih h (List.mem_cons_of_mem _ hmem)

theorem nodup_assign (taken : List String) (entries : List (String × String)) :
    ((assign taken entries).map (·.2)).Nodup := by
  induction entries generalizing taken with
  | nil => simp [assign]
  | cons first rest ih =>
      rw [assign, List.map_cons, List.nodup_cons]
      refine ⟨?_, ih _⟩
      intro hmem
      obtain ⟨entry, hentry, heq⟩ := List.mem_map.mp hmem
      exact not_mem_of_mem_assign hentry (by simp [heq])

theorem isIdentifier_of_mem_assign {taken : List String} {entries : List (String × String)}
    (h : ∀ entry ∈ entries, IsIdentifier entry.2) {entry : String × String}
    (hentry : entry ∈ assign taken entries) : IsIdentifier entry.2 := by
  induction entries generalizing taken with
  | nil => cases hentry
  | cons first rest ih =>
      obtain ⟨hfirst, hrest⟩ := List.forall_mem_cons.mp h
      rcases List.mem_cons.mp hentry with rfl | hentry
      · refine isIdentifier_numberedAlias ?_ taken
        have hempty : first.2.isEmpty = false := by
          obtain ⟨c, rest, heq, -⟩ := hfirst.exists_cons
          rw [← Bool.not_eq_true, String.isEmpty_iff]
          intro hnil
          rw [hnil] at heq
          cases heq
        simpa [baseAlias, hempty] using hfirst
      · exact ih hrest hentry

end FileImports

/-! ## Names of parameters -/

theorem length_fillNames (index : Nat) (used : List String) (names : List (Option String)) :
    (fillNames index used names).length = names.length := by
  induction names generalizing index used with
  | nil => rfl
  | cons name rest ih => cases name <;> simp [fillNames, ih]

theorem isIdentifier_of_mem_fillNames {index : Nat} {used : List String}
    {names : List (Option String)} (h : ∀ name, some name ∈ names → IsIdentifier name)
    {name : String} (hname : name ∈ fillNames index used names) : IsIdentifier name := by
  induction names generalizing index used with
  | nil => cases hname
  | cons first rest ih =>
      have hrest : ∀ name, some name ∈ rest → IsIdentifier name :=
        fun name hmem => h name (List.mem_cons_of_mem _ hmem)
      cases first with
      | some declared =>
          rcases List.mem_cons.mp hname with rfl | hname
          · exact h _ List.mem_cons_self
          · exact ih hrest hname
      | none =>
          rcases List.mem_cons.mp hname with rfl | hname
          · have hbase : IsIdentifier "a" := by decide
            exact isIdentifier_underscored (isIdentifier_numbered hbase index) used
          · exact ih hrest hname

theorem length_parameterNames (method : Method) (imports : FileImports) :
    (parameterNames method imports).length = method.params.length := by
  simp [parameterNames, length_fillNames]

theorem isIdentifier_of_mem_parameterNames {method : Method} {imports : FileImports}
    (h : ∀ param ∈ method.params, ∀ name, param.name = some name → IsIdentifier name)
    {name : String} (hname : name ∈ parameterNames method imports) : IsIdentifier name := by
  refine isIdentifier_of_mem_fillNames ?_ hname
  intro declared hdeclared
  obtain ⟨param, hparam, heq⟩ := List.mem_map.mp hdeclared
  exact h param hparam declared (Option.filter_eq_some_iff.mp heq).1

/-! ## Names of fields -/

namespace WrapperFields

theorem isIdentifier_next (methods : MethodSet) : IsIdentifier (ofMethods methods).next :=
  isIdentifier_underscored (by decide) _

theorem isIdentifier_tracer (methods : MethodSet) : IsIdentifier (ofMethods methods).tracer :=
  isIdentifier_underscored (by decide) _

end WrapperFields

end GoTrace
