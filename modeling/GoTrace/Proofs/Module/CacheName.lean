import GoTrace.Module.Definition
import GoTrace.Proofs.Text.Cut
import Mathlib

/-!
# Names in the module cache

The cache calls the directory of a module by the spelling of its path and that of its version, with an at
sign between them. Such a name has no upper case letters, and path and version can be read off it again.
So a file system that does not tell letters by case keeps apart what the cache keeps apart.
-/

namespace GoTrace.GoModule

variable {text path version other otherVersion : String} {c : Char}

/-! ## Spelling -/

def spelling (c : Char) : List Char :=
  if c.isUpper then ['!', c.toLower] else [c]

theorem toList_escape (text : String) : (escape text).toList = text.toList.flatMap spelling :=
  String.toList_ofList

/-- A spelling is that of a character which is no capital, or a mark and a small letter. -/
theorem mem_spelling {d : Char} (h : d ∈ spelling c) :
    c.isUpper = false ∧ d = c ∨ d = '!' ∨ d.isLower = true := by
  unfold spelling at h
  split at h
  · rename_i hupper
    rcases List.mem_cons.mp h with rfl | h
    · exact .inr (.inl rfl)
    · refine .inr (.inr ?_)
      rw [List.mem_singleton.mp h, Char.isLower_toLower_eq_isAlpha, Char.isAlpha, hupper, Bool.true_or]
  · rename_i hupper
    exact .inl ⟨Bool.eq_false_iff.mpr hupper, List.mem_singleton.mp h⟩

theorem isUpper_of_mem_escape (h : c ∈ (escape text).toList) : c.isUpper = false := by
  rw [toList_escape] at h
  obtain ⟨d, -, hmem⟩ := List.mem_flatMap.mp h
  obtain ⟨hupper, rfl⟩ | rfl | hlower := mem_spelling hmem
  · exact hupper
  · decide
  · exact Bool.eq_false_iff.mpr (Char.not_isUpper_of_isLower hlower)

theorem at_notMem_escape (h : '@' ∉ text.toList) : '@' ∉ (escape text).toList := by
  intro hat
  rw [toList_escape] at hat
  obtain ⟨d, hd, hmem⟩ := List.mem_flatMap.mp hat
  obtain ⟨-, rfl⟩ | hmark | hlower := mem_spelling hmem
  · exact h hd
  · exact absurd hmark (by decide)
  · exact absurd hlower (by decide)

/-! ## Reading -/

def unescape : List Char → List Char
  | '!' :: c :: rest => c.toUpper :: unescape rest
  | c :: rest => c :: unescape rest
  | [] => []

theorem unescape_cons_of_ne (h : c ≠ '!') (rest : List Char) :
    unescape (c :: rest) = c :: unescape rest := by
  rw [unescape]
  exact fun _ _ hmark _ => h hmark

theorem unescape_spelling_append (h : c ≠ '!') (rest : List Char) :
    unescape (spelling c ++ rest) = c :: unescape rest := by
  unfold spelling
  split
  · rename_i hupper
    have hcase : c.toLower.toUpper = c := by
      rw [Char.toUpper_toLower_eq_toUpper, Char.toUpper_eq_of_not_isLower]
      exact Char.not_isLower_of_isUpper hupper
    rw [List.cons_append, List.singleton_append, unescape, hcase]
  · exact unescape_cons_of_ne h rest

theorem unescape_escape (h : '!' ∉ text.toList) : unescape (escape text).toList = text.toList := by
  rw [toList_escape]
  generalize text.toList = chars at h
  induction chars with
  | nil => rfl
  | cons c rest ih =>
      obtain ⟨hc, hrest⟩ := not_or.mp (mt List.mem_cons.mpr h)
      rw [List.flatMap_cons, unescape_spelling_append (Ne.symm hc), ih hrest]

/-- The path and the version that a name in the cache stands for. -/
def readName? (name : String) : Option (List Char × List Char) :=
  (Text.cutBy? (· = '@') name.toList).map fun parts => (unescape parts.1, unescape parts.2)

theorem readName?_escape (hpath : '!' ∉ path.toList) (hat : '@' ∉ path.toList)
    (hversion : '!' ∉ version.toList) :
    readName? (escape path ++ "@" ++ escape version) = some (path.toList, version.toList) := by
  have hname : (escape path ++ "@" ++ escape version).toList =
      (escape path).toList ++ '@' :: (escape version).toList := by
    simp
  have hbefore := Text.forall_ne_of_notMem (at_notMem_escape hat)
  rw [readName?, hname, Text.cutBy?_append hbefore (decide_eq_true rfl), Option.map_some,
    unescape_escape hpath, unescape_escape hversion]

/-! ## Names -/

theorem isUpper_of_mem_name (h : c ∈ (escape path ++ "@" ++ escape version).toList) :
    c.isUpper = false := by
  simp only [String.toList_append, List.mem_append] at h
  obtain (h | h) | h := h
  · exact isUpper_of_mem_escape h
  · rw [List.mem_singleton.mp h]
    decide
  · exact isUpper_of_mem_escape h

theorem toLower_name (path version : String) :
    (escape path ++ "@" ++ escape version).toLower = escape path ++ "@" ++ escape version := by
  have hlower : ∀ c ∈ (escape path ++ "@" ++ escape version).toList, c.toLower = id c :=
    fun c hc => Char.toLower_eq_of_not_isUpper (Bool.eq_false_iff.mp (isUpper_of_mem_name hc))
  rw [← String.toList_inj, String.toLower, String.toList_map, List.map_congr_left hlower, List.map_id]

/-- The cache keeps modules apart. The name of a directory in it has no upper case letters, and two names
are the same but for case only for the same path at the same version. -/
theorem names_apart
    (h : ∀ text ∈ [path, version, other, otherVersion], '!' ∉ text.toList ∧ '@' ∉ text.toList) :
    (∀ c ∈ (escape path ++ "@" ++ escape version).toList, c.isUpper = false) ∧
      ((escape path ++ "@" ++ escape version).toLower =
          (escape other ++ "@" ++ escape otherVersion).toLower ↔
        path = other ∧ version = otherVersion) := by
  refine ⟨fun c => isUpper_of_mem_name, ?_⟩
  rw [toLower_name, toLower_name]
  constructor
  · intro heq
    have hpath := h path (by simp)
    have hother := h other (by simp)
    have hread := congrArg readName? heq
    rw [readName?_escape hpath.1 hpath.2 (h version (by simp)).1,
      readName?_escape hother.1 hother.2 (h otherVersion (by simp)).1] at hread
    obtain ⟨hpaths, hversions⟩ := Prod.mk.inj (Option.some.inj hread)
    exact ⟨String.toList_inj.mp hpaths, String.toList_inj.mp hversions⟩
  · rintro ⟨rfl, rfl⟩
    rfl

/-- The paths differ in case alone. -/
theorem names_apart_capitals :
    (escape "github.com/Acme/Geo" ++ "@" ++ escape "v1.2.0").toLower ≠
      (escape "github.com/acme/geo" ++ "@" ++ escape "v1.2.0").toLower := by
  have htexts : ∀ text ∈ ["github.com/Acme/Geo", "v1.2.0", "github.com/acme/geo", "v1.2.0"],
      '!' ∉ text.toList ∧ '@' ∉ text.toList := by
    decide
  exact fun heq => absurd ((names_apart htexts).2.mp heq).1 (by decide)

example : escape "!a" = escape "A" := by decide

end GoTrace.GoModule
