import GoTrace.Command.Output
import GoTrace.Proofs.Grammar.FileText
import GoTrace.Proofs.Resolve.LegibleInterface

/-!
# The name of an output package

A generated file that joins a directory without sources gets a package name made from the name of the
directory. The classes of characters that are kept there are not those of identifiers, and a keyword is
kept as it is: here is said for which directories the name can be read back.
-/

namespace GoTrace

open Lexeme Grammar Text GoTrace.Parser

/-! ## Package clauses -/

theorem SourceFile.packageName_clause_iff (name : String) :
    SourceFile.packageName ("package " ++ name ++ "\n") = .ok name ↔ IsIdentifier name := by
  refine ⟨isIdentifier_of_packageName, fun hname => ?_⟩
  have htext : ("package " ++ name ++ "\n").toList =
      "package".toList ++ ' ' :: (name.toList ++ '\n' :: []) := by
    simp
  have hgap := reads_gap ("package".toList ++ ' ' :: (name.toList ++ '\n' :: []))
  rw [skipBlanks_package] at hgap
  have hseparator := reads_separator_package (' ' :: (name.toList ++ '\n' :: []))
  rw [skipBlanks_package] at hseparator
  have hheader : Reads packageHeader .spaced ("package " ++ name ++ "\n").toList ['\n']
      (·.name = name) := by
    rw [htext]
    refine Reads.rule (hgap.bind fun _ _ => hseparator.bind fun _ _ => hgap.bind fun _ _ => ?_)
    exact reads_packageClause hname []
  obtain ⟨ident, hrun, hident⟩ := Parser.run_of_reads hheader ParseError.unnamedSource
  rw [SourceFile.packageName, hrun, ← hident]
  rfl

/-! ## Names made from directories -/

variable {directory : List Char} {c : Char}

/-- The character that stands for a character of the directory. -/
def nameChar (c : Char) : Char :=
  if isAlphanumeric c || c = '_' then c else '_'

theorem packageNameOfDirectory_eq (directory : List Char) :
    packageNameOfDirectory directory =
      let name := directory.map nameChar
      String.ofList (if name.isEmpty || name.head?.any Char.isDigit then '_' :: name else name) :=
  rfl

theorem nameChar_of_isAlphanumeric (h : isAlphanumeric c = true) : nameChar c = c := by
  simp [nameChar, h]

theorem nameChar_of_ne (h : nameChar c ≠ '_') : nameChar c = c := by
  unfold nameChar at h ⊢
  split at h
  · rename_i hkept
    rw [if_pos hkept]
  · exact absurd rfl h

theorem isIdentChar_nameChar_iff :
    isIdentChar (nameChar c) = true ↔ (isAlphanumeric c = true → isIdentChar c = true) := by
  constructor
  · intro h hc
    rwa [nameChar_of_isAlphanumeric hc] at h
  · intro h
    unfold nameChar
    split
    · rename_i hkept
      rcases Bool.or_eq_true_iff.mp hkept with hc | hc
      · exact h hc
      · rw [of_decide_eq_true hc]
        decide
    · decide

theorem map_nameChar_eq (h : ∀ c ∈ directory, nameChar c = c) : directory.map nameChar = directory :=
  (List.map_congr_left h).trans (List.map_id' _)

theorem keywords_plain {word : String} (h : word ∈ keywords) :
    ∀ c ∈ word.toList, isAlphanumeric c = true ∧ c.isDigit = false ∧ c ≠ '_' := by
  have hall : keywords.all (fun word => word.toList.all fun c =>
      isAlphanumeric c && !c.isDigit && c != '_') = true := by
    decide
  intro c hc
  have hplain := List.all_eq_true.mp (List.all_eq_true.mp hall word h) c hc
  simpa [and_assoc] using hplain

theorem map_nameChar_mem_keywords_iff (directory : List Char) :
    String.ofList (directory.map nameChar) ∈ keywords ↔ String.ofList directory ∈ keywords := by
  constructor
  · intro h
    have hplain := keywords_plain h
    rw [String.toList_ofList, List.forall_mem_map] at hplain
    rwa [map_nameChar_eq fun c hc => nameChar_of_ne (hplain c hc).2.2] at h
  · intro h
    have hplain := keywords_plain h
    rw [String.toList_ofList] at hplain
    rwa [map_nameChar_eq fun c hc => nameChar_of_isAlphanumeric (hplain c hc).1]

theorem isIdentStart_nameChar_iff (h : (nameChar c).isDigit = false) :
    isIdentStart (nameChar c) = true ↔
      (isAlphanumeric c = true → c.isDigit = true ∨ isIdentStart c = true) := by
  constructor
  · intro hstart hc
    rw [nameChar_of_isAlphanumeric hc] at hstart
    exact .inr hstart
  · intro hstart
    unfold nameChar at h ⊢
    split
    · rename_i hkept
      rw [if_pos hkept] at h
      rcases Bool.or_eq_true_iff.mp hkept with hc | hc
      · exact (hstart hc).resolve_left (by rw [h]; decide)
      · rw [of_decide_eq_true hc]
        decide
    · decide

/-- The name made from a directory is an identifier if and only if the directory is no keyword, the
letters and digits in it can stand in an identifier, and the one at its front can stand at the front of
one or is a digit of ASCII. -/
theorem isIdentifier_packageNameOfDirectory_iff (directory : List Char) :
    IsIdentifier (packageNameOfDirectory directory) ↔
      String.ofList directory ∉ keywords ∧
      (∀ c ∈ directory, isAlphanumeric c = true → isIdentChar c = true) ∧
      ∀ c ∈ directory.head?, isAlphanumeric c = true → c.isDigit = true ∨ isIdentStart c = true := by
  cases directory with
  | nil => exact iff_of_true (by decide) ⟨by decide, nofun, nofun⟩
  | cons c rest =>
      have hchars : (∀ d ∈ (c :: rest).map nameChar, isIdentChar d = true) ↔
          ∀ d ∈ c :: rest, isAlphanumeric d = true → isIdentChar d = true := by
        simp only [List.forall_mem_map, isIdentChar_nameChar_iff]
      have hhead (p : Char → Prop) : (∀ d ∈ (c :: rest).head?, p d) ↔ p c := by
        simp
      rw [isIdentifier_iff, packageNameOfDirectory_eq, hhead, ← hchars,
        ← map_nameChar_mem_keywords_iff (c :: rest)]
      simp only [List.map_cons, List.isEmpty_cons, List.head?_cons, Option.any_some, Bool.false_or,
        String.toList_ofList]
      cases hdigit : (nameChar c).isDigit with
      | true =>
          have hkept : nameChar c = c := nameChar_of_ne fun hmark => by
            rw [hmark] at hdigit
            exact absurd hdigit (by decide)
          have hfront : String.ofList ('_' :: nameChar c :: rest.map nameChar) ∉ keywords :=
            fun h => (keywords_plain h '_' (by simp)).2.2 rfl
          have hword : String.ofList (nameChar c :: rest.map nameChar) ∉ keywords := fun h => by
            have hplain := (keywords_plain h (nameChar c) (by simp)).2.1
            exact absurd (hplain.symm.trans hdigit) (by decide)
          have hascii : isAlphanumeric c = true → c.isDigit = true ∨ isIdentStart c = true :=
            fun _ => .inl (hkept ▸ hdigit)
          rw [if_pos rfl, List.forall_mem_cons]
          exact ⟨fun h => ⟨hword, h.1.2, hascii⟩,
            fun h => ⟨⟨by decide, h.2.1⟩, ⟨'_', rfl, by decide⟩, hfront⟩⟩
      | false =>
          rw [← isIdentStart_nameChar_iff hdigit, if_neg nofun, List.head?_cons]
          constructor
          · rintro ⟨hall, ⟨d, heq, hstart⟩, hkeyword⟩
            cases heq
            exact ⟨hkeyword, hall, hstart⟩
          · rintro ⟨hkeyword, hall, hstart⟩
            exact ⟨hall, ⟨_, rfl, hstart⟩, hkeyword⟩

/-- The name that the package of a directory gets is read back from its package clause if and only if the
directory is no keyword, the letters and digits in its name can stand in an identifier, and the one at
the front can stand at the front of one or is a digit of ASCII. -/
theorem packageName_packageNameOfDirectory_iff (directory : List Char) :
    SourceFile.packageName ("package " ++ packageNameOfDirectory directory ++ "\n") =
        .ok (packageNameOfDirectory directory) ↔
      String.ofList directory ∉ keywords ∧
      (∀ c ∈ directory, isAlphanumeric c = true → isIdentChar c = true) ∧
      ∀ c ∈ directory.head?, isAlphanumeric c = true → c.isDigit = true ∨ isIdentStart c = true :=
  (SourceFile.packageName_clause_iff _).trans (isIdentifier_packageNameOfDirectory_iff directory)

/-- A keyword is kept as it is, and so are numbers that stand in no identifier. -/
theorem packageNameOfDirectory_unreadable :
    SourceFile.packageName ("package " ++ packageNameOfDirectory "type".toList ++ "\n") ≠
        .ok (packageNameOfDirectory "type".toList) ∧
      SourceFile.packageName ("package " ++ packageNameOfDirectory "m\u00B2".toList ++ "\n") ≠
        .ok (packageNameOfDirectory "m\u00B2".toList) := by
  have hkeyword : ¬ IsIdentifier (packageNameOfDirectory "type".toList) := by decide
  have hnumber : ¬ IsIdentifier (packageNameOfDirectory "m\u00B2".toList) := by decide +kernel
  exact ⟨fun hread => hkeyword (isIdentifier_of_packageName hread),
    fun hread => hnumber (isIdentifier_of_packageName hread)⟩

end GoTrace
