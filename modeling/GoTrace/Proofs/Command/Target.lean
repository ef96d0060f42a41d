import GoTrace.Command.Target
import GoTrace.Proofs.Grammar.LoneName
import GoTrace.Proofs.Text.Cut

/-!
# Targets that are accepted

A token is accepted when what stands behind its last dot is read as the name of a type. What is kept is
the text that was read, which is the name and whatever blanks and comments stand around it.
-/

namespace GoTrace

open Lexeme Grammar

namespace Target

def text (target : Target) : String :=
  match target.package with
  | some path => path ++ "." ++ target.name
  | none => target.name

theorem toList_text_some (path name : String) :
    (text ⟨some path, name⟩).toList = path.toList ++ '.' :: name.toList := by
  simp [text]

theorem split_eq_some_iff {token : List Char} {package : Option String} {name : String} :
    split token = some (package, name) ↔
      package ≠ some "" ∧ '.' ∉ name.toList ∧ token = (text ⟨package, name⟩).toList := by
  constructor
  · intro h
    unfold split at h
    split at h
    · rename_i hcut
      cases h
      rw [String.toList_ofList]
      exact ⟨nofun, Text.cutLast?_eq_none_iff.mp hcut, String.toList_ofList.symm⟩
    · cases h
    · rename_i path rest hne hcut
      cases h
      obtain ⟨rfl, hdot⟩ := Text.cutLast?_eq_some_iff.mp hcut
      rw [toList_text_some, String.toList_ofList, String.toList_ofList]
      refine ⟨fun hempty => hne ?_, hdot, rfl⟩
      have htoList := congrArg String.toList (Option.some.inj hempty)
      rwa [String.toList_ofList] at htoList
  · rintro ⟨hpackage, hdot, rfl⟩
    unfold split
    cases package with
    | none =>
        have hcut := Text.cutLast?_eq_none_iff.mpr hdot
        simp only [text, hcut, String.ofList_toList]
    | some path =>
        have hne : path.toList ≠ [] := fun hnil =>
          hpackage (congrArg some (String.toList_eq_nil_iff.mp hnil))
        obtain ⟨c, rest, hpath⟩ := List.exists_cons_of_ne_nil hne
        rw [toList_text_some, Text.cutLast?_append hdot, hpath]
        simp only [← hpath, String.ofList_toList]

/-- A token is accepted as a target if and only if it is the target as a user names it, with a path that
is not empty or none, and with a name that has no dot and is one identifier with blanks and comments
around it or not. -/
theorem parse_eq_ok_iff {token : String} {target : Target} :
    parse token = .ok target ↔
      target.package ≠ some "" ∧ '.' ∉ target.name.toList ∧ Text.trimmed token = target.text ∧
        ∃ name, Surrounded name target.name.toList := by
  have htrim : Text.trimmed token = target.text ↔ Text.trim token.toList = target.text.toList := by
    rw [Text.trimmed, ← String.toList_inj, String.toList_ofList]
  rw [htrim]
  constructor
  · intro h
    unfold parse at h
    dsimp only at h
    cases hsplit : split (Text.trim token.toList) with
    | none =>
        rw [hsplit] at h
        cases h
    | some parts =>
        obtain ⟨package, name⟩ := parts
        rw [hsplit] at h
        dsimp only at h
        split at h
        · rename_i found hread
          cases h
          obtain ⟨hpackage, hdot, htoken⟩ := split_eq_some_iff.mp hsplit
          exact ⟨hpackage, hdot, htoken, found, TypeExpr.parse_eq_name_iff.mp hread⟩
        · cases h
        · cases h
  · rintro ⟨hpackage, hdot, htoken, name, hname⟩
    have hsplit := split_eq_some_iff.mpr ⟨hpackage, hdot, htoken⟩
    unfold parse
    dsimp only
    rw [hsplit]
    dsimp only
    rw [TypeExpr.parse_eq_name_iff.mpr hname]

/-- The comment behind a name is kept as a part of it. -/
theorem parse_comment :
    parse "A // c" = .ok ⟨none, "A // c"⟩ ∧ ¬ IsIdentifier "A // c" := by
  refine ⟨rfl, by decide⟩

end Target

end GoTrace
