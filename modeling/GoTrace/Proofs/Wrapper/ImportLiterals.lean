import GoTrace.Proofs.Grammar.FaultyImport
import GoTrace.Proofs.Literal.Reread
import GoTrace.Proofs.Resolve.Answer
import GoTrace.Proofs.Wrapper.Text

/-!
# Import paths as literals

The path of an import is written as a quoted text, with escapes that are not all escapes of literals. A
file with one import says what becomes of a path: it is read as itself where all its characters are
read back, as another path where digits stand behind a zero character, and else the file is rejected.
-/

namespace GoTrace.FileImports

open Lexeme Grammar GoTrace.Parser

/-- A file that only imports packages, laid out as generated files are. -/
def file (package : String) (imports : FileImports) : String :=
  s!"package {package}\n" ++ ("\n" ++ imports.render)

theorem toList_file (package : String) (imports : FileImports) :
    (file package imports).toList =
      "package".toList ++ ' ' :: (package.toList ++ '\n' :: ("\n" ++ imports.render).toList) := by
  rw [file, String.toList_append]
  simp [toString]

section

variable {package path aliasName : String} (hpackage : IsIdentifier package)
  (halias : lastSegment path = aliasName ∨ IsIdentifier aliasName) (localPath : String)
  (sourceName : Option String)

include hpackage halias

/-- The import has the name that was written, and the path that its literal stands for. -/
theorem parse_file_eq_ok {chars : List Char} (h : Literal.reread path.toList = some chars) :
    ∃ parsed,
      SourceFile.parse (file package ⟨localPath, [(path, aliasName)]⟩) sourceName = .ok parsed ∧
        parsed.imports.map specRead = [((lineRead (path, aliasName)).1, String.ofList chars)] := by
  have hvalue : Literal.unquote? (Text.quote path).toList = some (String.ofList chars) := by
    rw [Literal.unquote?_quote_eq, h]
    rfl
  have hne : (FileImports.mk localPath [(path, aliasName)]).aliases ≠ [] := List.cons_ne_nil _ _
  have hchunk := chunk_render hne (List.forall_mem_singleton.mpr halias)
    (fun _ => String.ofList chars) (List.forall_mem_singleton.mpr hvalue)
  have hread : Reads (sourceFile sourceName) .spaced
      (file package ⟨localPath, [(path, aliasName)]⟩).toList [] (Holds package
        [fun specs => specs.map specRead =
          [((lineRead (path, aliasName)).1, String.ofList chars)]] []) := by
    rw [toList_file]
    refine reads_sourceFile_chunks sourceName hpackage (reads_separator_package _) ?_
      (.cons hchunk .nil) .nil
    simpa using skipBlanks_package _
  obtain ⟨parsed, hparsed, -, ⟨groups, hgroups, himports⟩, -⟩ := Parser.run_of_reads hread _
  refine ⟨parsed, hparsed, ?_⟩
  cases hgroups with
  | cons hgroup hnil =>
      cases hnil
      rw [himports, List.flatten_singleton]
      exact hgroup

theorem parse_file_eq_error (h : Literal.reread path.toList = none) :
    ∃ span, SourceFile.parse (file package ⟨localPath, [(path, aliasName)]⟩) sourceName =
      .error (.error (.invalidString (Text.quote path) span)) := by
  have hvalue : Literal.unquote? (Text.quote path).toList = none := by
    rw [Literal.unquote?_quote_eq, h]
    rfl
  obtain ⟨line, hline, htext⟩ : ∃ line,
      (importLine (path, aliasName)).toList = '\t' :: (line ++ ['\n']) ∧
        ImportText path line (lineRead (path, aliasName)).1 := exists_importText halias
  have hblock : ("\n" ++ render ⟨localPath, [(path, aliasName)]⟩).toList =
      '\n' :: ("import".toList ++ ' ' :: '(' :: '\n' :: ('\t' :: (line ++ '\n' :: ')' :: ['\n']))) := by
    rw [toList_render_behindLine (List.cons_ne_nil _ _)]
    simp [hline]
  have hfaults := faults_sourceFile htext hvalue hpackage sourceName
  rw [← hblock, ← toList_file] at hfaults
  exact hfaults.run _

theorem parse_file_eq_ok_iff {read : String} :
    (∃ parsed,
      SourceFile.parse (file package ⟨localPath, [(path, aliasName)]⟩) sourceName = .ok parsed ∧
        parsed.imports.map (·.path) = [read]) ↔
      Literal.reread path.toList = some read.toList := by
  cases hreread : Literal.reread path.toList with
  | none =>
      obtain ⟨span, herror⟩ := parse_file_eq_error hpackage halias localPath sourceName hreread
      rw [herror]
      refine iff_of_false ?_ nofun
      rintro ⟨parsed, hparsed, -⟩
      cases hparsed
  | some chars =>
      obtain ⟨parsed, hparsed, himports⟩ :=
        parse_file_eq_ok hpackage halias localPath sourceName hreread
      have hpaths : parsed.imports.map (·.path) = [String.ofList chars] := by
        simpa [Function.comp_def, specRead] using congrArg (List.map Prod.snd) himports
      rw [hparsed]
      constructor
      · rintro ⟨_, heq, hread⟩
        cases heq
        rw [hpaths] at hread
        rw [← (List.cons.inj hread).1, String.toList_ofList]
      · intro hread
        refine ⟨parsed, rfl, ?_⟩
        rw [hpaths, Option.some.inj hread, String.ofList_toList]

end

/-- The line of an import is read as an import of just its path if all characters of the path are read
back, and otherwise it is not. -/
theorem parse_file_eq_path_iff {package path aliasName : String} (hpackage : IsIdentifier package)
    (halias : lastSegment path = aliasName ∨ IsIdentifier aliasName) (localPath : String)
    (sourceName : Option String) :
    (∃ parsed,
      SourceFile.parse (file package ⟨localPath, [(path, aliasName)]⟩) sourceName = .ok parsed ∧
        parsed.imports.map (·.path) = [path]) ↔ ∀ c ∈ path.toList, Text.ReadsBack c :=
  (parse_file_eq_ok_iff hpackage halias localPath sourceName).trans Literal.reread_eq_self_iff

/-- Tabs, quotes, backslashes and characters outside of ASCII are read back. -/
theorem parse_file_eq_path_quoted :
    IsIdentifier "p" ∧ IsIdentifier "b1" ∧
      ∃ parsed, SourceFile.parse (file "p" ⟨"out", [("a\t\"\\日本/b", "b1")]⟩) none = .ok parsed ∧
        parsed.imports.map (·.path) = ["a\t\"\\日本/b"] :=
  ⟨by decide, by decide,
    (parse_file_eq_path_iff (by decide) (.inr (by decide)) "out" none).mpr (by decide +kernel)⟩

/-- An accent that combines with the character in front of it can be written in the path of an import,
and so can a zero character in front of digits. The line for the one path is rejected, and the line for
the other is read as another path. -/
theorem combining_rejected_and_zero_misread :
    (∃ parsed, SourceFile.parse "package p\nimport \"x/e\\u0301\"\n" none = .ok parsed ∧
      parsed.imports.map (·.path) = ["x/e\u0301"]) ∧
    (∃ span, SourceFile.parse
        (file "p" (ofPackages "out" (PathMap.empty.addIfAbsent "x/e\u0301" "e"))) none =
      .error (.error (.invalidString "\"x/e\\u\x7b301\x7d\"" span))) ∧
    (∃ parsed, SourceFile.parse "package p\nimport \"x\\x0012\"\n" none = .ok parsed ∧
      parsed.imports.map (·.path) = ["x\x0012"]) ∧
    ∃ parsed, SourceFile.parse
        (file "p" (ofPackages "out" (PathMap.empty.addIfAbsent "x\x0012" "x"))) none = .ok parsed ∧
      parsed.imports.map (·.path) = ["x\n"] := by
  have hcombining : ((SourceFile.parse "package p\nimport \"x/e\\u0301\"\n" none).toOption.any
      fun parsed => decide (parsed.imports.map (·.path) = ["x/e\u0301"])) = true := by
    decide +kernel
  have hzero : ((SourceFile.parse "package p\nimport \"x\\x0012\"\n" none).toOption.any
      fun parsed => decide (parsed.imports.map (·.path) = ["x\x0012"])) = true := by
    decide +kernel
  obtain ⟨first, hfirst, hfirstPaths⟩ := Resolution.exists_of_any_toOption hcombining
  obtain ⟨second, hsecond, hsecondPaths⟩ := Resolution.exists_of_any_toOption hzero
  have hcombiningImports : ofPackages "out" (PathMap.empty.addIfAbsent "x/e\u0301" "e") =
      ⟨"out", [("x/e\u0301", "e")]⟩ := by
    decide +kernel
  have hzeroImports : ofPackages "out" (PathMap.empty.addIfAbsent "x\x0012" "x") =
      ⟨"out", [("x\x0012", "x")]⟩ := by
    decide +kernel
  have hliteral : Text.quote "x/e\u0301" = "\"x/e\\u\x7b301\x7d\"" := by
    decide +kernel
  rw [hcombiningImports, hzeroImports, ← hliteral]
  refine ⟨⟨first, hfirst, of_decide_eq_true hfirstPaths⟩, ?_, ⟨second, hsecond,
    of_decide_eq_true hsecondPaths⟩, ?_⟩
  · exact parse_file_eq_error (by decide) (.inr (by decide)) "out" none (by decide +kernel)
  · exact (parse_file_eq_ok_iff (by decide) (.inr (by decide)) "out" none).mpr (by decide +kernel)

end GoTrace.FileImports
