import GoTrace.Proofs.Grammar.Entries
import GoTrace.Proofs.Grammar.Sequence

/-!
# Functions in front of other declarations

The body of a function is passed over as a whole. A file with one more function in front of its
declarations declares that function and then what it declared before, whatever the body holds.
-/

namespace GoTrace

open Lexeme Grammar GoTrace.Parser

/-- A function without parameters and results that has a body. -/
def FuncDecl.plain (name : String) : FuncDecl :=
  ⟨none, ⟨name, default⟩, [], ⟨[], []⟩, true, default⟩

theorem FuncDecl.bare_eq_plain {decl : FuncDecl} {name : String} (hreceiver : decl.receiver = none)
    (hname : decl.name.name = name) (hparams : decl.signature.params = [])
    (hresults : decl.signature.results = []) (htypeParams : decl.typeParams = [])
    (hbody : decl.hasBody = true) : bare decl = bare (plain name) := by
  change FuncDecl.mk (bare decl.receiver) ⟨decl.name.name, default⟩ (bare decl.typeParams)
    ⟨bare decl.signature.params, bare decl.signature.results⟩ decl.hasBody default = _
  rw [hreceiver, hname, hparams, hresults, htypeParams, hbody]
  rfl

namespace Grammar

def plainText (name : String) (body rest : List Char) : List Char :=
  "func".toList ++ ' ' :: (name.toList ++ '(' :: ')' :: ' ' :: '\x7b' :: (body ++ '\x7d' :: rest))

variable {name : String} {body : List Char}

theorem reads_plainText (hname : IsIdentifier name) (hbody : Delimited body) (rest : List Char) :
    Reads topLevelDecl .spaced (plainText name body rest) rest (Like [.func (.plain name)]) := by
  have hstart := isIdentifier_lineStart hname
  have hreceiver : Refuses (rule .receiver (parameters typeExpr)) .spaced
      (name.toList ++ '(' :: ')' :: ' ' :: '\x7b' :: (body ++ '\x7d' :: rest)) :=
    (refuses_parameters (hname.head?_append_ne (by decide) _)).rule
  have hclose : NoType (')' :: ' ' :: '\x7b' :: (body ++ '\x7d' :: rest)) :=
    (by decide : startsNoType ')' = true)
  have hopen : NoType ('\x7b' :: (body ++ '\x7d' :: rest)) :=
    (by decide : startsNoType '\x7b' = true)
  have hskip : skipBlanks (' ' :: '\x7b' :: (body ++ '\x7d' :: rest)) =
      '\x7b' :: (body ++ '\x7d' :: rest) := by
    rw [skipBlanks_space]
    exact skipBlanks_of_isSolid (by decide) _
  have hresults : Reads (optional (results typeExpr)) .spaced
      (skipBlanks (' ' :: '\x7b' :: (body ++ '\x7d' :: rest))) ('\x7b' :: (body ++ '\x7d' :: rest))
      (· = none) := by
    rw [hskip]
    exact Reads.optional_none
      (refuses_results (refuses_typeExpr _ hopen) (head?_ne rfl (by decide)))
  have hsignature := reads_signature (reads_parameters_nil (refuses_typeExpr _ hclose)) hresults
  have hdecl := reads_funcDecl hname hbody (hstart _).solid (Reads.optional_none hreceiver)
    (hstart _).solid hsignature (skipBlanks_of_isSolid (by decide) _)
  refine (reads_topLevelFunc hdecl).weaken fun decls hdecls => ?_
  obtain ⟨decl, rfl, hreceiver, hident, ⟨hparams, read, hread, hfound⟩, htypeParams, hhas⟩ := hdecls
  rw [hread] at hfound
  exact bare_cons_congr (congrArg Declaration.func
    (FuncDecl.bare_eq_plain hreceiver hident hparams hfound htypeParams hhas)) rfl

theorem chunk_plainText (hname : IsIdentifier name) (hbody : Delimited body) :
    Chunk topLevelDecl (plainText name body ['\n']) (Like [.func (.plain name)]) := by
  intro rest
  have htext : plainText name body ['\n'] ++ rest = plainText name body ('\n' :: rest) := by
    simp [plainText]
  have hstart : LineStart (plainText name body ('\n' :: rest)) :=
    lineStart_cons (by decide) (by decide) _
  rw [htext]
  exact ⟨_, .last hstart.solid, hstart, reads_plainText hname hbody _⟩

end Grammar

/-- A file without import declarations goes on to declare what it declares when a function is put in front
of it, whatever the body of the function holds. -/
theorem SourceFile.parse_func_cons {package name body text : String} {sourceName : Option String}
    {file : SourceFile} (hpackage : IsIdentifier package) (hname : IsIdentifier name)
    (hbody : Delimited body.toList) (himport : firstWord text.toList ≠ "import".toList)
    (h : SourceFile.parse ("package " ++ package ++ "\n" ++ text) sourceName = .ok file) :
    ∃ longer, SourceFile.parse ("package " ++ package ++ "\nfunc " ++ name ++ "() \x7b" ++ body ++
        "\x7d\n" ++ text) sourceName = .ok longer ∧
      bare longer =
        { bare file with declarations := .func (.plain name) :: (bare file).declarations } := by
  have hdecl : Chunk topLevelDecl ("func " ++ name ++ "() \x7b" ++ body ++ "\x7d\n").toList
      (Like [.func (.plain name)]) := by
    have hchars : ("func " ++ name ++ "() \x7b" ++ body ++ "\x7d\n").toList =
        plainText name body.toList ['\n'] := by
      simp [String.toList_append, plainText]
    rw [hchars]
    exact chunk_plainText hname hbody
  have hcons := behindClause_cons hpackage sourceName hdecl himport
  rw [behindClause, behindClause, h] at hcons
  obtain ⟨longer, hlonger, hbare⟩ := Option.map_eq_some_iff.mp hcons
  refine ⟨longer, ?_, hbare⟩
  rw [← toOption_eq_some_iff.mp hlonger]
  simp only [String.append_assoc]
  rfl

/-- Marks in literals and comments neither end a body nor go on with it. -/
theorem SourceFile.parse_func_cons_marks :
    let body := "f(\"\x7d\") /* \x7b */ // \x7d\n"
    Delimited body.toList ∧ firstWord "type T int\n".toList ≠ "import".toList ∧ ∃ file longer,
      SourceFile.parse ("package " ++ "p" ++ "\n" ++ "type T int\n") none = .ok file ∧
      SourceFile.parse ("package " ++ "p" ++ "\nfunc " ++ "F" ++ "() \x7b" ++ body ++ "\x7d\n" ++
        "type T int\n") none = .ok longer ∧
      bare longer =
        { bare file with declarations := .func (.plain "F") :: (bare file).declarations } := by
  intro body
  have hchars : body.toList = ['f'] ++ '(' :: (('"' :: (['\x7d'] ++ ['"']) ++ []) ++ ')' ::
      ([' '] ++ '/' :: '*' :: ([' ', '\x7b', ' '] ++ '*' :: '/' ::
        ([' '] ++ '/' :: '/' :: ([' ', '\x7d'] ++ '\n' :: []))))) := by
    decide
  have hbody : Delimited body.toList := by
    rw [hchars]
    refine .characters _ (by decide) (.group (by decide) (.literal (.string ?_) .nil) ?_)
    · exact .plain (by decide) (by decide) (by decide) .nil
    refine .characters _ (by decide) (.blockComment (by decide) (.characters _ (by decide) ?_))
    exact .lineComment (by decide) (by decide) .nil
  have himport : firstWord "type T int\n".toList ≠ "import".toList := by
    decide +kernel
  obtain ⟨file, hfile⟩ : ∃ file,
      SourceFile.parse ("package " ++ "p" ++ "\n" ++ "type T int\n") none = .ok file := by
    have hok : (SourceFile.parse ("package " ++ "p" ++ "\n" ++ "type T int\n") none).isOk = true := by
      decide +kernel
    revert hok
    cases SourceFile.parse ("package " ++ "p" ++ "\n" ++ "type T int\n") none with
    | error failure => exact nofun
    | ok file => exact fun _ => ⟨file, rfl⟩
  obtain ⟨longer, hlonger⟩ :=
    SourceFile.parse_func_cons (by decide : IsIdentifier "p") (by decide : IsIdentifier "F") hbody
      himport hfile
  exact ⟨hbody, himport, file, longer, hfile, hlonger⟩

/-- Import declarations are read in front of all others only, and an empty one leaves no trace in the
file. -/
theorem SourceFile.parse_func_cons_import :
    Delimited "".toList ∧
      (SourceFile.parse ("package " ++ "p" ++ "\n" ++ "import ()\n") none).toOption.map SourceFile.imports =
        some [] ∧
      (SourceFile.parse ("package " ++ "p" ++ "\nfunc " ++ "F" ++ "() \x7b" ++ "" ++ "\x7d\n" ++
        "import ()\n") none).isOk = false :=
  ⟨.nil, by decide +kernel, by decide +kernel⟩

end GoTrace
