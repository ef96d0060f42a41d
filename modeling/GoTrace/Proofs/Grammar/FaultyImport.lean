import GoTrace.Proofs.Grammar.FileText
import GoTrace.Proofs.Parser.Faults

/-!
# Imports with a literal that stands for no text

A file that imports one package on a line of its own is read to its end even when the literal of the
path stands for no text. The literal is the fault of the file then.
-/

namespace GoTrace.Grammar

open GoTrace.Lexeme GoTrace.Parser

variable {α : Type} {mode : Mode} {spec : Parser α} {start text rest : List Char}
  {blame : Fault → Prop} {path : String} {line : List Char} {name : Option ImportName}

def BlamesPath (path : String) (fault : Fault) : Prop :=
  ∃ span, fault = .invalidString (Text.quote path) span

theorem faults_stringValue (h : Literal.unquote? (Text.quote path).toList = none) (rest : List Char) :
    Faults stringValue mode ((Text.quote path).toList ++ rest) rest (BlamesPath path) := by
  refine (reads_stringLiteral path rest).bindFaults fun found hfound => ?_
  obtain ⟨literal, span⟩ := found
  obtain rfl : literal = (Text.quote path).toList := hfound
  dsimp only
  rw [h, String.ofList_toList]
  exact (Faults.note ⟨span, rfl⟩).bind fun _ => (Reads.pure _).ignore

theorem ImportText.faults_importSpec (h : ImportText path line name)
    (hnone : Literal.unquote? (Text.quote path).toList = none) (rest : List Char) :
    Faults importSpec .spaced (line ++ rest) rest (BlamesPath path) := by
  obtain ⟨middle, hname, hmiddle⟩ := h.reads_name rest
  have hgap := reads_gap middle
  rw [hmiddle] at hgap
  refine Faults.node (hname.bindFaults fun _ _ => hgap.bindFaults fun _ _ => ?_)
  exact (faults_stringValue hnone rest).bind fun _ => (Reads.pure _).ignore

theorem faults_block {opening closing : String} {first last : Char}
    (hopening : opening.toList = [first]) (hclosing : closing.toList = [last])
    (hbreaks : Breaks start ('\n' :: text)) (hstart : LineStart start)
    (hspec : Faults spec .spaced start ('\n' :: last :: rest) blame)
    (hlast : LineStart (last :: rest)) (hrefuses : Refuses spec .spaced (last :: rest)) :
    Faults (block opening closing spec) .spaced (first :: '\n' :: text) rest blame := by
  have hends : Breaks (last :: rest) ('\n' :: last :: rest) := .last hlast.solid
  obtain ⟨middle, hmiddle, hseparator⟩ := hbreaks.reads_separator hstart
  obtain ⟨behind, hbehind, hseparator'⟩ := hends.reads_separator hlast
  have hgap := reads_gap middle
  have hgap' := reads_gap behind
  have hgapFeed (more : List Char) := reads_gap_none (skipBlanks_newline more)
  rw [hmiddle] at hgap
  rw [hbehind] at hgap'
  have hstop : Rounds (do gap; onNewLine spec) .spaced ('\n' :: last :: rest) []
      ('\n' :: last :: rest) :=
    rounds_stop (by rwa [hends.behindBreaks_eq hlast])
  have hspecs : Faults (do
      let first ← spec
      gap
      let others ← repeated (onNewLine spec)
      return first :: others) .spaced start ('\n' :: last :: rest) blame := by
    refine hspec.bind fun value => (hgapFeed _).bind fun _ _ => ?_
    refine (reads_repeated hstop (skipBlanks_newline _)).bind fun values _ => ?_
    exact (Reads.pure _).ignore
  refine (reads_mark hopening _).bindFaults fun _ _ => (hgapFeed _).bindFaults fun _ _ => ?_
  refine hseparator.optional_some.bindFaults fun _ _ => hgap.bindFaults fun _ _ => ?_
  refine hspecs.optional.bind fun specs => (hgapFeed _).bind fun _ _ => ?_
  refine hseparator'.optional_some.bind fun _ _ => hgap'.bind fun _ _ => ?_
  refine (reads_mark hclosing rest).bind fun _ _ => ?_
  exact (Reads.pure _).ignore

theorem faults_importDecl (h : ImportText path line name)
    (hnone : Literal.unquote? (Text.quote path).toList = none) (rest : List Char) :
    Faults importDecl .spaced
      ("import".toList ++ ' ' :: '(' :: '\n' :: ('\t' :: (line ++ '\n' :: ')' :: rest))) rest
      (BlamesPath path) := by
  have hgap := reads_gap (' ' :: '(' :: '\n' :: ('\t' :: (line ++ '\n' :: ')' :: rest)))
  rw [skipBlanks_space, skipBlanks_of_isSolid (by decide)] at hgap
  have hstart := h.lineStart ('\n' :: ')' :: rest)
  have hbreaks : Breaks (line ++ '\n' :: ')' :: rest)
      ('\n' :: '\t' :: (line ++ '\n' :: ')' :: rest)) := by
    refine .last ?_
    rw [skipBlanks_tab]
    exact hstart.solid
  refine Faults.rule ((reads_word _ (by decide)).bindFaults fun _ _ => hgap.bindFaults fun _ _ => ?_)
  refine .orElse_left (faults_block rfl rfl hbreaks hstart (h.faults_importSpec hnone _) ?_ ?_)
  · exact lineStart_cons (by decide) (by decide) rest
  · exact refuses_importSpec_close rest

theorem faults_repeated {p : Parser α} (h : Faults p .spaced text rest blame)
    (hstop : Refuses (do gap; p) .spaced rest) : Faults (repeated p) .spaced text rest blame := by
  refine .orElse_left (h.bind fun value => ?_)
  refine (Rounds.stop hstop).many.bind fun values _ => ?_
  exact (Reads.pure _).ignore

theorem faults_sourceFile (h : ImportText path line name)
    (hnone : Literal.unquote? (Text.quote path).toList = none) {p : String} (hp : IsIdentifier p)
    (sourceName : Option String) :
    Faults (sourceFile sourceName) .spaced
      ("package".toList ++ ' ' :: (p.toList ++ '\n' :: '\n' :: ("import".toList ++
        ' ' :: '(' :: '\n' :: ('\t' :: (line ++ '\n' :: ')' :: ['\n']))))) []
      (BlamesPath path) := by
  generalize hclause : "import".toList ++ ' ' :: '(' :: '\n' :: ('\t' :: (line ++ '\n' :: ')' ::
    ['\n'])) = clause
  have hgapFeed (more : List Char) := reads_gap_none (skipBlanks_newline more)
  have hends : Breaks [] ['\n'] := .last skipBlanks_nil
  have himport : LineStart clause := by
    rw [← hclause]
    exact lineStart_cons (by decide) (by decide) _
  obtain ⟨middle, hmiddle, hseparator⟩ := (Breaks.emptyLine himport).reads_separator himport
  obtain ⟨last, hlast, hseparator'⟩ := hends.reads_separator lineStart_nil
  have hgap := reads_gap middle
  have hgap' := reads_gap last
  rw [hmiddle] at hgap
  rw [hlast] at hgap'
  have hdecl : Faults (onNewLine importDecl) .spaced ('\n' :: '\n' :: clause) ['\n']
      (BlamesPath path) := by
    refine hseparator.bindFaults fun _ _ => hgap.bindFaults fun _ _ => ?_
    rw [← hclause]
    exact faults_importDecl h hnone ['\n']
  have hstop {α : Type} {spec : Parser α} (hspec : Refuses spec .spaced []) :
      Refuses (do gap; onNewLine spec) .spaced ['\n'] :=
    refuses_onNewLine_behindBreaks (by rwa [hends.behindBreaks_eq lineStart_nil])
  have hdecls : Rounds (do gap; onNewLine topLevelDecl) .spaced ['\n'] [] ['\n'] :=
    .stop (hstop (refuses_topLevelDecl (by decide)))
  have hend : Reads (rule .endOfInput atEnd) .spaced [] [] fun _ => True := (Reads.ahead rfl).rule
  refine Faults.node ?_
  refine (reads_gap _).bindFaults fun _ _ => (reads_separator_package _).bindFaults fun _ _ => ?_
  refine (reads_gap_none (skipBlanks_package _)).bindFaults fun _ _ => ?_
  refine (reads_packageClause hp _).bindFaults fun ident _ => (hgapFeed _).bindFaults fun _ _ => ?_
  refine (faults_repeated hdecl (hstop (refuses_importDecl (by decide)))).bind fun groups => ?_
  refine (hgapFeed _).bind fun _ _ => ?_
  refine (reads_repeated hdecls (skipBlanks_newline _)).bind fun groups' _ => ?_
  refine (hgapFeed _).bind fun _ _ => hseparator'.optional_some.bind fun _ _ => ?_
  refine hgap'.bind fun _ _ => hend.bind fun _ _ => ?_
  exact (Reads.pure _).ignore

end GoTrace.Grammar
