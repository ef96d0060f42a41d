import GoTrace.Proofs.Grammar.DeclarationText

/-!
# Where files are read

A file with a comment on its first line, its package clause behind an empty line, and then chunks: the
declarations of imports and those of the top level.
-/

namespace GoTrace.Grammar

open GoTrace.Lexeme GoTrace.Parser

variable {α : Type} {spec : Parser α} {accept : α → Prop} {decl rest : List Char}

theorem Breaks.emptyLine {text : List Char} (h : LineStart text) :
    Breaks text ('\n' :: '\n' :: text) := by
  refine .again ?_
  rw [skipBlanks_newline]
  exact .last h.solid

theorem chunk_behindLine (hstart : ∀ rest, LineStart (decl ++ rest))
    (h : ∀ rest, Reads spec .spaced (decl ++ '\n' :: rest) ('\n' :: rest) accept) :
    Chunk spec ('\n' :: (decl ++ ['\n'])) accept := by
  intro rest
  refine ⟨decl ++ '\n' :: rest, ?_, hstart _, h rest⟩
  rw [List.cons_append, List.append_assoc]
  exact .emptyLine (hstart _)

theorem chunk_behindComment {comment : List Char} (hcomment : comment.all (!isLineEnd ·) = true)
    (hstart : ∀ rest, LineStart (decl ++ rest))
    (h : ∀ rest, Reads spec .spaced (decl ++ '\n' :: rest) ('\n' :: rest) accept) :
    Chunk spec ('\n' :: '/' :: '/' :: (comment ++ '\n' :: (decl ++ ['\n']))) accept := by
  intro rest
  have hsolid := (hstart ('\n' :: rest)).solid
  have htext : '\n' :: '/' :: '/' :: (comment ++ '\n' :: (decl ++ ['\n'])) ++ rest =
      '\n' :: '/' :: '/' :: (comment ++ '\n' :: (decl ++ '\n' :: rest)) := by simp
  refine ⟨decl ++ '\n' :: rest, .again ?_, hstart _, h rest⟩
  rw [htext, skipBlanks_newline]
  refine .again ?_
  rw [skipBlanks_lineComment hcomment]
  exact .last hsolid

theorem refuses_importDecl {text : List Char} (h : wordAhead text ≠ "import".toList) :
    Refuses importDecl .spaced text :=
  refuses_specs h

theorem refuses_topLevelDecl {text : List Char}
    (h : wordAhead text ∉ ["type".toList, "const".toList, "var".toList, "func".toList]) :
    Refuses topLevelDecl .spaced text := by
  simp only [List.mem_cons, List.not_mem_nil, or_false, not_or] at h
  obtain ⟨htype, hconst, hvar, hfunc⟩ := h
  refine .orElse (refuses_keywordDecl htype) (.orElse (refuses_keywordDecl hconst) ?_)
  exact .orElse (refuses_keywordDecl hvar) (refuses_funcDecl hfunc).bind_left

theorem refuses_importDecl_of_reads {text : List Char} {accept : List Declaration → Prop}
    (h : Reads topLevelDecl .spaced text rest accept) : Refuses importDecl .spaced text := by
  refine refuses_importDecl ?_
  intro himport
  have hrefuses : Refuses topLevelDecl .spaced text := by
    refine refuses_topLevelDecl ?_
    rw [himport]
    decide
  obtain ⟨found, hfound, -⟩ := h default
  rw [hrefuses default] at hfound
  cases hfound

theorem refuses_imports {decls : List (List Char)} {accepts : List (List Declaration → Prop)}
    (h : List.Forall₂ (Line topLevelDecl) decls accepts) :
    Refuses importDecl .spaced (behindBreaks decls.flatten) := by
  cases h with
  | nil =>
      rw [List.flatten_nil, behindBreaks_nil]
      exact refuses_importDecl (by decide)
  | cons hline _ =>
      obtain ⟨_, hread, -⟩ := hline _
      exact refuses_importDecl_of_reads hread

theorem reads_packageClause {name : String} (hname : IsIdentifier name) (rest : List Char) :
    Reads packageClause .spaced ("package".toList ++ ' ' :: (name.toList ++ '\n' :: rest))
      ('\n' :: rest) (·.name = name) := by
  have hstop : StopsWord ('\n' :: rest) := (by decide : isIdentChar '\n' = false)
  have hgap := reads_gap (' ' :: (name.toList ++ '\n' :: rest))
  rw [skipBlanks_space, (isIdentifier_lineStart hname _).solid] at hgap
  refine Reads.rule ((reads_word _).bind fun _ _ => hgap.bind fun _ _ => ?_)
  exact reads_identifier hname hstop

def Alone (accept : Declaration → Prop) (decls : List Declaration) : Prop :=
  ∃ decl, decls = [decl] ∧ accept decl

theorem meets_flatten_of_alone {accepts : List (Declaration → Prop)}
    {groups : List (List Declaration)} (h : Meets (accepts.map Alone) groups) :
    Meets accepts groups.flatten := by
  rw [Meets, List.forall₂_map_left_iff] at h
  induction h with
  | nil => exact .nil
  | cons halone _ ih =>
      obtain ⟨decl, rfl, haccept⟩ := halone
      exact .cons haccept ih

/-- What is found in a file whose chunks have the properties in order. -/
structure Holds (name : String) (imports : List (List ImportSpec → Prop))
    (declarations : List (List Declaration → Prop)) (file : SourceFile) : Prop where
  package : file.package.name = name
  imports : ∃ groups, Meets imports groups ∧ file.imports = groups.flatten
  declarations : ∃ groups, Meets declarations groups ∧ file.declarations = groups.flatten

/-- A file is read from its parts: line ends or none, the package clause, the imports, the declarations,
and line ends or none behind them. -/
theorem reads_sourceFile_parts (sourceName : Option String) {name : String} (hname : IsIdentifier name)
    {text start body middle last ending : List Char} {imports : List (List ImportSpec → Prop)}
    {declarations : List (List Declaration → Prop)} {accept : SourceFile → Prop}
    (hfront : Reads (optional separator) .spaced (skipBlanks text) start fun _ => True)
    (hstart : skipBlanks start = "package".toList ++ ' ' :: (name.toList ++ '\n' :: body))
    (himports : Rounds (do gap; onNewLine importDecl) .spaced ('\n' :: body) imports middle)
    (hdecls : Rounds (do gap; onNewLine topLevelDecl) .spaced (skipBlanks middle) declarations last)
    (hback : Reads (optional separator) .spaced (skipBlanks last) ending fun _ => True)
    (hending : skipBlanks ending = [])
    (haccept : ∀ ident groups groups' span, ident.name = name → Meets imports groups →
      Meets declarations groups' →
        accept ⟨ident, groups.flatten, groups'.flatten, sourceName, span⟩) :
    Reads (sourceFile sourceName) .spaced text [] accept := by
  have hgapStart := reads_gap start
  rw [hstart] at hgapStart
  have hgapBody := reads_gap_none (skipBlanks_newline body)
  have hgapEnding := reads_gap ending
  rw [hending] at hgapEnding
  have hend : Reads (rule .endOfInput atEnd) .spaced [] [] fun _ => True := (Reads.ahead rfl).rule
  refine Reads.node (fun found => found.1.name = name ∧
    (∃ groups, Meets imports groups ∧ found.2.1 = groups.flatten) ∧
    ∃ groups, Meets declarations groups ∧ found.2.2 = groups.flatten) ?_ ?_
  · refine (reads_gap text).bind fun _ _ => hfront.bind fun _ _ => hgapStart.bind fun _ _ => ?_
    refine (reads_packageClause hname body).bind fun ident hident => hgapBody.bind fun _ _ => ?_
    refine (reads_repeated himports (skipBlanks_newline _)).bind fun groups hgroups => ?_
    refine (reads_gap middle).bind fun _ _ => ?_
    refine (reads_repeated hdecls (skipBlanks_skipBlanks _)).bind fun groups' hgroups' => ?_
    refine (reads_gap last).bind fun _ _ => hback.bind fun _ _ => hgapEnding.bind fun _ _ => ?_
    refine hend.bind fun _ _ => (Reads.pure _).weaken fun found hfound => ?_
    rw [hfound]
    exact ⟨hident, ⟨groups, hgroups, rfl⟩, groups', hgroups', rfl⟩
  · rintro ⟨ident, _, _⟩ span ⟨hident, ⟨groups, hgroups, rfl⟩, groups', hgroups', rfl⟩
    refine (Reads.pure _).weaken fun file hfile => ?_
    rw [hfile]
    exact haccept ident groups groups' span hident hgroups hgroups'

/-- A package clause, imports and declarations are read when nothing but line ends stands in front. -/
theorem reads_sourceFile_chunks (sourceName : Option String) {name : String} (hname : IsIdentifier name)
    {text start : List Char} {imports decls : List (List Char)}
    {importAccepts : List (List ImportSpec → Prop)} {declAccepts : List (List Declaration → Prop)}
    (hfront : Reads (optional separator) .spaced (skipBlanks text) start fun _ => True)
    (hstart : skipBlanks start = "package".toList ++ ' ' :: (name.toList ++
      '\n' :: (imports.flatten ++ decls.flatten)))
    (himports : List.Forall₂ (Chunk importDecl) imports importAccepts)
    (hdecls : List.Forall₂ (Chunk topLevelDecl) decls declAccepts) :
    Reads (sourceFile sourceName) .spaced text [] (Holds name importAccepts declAccepts) := by
  have hlines := hdecls.imp fun _ _ => Chunk.line
  obtain ⟨middle, himported, hmiddle⟩ := rounds_lines (himports.imp fun _ _ => Chunk.line)
    (refuses_imports hlines) (endsLine_newline _)
  rw [← List.append_nil decls.flatten] at hmiddle
  obtain ⟨last, hdeclared, hlast⟩ := rounds_lines hlines
    (refuses_topLevelDecl (by rw [behindBreaks_nil]; decide)) hmiddle.blanks
  obtain ⟨ending, hback, hending⟩ := exists_reads_optional_separator last
  refine reads_sourceFile_parts sourceName hname hfront hstart himported hdeclared hback
    (hending.trans (hlast.first.trans behindBreaks_nil)) ?_
  intro ident groups groups' span hident hgroups hgroups'
  exact ⟨hident, ⟨groups, hgroups, rfl⟩, groups', hgroups', rfl⟩

theorem reads_sourceFile (sourceName : Option String) {comment : List Char}
    (hcomment : comment.all (!isLineEnd ·) = true) {name : String} (hname : IsIdentifier name)
    {imports decls : List (List Char)} {importAccepts : List (List ImportSpec → Prop)}
    {declAccepts : List (List Declaration → Prop)}
    (himports : List.Forall₂ (Chunk importDecl) imports importAccepts)
    (hdecls : List.Forall₂ (Chunk topLevelDecl) decls declAccepts) :
    Reads (sourceFile sourceName) .spaced
      ('/' :: '/' :: (comment ++ '\n' :: '\n' :: ("package".toList ++ ' ' :: (name.toList ++
        '\n' :: (imports.flatten ++ decls.flatten))))) []
      (Holds name importAccepts declAccepts) := by
  generalize hbody : imports.flatten ++ decls.flatten = body
  have hstart : LineStart ("package".toList ++ ' ' :: (name.toList ++ '\n' :: body)) :=
    lineStart_cons (by decide) (by decide) _
  obtain ⟨first, hfirst, hseparator⟩ := (Breaks.emptyLine hstart).reads_separator hstart
  rw [← hbody] at hfirst
  refine reads_sourceFile_chunks sourceName hname ?_ hfirst himports hdecls
  rw [skipBlanks_lineComment hcomment]
  exact hseparator.optional_some.ignore

theorem refuses_sourceFile (sourceName : Option String) {comment : List Char}
    (hcomment : comment.all (!isLineEnd ·) = true) {name : String} (hname : IsIdentifier name)
    {body : List Char} (himport : Refuses importDecl .spaced (behindBreaks body))
    (hdecl : Refuses topLevelDecl .spaced (behindBreaks body)) (hne : behindBreaks body ≠ []) :
    Refuses (sourceFile sourceName) .spaced
      ('/' :: '/' :: (comment ++ '\n' :: '\n' :: ("package".toList ++ ' ' :: (name.toList ++
        '\n' :: body)))) := by
  have hstart : LineStart ("package".toList ++ ' ' :: (name.toList ++ '\n' :: body)) :=
    lineStart_cons (by decide) (by decide) _
  obtain ⟨first, hfirst, hseparator⟩ := (Breaks.emptyLine hstart).reads_separator hstart
  obtain ⟨last, hback, hlast⟩ := exists_reads_optional_separator ('\n' :: body)
  have hgapFirst := reads_gap first
  have hgapBody := reads_gap_none (skipBlanks_newline body)
  have hgapLast := reads_gap last
  rw [← behindBreaks_break (c := '\n') (by decide)] at himport hdecl hne
  rw [hfirst] at hgapFirst
  rw [hlast] at hgapLast
  rw [skipBlanks_newline] at hback
  have hend : Refuses (rule .endOfInput atEnd) .spaced (behindBreaks ('\n' :: body)) := by
    refine Refuses.rule (Refuses.ahead ?_)
    rw [if_neg (by simpa using hne)]
  refine ((Refuses.rule ?_).spanned).bind_left
  refine Refuses.bind (reads_gap _) fun _ _ => ?_
  rw [skipBlanks_lineComment hcomment]
  refine Refuses.bind hseparator.optional_some fun _ _ => Refuses.bind hgapFirst fun _ _ => ?_
  refine Refuses.bind (reads_packageClause hname body) fun _ _ => Refuses.bind hgapBody fun _ _ => ?_
  refine Refuses.bind (reads_repeated (rounds_stop himport) (skipBlanks_newline body)) fun _ _ => ?_
  refine Refuses.bind hgapBody fun _ _ => ?_
  refine Refuses.bind (reads_repeated (rounds_stop hdecl) (skipBlanks_newline body)) fun _ _ => ?_
  refine Refuses.bind hgapBody fun _ _ => Refuses.bind hback fun _ _ => ?_
  exact Refuses.bind hgapLast fun _ _ => hend.bind_left

/-! ## Package clauses on the first line -/

theorem skipBlanks_package (text : List Char) :
    skipBlanks ("package".toList ++ text) = "package".toList ++ text :=
  skipBlanks_of_isSolid (by decide) _

theorem reads_separator_package (text : List Char) :
    Reads (optional separator) .spaced (skipBlanks ("package".toList ++ text))
      ("package".toList ++ text) fun _ => True := by
  have hnone : Refuses separator .spaced ("package".toList ++ text) :=
    (Refuses.orElse (Refuses.literal rfl) (Refuses.take rfl)).bind_left
  rw [skipBlanks_package]
  exact (Reads.optional_none hnone).ignore

end GoTrace.Grammar
