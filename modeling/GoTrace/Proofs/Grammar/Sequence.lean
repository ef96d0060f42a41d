import GoTrace.Proofs.Grammar.Extent
import GoTrace.Proofs.Grammar.FileText
import GoTrace.Proofs.Grammar.FirstWord
import GoTrace.Proofs.Grammar.Placement

/-!
# Declarations one behind the other

A file without imports is a package clause and declarations. Each declaration is read by itself, so a
file with one more declaration in front declares that one and then what it declared before.
-/

namespace GoTrace.Parser

theorem isSome_repeatUpTo {α : Type} (p : Parser α) (mode : Mode) (bound : Nat) (cursor : Cursor) :
    (repeatUpTo p bound mode cursor).found.isSome = true := by
  cases bound with
  | zero => rfl
  | succ bound => simp [found_repeatUpTo_succ]

variable {α : Type} [Placed α] {p : Parser α} {mode : Mode} {text : List Char} {start : Mark}
  {next : Cursor} {values : List α}

/-- A value like a known one, wherever in a file it is found. -/
def Like (known value : α) : Prop := bare value = bare known

theorem rounds_of_repeatUpTo (hagree : Agree p p) (hspends : Spends p fun _ => 1) {bound : Nat}
    (hbound : text.length < bound) (h : Finds (repeatUpTo p bound) mode ⟨text, start⟩ values next) :
    Rounds p mode text (values.map Like) next.rest := by
  induction bound generalizing text start values with
  | zero => exact absurd hbound (Nat.not_lt_zero _)
  | succ bound ih =>
      cases hfound : (p mode ⟨text, start⟩).found with
      | none =>
          rw [Finds, found_repeatUpTo_succ, hfound] at h
          cases h
          exact .stop (hagree.refuses hfound)
      | some first =>
          obtain ⟨others, hothers⟩ := Option.isSome_iff_exists.mp
            (isSome_repeatUpTo p mode bound first.next)
          rw [Finds, found_repeatUpTo_succ, hfound, Option.bind_some, hothers] at h
          obtain ⟨rfl, rfl, hfault⟩ := Found.mk.inj (Option.some.inj h)
          cases hfirst : first.fault with
          | some fault =>
              rw [hfirst] at hfault
              cases hfault
          | none =>
              rw [hfirst] at hfault
              have hless := hspends hfound
              have hshorter : first.next.rest.length < text.length := by
                dsimp only at hless
                omega
              have hbehind : Finds (repeatUpTo p bound) mode first.next others.value others.next := by
                rw [Finds, hothers, ← hfault]
                rfl
              exact .step (hagree.reads hfound hfirst) hshorter (ih (by omega) hbehind)

end GoTrace.Parser

namespace GoTrace.Grammar

open GoTrace.Lexeme GoTrace.Parser

section

variable {α : Type} [Placed α] {p : Parser α} {text : List Char} {start : Mark} {next : Cursor}
  {values : List α}

theorem rounds_of_repeated (hagree : Agree p p) [Advances p] (hspends : Spends p fun _ => 1)
    (htext : skipBlanks text = text) (h : Finds (repeated p) .spaced ⟨text, start⟩ values next) :
    Rounds (do gap; p) .spaced text (values.map Like) next.rest := by
  have hagree' : Agree (do gap; p) (do gap; p) := gap_agree.after fun _ _ => hagree
  have hspends' : Spends (do gap; p) fun _ => 1 := .after fun _ => hspends
  have hgap := found_gap_none (p := p) htext start
  obtain h | ⟨hnone, h⟩ := h.of_orElse
  · obtain ⟨first, middle, hfirst, h⟩ := h.of_bind
    obtain ⟨others, last, hothers, h⟩ := h.of_bind
    obtain ⟨rfl, rfl⟩ := h.of_pure
    have hless := hspends hfirst
    dsimp only at hless
    have hround := hagree'.reads (hgap.trans hfirst) rfl
    exact .step hround (by dsimp only; omega)
      (rounds_of_repeatUpTo hagree' hspends' (Nat.lt_succ_self _) hothers)
  · obtain ⟨rfl, rfl⟩ := h.of_pure
    refine .stop (hagree'.refuses (hgap.trans ?_))
    -- behind a first value more of them are always found, so the first was not
    cases hfound : (p .spaced ⟨text, start⟩).found with
    | none => rfl
    | some found =>
        obtain ⟨others, hothers⟩ := Option.isSome_iff_exists.mp
          (isSome_repeatUpTo (do gap; p) .spaced (found.next.rest.length + 1) found.next)
        rw [found_bind, hfound, Option.bind_some, Option.map_eq_none_iff, found_bind] at hnone
        change ((repeatUpTo (do gap; p) _ .spaced found.next).found.bind _) = none at hnone
        rw [hothers] at hnone
        cases hnone

end

variable {text rest : List Char} {name : String}

theorem rest_of_atEnd {mode : Mode} {cursor next : Cursor} {value : Unit}
    (h : Finds atEnd mode cursor value next) : cursor.rest = [] := by
  rw [Finds, atEnd, found_ahead] at h
  split at h
  · rename_i hsome
    cases hrest : cursor.rest with
    | nil => rfl
    | cons c rest => simp [hrest] at hsome
  · cases h

/-- Behind the end of a line the text is declarations up to its end: in these groups, one for each
keyword, but for their spans. -/
def Declares (text : List Char) (groups : List (List Declaration)) : Prop :=
  ∃ rest, Rounds (do gap; onNewLine topLevelDecl) .spaced ('\n' :: text) (groups.map Like) rest ∧
    behindBreaks rest = []

theorem lineBreak_spends : Spends lineBreak fun _ => 1 := by
  refine .orElse (.take fun text count h => ?_) (.take fun text count h => ?_)
  · rw [Option.ite_none_right_eq_some] at h
    obtain ⟨hstarts, heq⟩ := h
    cases heq
    exact ⟨by decide, (List.isPrefixOf_iff_prefix.mp hstarts).length_le⟩
  · unfold newline? at h
    split at h <;> cases h <;> simp

theorem onNewLine_spends {α : Type} (spec : Parser α) [Advances spec] :
    Spends (onNewLine spec) fun _ => 1 :=
  .before (.before lineBreak_spends)

instance {α : Type} (spec : Parser α) [Advances spec] : Advances (onNewLine spec) := by
  unfold onNewLine
  infer_instance

theorem onNewLine_agree {α : Type} [Placed α] {spec : Parser α} (h : Agree spec spec) :
    Agree (onNewLine spec) (onNewLine spec) :=
  separator_agree.after fun _ _ => gap_agree.after fun _ _ => h

/-- Behind the end of a line the text is imports and then declarations, up to its end: in these groups,
one for each keyword, but for their spans. -/
def Contains (text : List Char) (imports : List (List ImportSpec)) (groups : List (List Declaration)) :
    Prop :=
  ∃ middle last, Rounds (do gap; onNewLine importDecl) .spaced ('\n' :: text) (imports.map Like) middle ∧
    Rounds (do gap; onNewLine topLevelDecl) .spaced (skipBlanks middle) (groups.map Like) last ∧
      behindBreaks last = []

theorem Rounds.of_refuses {α : Type} {spec : Parser α} {accepts : List (α → Prop)}
    (h : Rounds (do gap; onNewLine spec) .spaced text accepts rest)
    (hrefuses : Refuses spec .spaced (behindBreaks text)) : accepts = [] ∧ rest = text := by
  cases h with
  | stop => exact ⟨rfl, rfl⟩
  | step hfirst =>
      obtain ⟨_, _, hfound, -⟩ := hfirst.finds default
      rw [Finds, refuses_onNewLine_behindBreaks hrefuses default] at hfound
      cases hfound

theorem contains_iff {imports : List (List ImportSpec)} {groups : List (List Declaration)}
    (himport : Refuses importDecl .spaced (behindBreaks text)) :
    Contains text imports groups ↔ imports = [] ∧ Declares text groups := by
  rw [← behindBreaks_break (c := '\n') (by decide)] at himport
  constructor
  · rintro ⟨middle, last, himports, hgroups, hlast⟩
    obtain ⟨hnil, rfl⟩ := Rounds.of_refuses himports himport
    rw [skipBlanks_newline] at hgroups
    exact ⟨List.map_eq_nil_iff.mp hnil, last, hgroups, hlast⟩
  · rintro ⟨rfl, last, hgroups, hlast⟩
    rw [← skipBlanks_newline] at hgroups
    exact ⟨_, last, rounds_stop himport, hgroups, hlast⟩

theorem exists_contains {p : String} (hname : IsIdentifier p) {sourceName : Option String}
    {start : Mark} {next : Cursor} {file : SourceFile}
    (h : Finds (sourceFile sourceName) .spaced
      ⟨"package".toList ++ ' ' :: (p.toList ++ '\n' :: text), start⟩ file next) :
    ∃ imports groups, Contains text imports groups ∧
      bare file = bare (SourceFile.mk ⟨p, default⟩ imports.flatten groups.flatten sourceName default) := by
  have hsolid (text : List Char) : skipBlanks ("package".toList ++ text) = "package".toList ++ text :=
    skipBlanks_of_isSolid (by decide) _
  have hnone (text : List Char) : Refuses separator .spaced ("package".toList ++ text) :=
    (Refuses.orElse (Refuses.literal rfl) (Refuses.take rfl)).bind_left
  have hclause := reads_packageClause hname text
  -- part by part: what the text is read as there is what has been found
  obtain ⟨⟨⟨package, imported, declarations⟩, span⟩, middle, h, hfile⟩ := h.of_bind
  obtain ⟨rfl, rfl⟩ := hfile.of_pure
  obtain ⟨_, ⟨rest, start⟩, hfirst, h⟩ := h.of_spanned.of_rule.of_bind
  obtain ⟨rfl, -⟩ := hfirst.of_reads (reads_gap_none (hsolid _))
  obtain ⟨_, ⟨rest, start⟩, hfirst, h⟩ := h.of_bind
  obtain ⟨rfl, -⟩ := hfirst.of_reads (Reads.optional_none (hnone _))
  obtain ⟨_, ⟨rest, start⟩, hfirst, h⟩ := h.of_bind
  obtain ⟨rfl, -⟩ := hfirst.of_reads (reads_gap_none (hsolid _))
  obtain ⟨ident, ⟨rest, start⟩, hfirst, h⟩ := h.of_bind
  obtain ⟨rfl, hident⟩ := hfirst.of_reads hclause
  obtain ⟨_, ⟨rest, start⟩, hfirst, h⟩ := h.of_bind
  obtain ⟨rfl, -⟩ := hfirst.of_reads (reads_gap_none (skipBlanks_newline text))
  obtain ⟨imports, middle, himports, h⟩ := h.of_bind
  have himported := rounds_of_repeated (onNewLine_agree importDecl_agree)
    (onNewLine_spends importDecl) (skipBlanks_newline text) himports
  obtain ⟨_, ⟨rest, start⟩, hfirst, h⟩ := h.of_bind
  obtain ⟨rfl, -⟩ := hfirst.of_reads (reads_gap middle.rest)
  obtain ⟨groups, last, hgroups, h⟩ := h.of_bind
  have hdeclared := rounds_of_repeated (onNewLine_agree topLevelDecl_agree)
    (onNewLine_spends topLevelDecl) (skipBlanks_skipBlanks middle.rest) hgroups
  obtain ⟨behind, hseparator, hbehind⟩ := exists_reads_optional_separator last.rest
  obtain ⟨_, ⟨rest, start⟩, hfirst, h⟩ := h.of_bind
  obtain ⟨rfl, -⟩ := hfirst.of_reads (reads_gap last.rest)
  obtain ⟨_, ⟨rest, start⟩, hfirst, h⟩ := h.of_bind
  obtain ⟨rfl, -⟩ := hfirst.of_reads hseparator
  obtain ⟨_, ⟨rest, start⟩, hfirst, h⟩ := h.of_bind
  obtain ⟨rfl, -⟩ := hfirst.of_reads (reads_gap _)
  obtain ⟨_, _, hend, h⟩ := h.of_bind
  obtain ⟨hvalue, -⟩ := h.of_pure
  cases hvalue
  have hlast : behindBreaks last.rest = [] := hbehind.symm.trans (rest_of_atEnd hend.of_rule)
  refine ⟨imports, groups, ⟨middle.rest, last.rest, himported, hdeclared, hlast⟩, ?_⟩
  have hpackage : bare package = bare (Ident.mk p default) := congrArg (Ident.mk · default) hident
  change SourceFile.mk (bare package) (bare imports.flatten) (bare groups.flatten) sourceName default = _
  rw [hpackage]
  rfl

theorem bare_of_meets {α : Type} [Placed α] {known values : List α}
    (h : Meets (known.map Like) values) : bare values = bare known := by
  rw [Meets, List.forall₂_map_left_iff] at h
  induction h with
  | nil => rfl
  | cons hvalue _ ih => exact bare_cons_congr hvalue ih

theorem Contains.reads_sourceFile {imports : List (List ImportSpec)} {groups : List (List Declaration)}
    (h : Contains text imports groups) {p : String} (hname : IsIdentifier p) (sourceName : Option String) :
    Reads (sourceFile sourceName) .spaced ("package".toList ++ ' ' :: (p.toList ++ '\n' :: text)) []
      (Like (SourceFile.mk ⟨p, default⟩ imports.flatten groups.flatten sourceName default)) := by
  obtain ⟨middle, last, himports, hgroups, hlast⟩ := h
  obtain ⟨behind, hback, hbehind⟩ := exists_reads_optional_separator last
  refine reads_sourceFile_parts sourceName hname (reads_separator_package _) (skipBlanks_package _)
    himports hgroups hback (hbehind.trans hlast) fun ident imported found span hident himported hfound => ?_
  change SourceFile.mk (Ident.mk ident.name default) (bare imported.flatten) (bare found.flatten) sourceName
    default = _
  rw [hident, bare_flatten, bare_flatten, bare_of_meets himported, bare_of_meets hfound, ← bare_flatten,
    ← bare_flatten]
  rfl

theorem Declares.cons {groups : List (List Declaration)} (h : Declares text groups) {decl : List Char}
    {group : List Declaration} (hdecl : Chunk topLevelDecl decl (Like group)) :
    Declares (decl ++ text) (group :: groups) := by
  obtain ⟨last, hrounds, hlast⟩ := h
  obtain ⟨start, hbreaks, hstart, hread⟩ := hdecl text
  have hround := reads_onNewLine hbreaks hstart hread
  have hshorter : ('\n' :: text).length < ('\n' :: (decl ++ text)).length :=
    Nat.lt_of_le_of_lt hread.length_le hbreaks.length_lt
  refine ⟨last, .step ?_ hshorter hrounds, hlast⟩
  exact (reads_gap_none (skipBlanks_newline _)).bind fun _ _ => hround

/-- Without a word for declarations nothing is declared, and nothing else may stand there. -/
theorem Declares.behindBreaks_eq_nil {groups : List (List Declaration)} (h : Declares text groups)
    (hword : firstWord text ∉ ["type".toList, "const".toList, "var".toList, "func".toList]) :
    behindBreaks text = [] := by
  obtain ⟨last, hrounds, hlast⟩ := h
  have hnone : Refuses topLevelDecl .spaced (behindBreaks ('\n' :: text)) := by
    rw [behindBreaks_break (by decide)]
    exact refuses_topLevelDecl hword
  obtain ⟨-, rfl⟩ := Rounds.of_refuses hrounds hnone
  rwa [behindBreaks_break (by decide)] at hlast

theorem Declares.of_append {groups : List (List Declaration)} {decl : List Char}
    {group : List Declaration} (hdecl : Chunk topLevelDecl decl (Like group))
    (h : Declares (decl ++ text) groups) :
    ∃ first others, groups = first :: others ∧ bare first = bare group ∧ Declares text others := by
  obtain ⟨last, hrounds, hlast⟩ := h
  obtain ⟨start, hbreaks, hstart, hread⟩ := hdecl text
  have hround : Reads (do gap; onNewLine topLevelDecl) .spaced ('\n' :: (decl ++ text)) ('\n' :: text)
      (Like group) :=
    (reads_gap_none (skipBlanks_newline _)).bind fun _ _ => reads_onNewLine hbreaks hstart hread
  obtain ⟨value, next, hfound, hnext, hvalue⟩ := hround.finds default
  cases groups with
  | nil =>
      cases hrounds with
      | stop hrefuses =>
          rw [Finds, hrefuses default] at hfound
          cases hfound
  | cons first others =>
      cases hrounds with
      | step hfirst hshorter hothers =>
          obtain ⟨hmiddle, hlike⟩ := hfound.of_reads hfirst
          rw [hmiddle] at hnext
          rw [hnext] at hothers
          exact ⟨first, others, rfl, hlike.symm.trans hvalue, last, hothers, hlast⟩

theorem refuses_import_of_chunk {decl : List Char} {accept : List Declaration → Prop}
    (h : Chunk topLevelDecl decl accept) (rest : List Char) :
    Refuses importDecl .spaced (behindBreaks (decl ++ rest)) := by
  obtain ⟨_, hread, -⟩ := h.line rest
  exact refuses_importDecl_of_reads hread

end GoTrace.Grammar

namespace GoTrace.SourceFile

open Lexeme Grammar GoTrace.Parser

theorem toOption_eq_some_iff {ε α : Type} {answer : Except ε α} {value : α} :
    answer.toOption = some value ↔ answer = .ok value := by
  cases answer <;> simp [Except.toOption]

variable {package : String} (hpackage : IsIdentifier package) (sourceName : Option String)

/-- The file behind a package clause, without its spans. -/
def behindClause (package : String) (sourceName : Option String) (text : String) : Option SourceFile :=
  (SourceFile.parse ("package " ++ package ++ "\n" ++ text) sourceName).toOption.map bare

/-- The file with further declarations in front of its own. -/
def withFront (declarations : List Declaration) (file : SourceFile) : SourceFile :=
  { file with declarations := declarations ++ file.declarations }

include hpackage

theorem behindClause_eq_some_iff {text : String} {file : SourceFile} :
    behindClause package sourceName text = some file ↔
      ∃ imports groups, Contains text.toList imports groups ∧
        file = ⟨⟨package, default⟩, bare imports.flatten, bare groups.flatten, sourceName, default⟩ := by
  have hchars : ("package " ++ package ++ "\n" ++ text).toList =
      "package".toList ++ ' ' :: (package.toList ++ '\n' :: text.toList) := by
    simp [String.toList_append]
  constructor
  · intro h
    obtain ⟨found, hfound, rfl⟩ := Option.map_eq_some_iff.mp h
    obtain ⟨next, hfinds⟩ := finds_of_run (toOption_eq_some_iff.mp hfound)
    rw [hchars] at hfinds
    exact exists_contains hpackage hfinds
  · rintro ⟨imports, groups, hcontains, rfl⟩
    have hreads := hcontains.reads_sourceFile hpackage sourceName
    rw [← hchars] at hreads
    obtain ⟨found, hrun, hlike⟩ := run_of_reads hreads _
    exact Option.map_eq_some_iff.mpr ⟨found, toOption_eq_some_iff.mpr hrun, hlike⟩

theorem behindClause_eq_some_iff_declares {text : String} {file : SourceFile}
    (himport : Refuses importDecl .spaced (behindBreaks text.toList)) :
    behindClause package sourceName text = some file ↔
      ∃ groups, Declares text.toList groups ∧
        file = ⟨⟨package, default⟩, [], bare groups.flatten, sourceName, default⟩ := by
  rw [behindClause_eq_some_iff hpackage sourceName]
  constructor
  · rintro ⟨imports, groups, hcontains, rfl⟩
    obtain ⟨rfl, hdeclares⟩ := (contains_iff himport).mp hcontains
    exact ⟨groups, hdeclares, rfl⟩
  · rintro ⟨groups, hdeclares, rfl⟩
    exact ⟨[], groups, (contains_iff himport).mpr ⟨rfl, hdeclares⟩, rfl⟩

/-- A declaration in front is read as itself, and what stands behind it as without it. -/
theorem behindClause_cons {decl text : String} {group : List Declaration}
    (hdecl : Chunk topLevelDecl decl.toList (Like group))
    (himport : firstWord text.toList ≠ "import".toList) :
    behindClause package sourceName (decl ++ text) =
      (behindClause package sourceName text).map (withFront (bare group)) := by
  refine Option.ext fun file => ?_
  rw [behindClause_eq_some_iff_declares hpackage sourceName (by
      rw [String.toList_append]
      exact refuses_import_of_chunk hdecl text.toList), Option.map_eq_some_iff, String.toList_append]
  constructor
  · rintro ⟨groups, hdeclares, rfl⟩
    obtain ⟨first, others, rfl, hfirst, hothers⟩ := hdeclares.of_append hdecl
    refine ⟨_, (behindClause_eq_some_iff_declares hpackage sourceName (refuses_importDecl himport)).mpr
      ⟨others, hothers, rfl⟩, ?_⟩
    rw [withFront, List.flatten_cons, bare_append, hfirst]
  · rintro ⟨shorter, hshorter, rfl⟩
    obtain ⟨groups, hdeclares, rfl⟩ :=
      (behindClause_eq_some_iff_declares hpackage sourceName (refuses_importDecl himport)).mp hshorter
    refine ⟨group :: groups, hdeclares.cons hdecl, ?_⟩
    rw [withFront, List.flatten_cons, bare_append]

end GoTrace.SourceFile
