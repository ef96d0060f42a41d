import GoTrace.Grammar.File
import GoTrace.Proofs.Grammar.Progress
import GoTrace.Proofs.Grammar.Words

/-!
# Where lines are read

Declarations and specs stand on lines of their own, with empty lines, comments and tabs between them.
A chunk is the text of one of them with the lines in front of it, so chunks can stand one behind the
other in any number.
-/

namespace GoTrace.Lexeme

@[simp] theorem skipBlanks_tab (rest : List Char) : skipBlanks ('\t' :: rest) = skipBlanks rest := by
  simp [skipBlanks, blanks]

theorem skipBlanks_lineComment {line : List Char} (h : line.all (!isLineEnd ·) = true)
    (rest : List Char) :
    skipBlanks ('/' :: '/' :: (line ++ '\n' :: rest)) = '\n' :: rest := by
  rw [skipBlanks, blanks_lineComment h (by decide)]
  simp

end GoTrace.Lexeme

namespace GoTrace.Grammar

open GoTrace.Lexeme GoTrace.Parser

variable {α : Type} {mode : Mode} {spec : Parser α} {start text rest : List Char}

/-! ## Line ends -/

def lineBreak : Parser Unit := literal ";" <|> newline

/-- A text at which a declaration can start. -/
structure LineStart (text : List Char) : Prop where
  solid : skipBlanks text = text
  noBreak : ∀ mode, Refuses lineBreak mode text

theorem lineStart_nil : LineStart [] where
  solid := skipBlanks_nil
  noBreak _ := .orElse (Refuses.literal rfl) (Refuses.take rfl)

theorem lineStart_cons {c : Char} (hsolid : isSolid c = true) (hc : c ∉ [';', '\n', '\r'])
    (rest : List Char) : LineStart (c :: rest) where
  solid := skipBlanks_of_isSolid hsolid rest
  noBreak mode := by
    simp only [List.mem_cons, not_or] at hc
    obtain ⟨hsemicolon, hfeed, hreturn, -⟩ := hc
    refine .orElse (refuses_mark rfl (head?_ne rfl hsemicolon)) (Refuses.take ?_)
    unfold newline?
    split <;> simp_all

theorem newline?_of_noBreak (h : Refuses lineBreak mode text) : newline? text = none := by
  have hfound := h default
  rw [lineBreak, found_orElse, Option.or_eq_none_iff] at hfound
  have htake := hfound.2
  rw [newline, found_take] at htake
  exact Option.map_eq_none_iff.mp htake

/-- Line ends with blanks and comments between them lead up to `start`. -/
inductive Breaks (start : List Char) : List Char → Prop
  | last {more : List Char} : skipBlanks more = start → Breaks start ('\n' :: more)
  | again {more : List Char} : Breaks start (skipBlanks more) → Breaks start ('\n' :: more)

theorem Breaks.length_lt (h : Breaks start text) : start.length < text.length := by
  induction h with
  | @last more heq =>
      have hle := length_skipBlanks_le more
      rw [heq] at hle
      exact Nat.lt_succ_of_le hle
  | @again more _ ih =>
      have hle := length_skipBlanks_le more
      exact Nat.lt_succ_of_le (Nat.le_trans (Nat.le_of_lt ih) hle)

theorem reads_newline (rest : List Char) : Reads newline mode ('\n' :: rest) rest fun _ => True :=
  Reads.take (by rfl : newline? ('\n' :: rest) = some 1)

theorem reads_lineBreak (rest : List Char) :
    Reads lineBreak mode ('\n' :: rest) rest fun _ => True :=
  .orElse_right (refuses_mark rfl (head?_ne rfl (by decide))) (reads_newline rest)

section

variable {ender : Parser Unit}
  (hender : ∀ rest, Reads ender .spaced ('\n' :: rest) rest fun _ => True)
  (hrefuses : Refuses ender .spaced start)

include hender hrefuses

theorem Breaks.rounds (h : Breaks start text) :
    ∃ more accepts last, text = '\n' :: more ∧
      Rounds (do gap; ender) .spaced more accepts last ∧ skipBlanks last = start := by
  induction h with
  | @last more heq =>
      have hgap := reads_gap more
      rw [heq] at hgap
      exact ⟨more, [], more, rfl, .stop (Refuses.bind hgap fun _ _ => hrefuses), heq⟩
  | @again more _ ih =>
      obtain ⟨next, accepts, last, heq, hrounds, hlast⟩ := ih
      have hgap := reads_gap more
      rw [heq] at hgap
      have hround : Reads (do gap; ender) .spaced more next fun _ => True :=
        hgap.bind fun _ _ => hender next
      have hle := length_skipBlanks_le more
      rw [heq, List.length_cons] at hle
      exact ⟨more, _, last, rfl, .step hround (by omega) hrounds, hlast⟩

theorem Breaks.reads_atLeastOnce (h : Breaks start text) (hsolid : skipBlanks start = start) :
    ∃ last, skipBlanks last = start ∧
      Reads (atLeastOnce ender) .spaced text last fun _ => True := by
  cases h with
  | @last more heq =>
      have hgap := reads_gap more
      rw [heq] at hgap
      refine ⟨start, hsolid, ?_⟩
      refine (hender more).bind fun _ _ => hgap.bind fun _ _ => ?_
      have hnone := Reads.optional_none (hrefuses.bind_left (f := fun _ => skipMany do gap; ender))
      exact hnone.bind fun _ _ => (Reads.pure _).ignore
  | @again more hmore =>
      obtain ⟨next, accepts, last, heq, hrounds, hlast⟩ := hmore.rounds hender hrefuses
      have hgap := reads_gap more
      rw [heq] at hgap
      refine ⟨last, hlast, ?_⟩
      refine (hender more).bind fun _ _ => hgap.bind fun _ _ => ?_
      have hothers : Reads (do ender; skipMany do gap; ender) .spaced ('\n' :: next) last
          fun _ => True :=
        (hender next).bind fun _ _ => hrounds.skipMany
      exact hothers.optional_some.bind fun _ _ => (Reads.pure _).ignore

end

theorem Breaks.reads_separator (h : Breaks start text) (hstart : LineStart start) :
    ∃ last, skipBlanks last = start ∧ Reads separator .spaced text last fun _ => True :=
  h.reads_atLeastOnce reads_lineBreak (hstart.noBreak .spaced) hstart.solid

theorem Breaks.reads_newlines (h : Breaks start text) (hsolid : skipBlanks start = start)
    (hline : newline? start = none) :
    ∃ last, skipBlanks last = start ∧ Reads newlines .spaced text last fun _ => True :=
  h.reads_atLeastOnce reads_newline (Refuses.take hline) hsolid

/-! ## Chunks -/

def onNewLine (spec : Parser α) : Parser α := do
  separator
  gap
  spec

/-- A text with the lines in front of a spec and the spec itself, behind which a line ends. -/
def Chunk (spec : Parser α) (text : List Char) (accept : α → Prop) : Prop :=
  ∀ rest, ∃ start, Breaks start ('\n' :: (text ++ rest)) ∧ LineStart start ∧
    Reads spec .spaced start ('\n' :: rest) accept

theorem Chunk.weaken {text : List Char} {accept weaker : α → Prop} (h : Chunk spec text accept)
    (himp : ∀ value, accept value → weaker value) : Chunk spec text weaker := by
  intro rest
  obtain ⟨start, hbreaks, hstart, hspec⟩ := h rest
  exact ⟨start, hbreaks, hstart, hspec.weaken himp⟩

theorem reads_onNewLine {accept : α → Prop} (h : Breaks start text) (hstart : LineStart start)
    (hspec : Reads spec .spaced start rest accept) :
    Reads (onNewLine spec) .spaced text rest accept := by
  obtain ⟨last, hlast, hseparator⟩ := h.reads_separator hstart
  have hgap := reads_gap last
  rw [hlast] at hgap
  exact hseparator.bind fun _ _ => hgap.bind fun _ _ => hspec

theorem skipBlanks_newline (rest : List Char) : skipBlanks ('\n' :: rest) = '\n' :: rest :=
  skipBlanks_of_isSolid (by decide) rest

theorem chunk_line {line : List Char} {accept : α → Prop}
    (hstart : ∀ rest, LineStart (line ++ rest))
    (hspec : ∀ rest, Reads spec .spaced (line ++ '\n' :: rest) ('\n' :: rest) accept) :
    Chunk spec ('\t' :: (line ++ ['\n'])) accept := by
  intro rest
  refine ⟨line ++ '\n' :: rest, .last ?_, hstart _, hspec rest⟩
  rw [List.cons_append, skipBlanks_tab, List.append_assoc]
  exact (hstart _).solid

end GoTrace.Grammar
