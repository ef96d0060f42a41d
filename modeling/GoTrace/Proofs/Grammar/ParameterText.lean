import GoTrace.Proofs.Grammar.Lines
import GoTrace.Proofs.Grammar.Unnamed

/-!
# Where lists of parameters are read

The texts of a list in parentheses are read one by one, whatever form each of them has. What follows
a text is part of what it is read from: a name alone is read differently before a comma than before
a type.
-/

namespace GoTrace.Grammar

open GoTrace.Lexeme GoTrace.Parser

variable {parser : Parser TypeExpr} {rest : List Char}

theorem isIdentifier_lineStart {name : String} (h : IsIdentifier name) (rest : List Char) :
    LineStart (name.toList ++ rest) := by
  obtain ⟨c, tail, heq, hstart⟩ := h.exists_cons
  rw [heq]
  refine lineStart_cons (Descriptor.isSolid_of_isIdentStart hstart) ?_ _
  intro hmem
  simp only [List.mem_cons, List.not_mem_nil, or_false] at hmem
  rcases hmem with rfl | rfl | rfl
  · exact absurd hstart (by decide)
  · exact absurd hstart (by decide)
  · exact absurd hstart (by decide)

/-- Blanks lead up to `start`, or line ends with blanks between them. -/
def Leads (start text : List Char) : Prop :=
  skipBlanks text = start ∨ Breaks start (skipBlanks text)

theorem Leads.reads_newlines {start text : List Char} (h : Leads start text)
    (hsolid : skipBlanks start = start) (hline : newline? start = none) :
    ∃ last, skipBlanks last = start ∧
      Reads (optional newlines) .spaced (skipBlanks text) last fun _ => True := by
  rcases h with hblanks | hbreaks
  · rw [hblanks]
    exact ⟨start, hsolid, (Reads.optional_none (refuses_newlines hline)).ignore⟩
  · obtain ⟨last, hlast, hread⟩ := hbreaks.reads_newlines hsolid hline
    exact ⟨last, hlast, hread.optional_some.ignore⟩

section

variable {α : Type} {p : Parser α} {start text middle : List Char} (hlead : Leads start text)
  (hsolid : skipBlanks start = start) (hline : newline? start = none)

include hlead hsolid hline

theorem reads_lead {accept : α → Prop} (h : Reads p .spaced start middle accept) :
    Reads (do
      gap
      let _ ← optional newlines
      gap
      p) .spaced text middle accept := by
  obtain ⟨last, rfl, hnewlines⟩ := hlead.reads_newlines hsolid hline
  exact (reads_gap text).bind fun _ _ => hnewlines.bind fun _ _ => (reads_gap last).bind fun _ _ => h

theorem refuses_lead (h : Refuses p .spaced start) :
    Refuses (do
      gap
      let _ ← optional newlines
      gap
      p) .spaced text := by
  obtain ⟨last, rfl, hnewlines⟩ := hlead.reads_newlines hsolid hline
  exact Refuses.bind (reads_gap text) fun _ _ => Refuses.bind hnewlines fun _ _ =>
    Refuses.bind (reads_gap last) fun _ _ => h

end

theorem reads_nextParameter {start text middle : List Char} {accept : Field → Prop}
    (hlead : Leads start text) (hsolid : skipBlanks start = start) (hline : newline? start = none)
    (hread : Reads (parameterDecl parser) .spaced start middle accept) :
    Reads (nextParameter parser) .spaced (',' :: text) middle accept :=
  (reads_mark rfl text).bind fun _ _ => reads_lead hlead hsolid hline hread

/-- A list of parameters is read one by one, in front of a comma or none and line ends or none. -/
theorem reads_parameters_cons {start text middle last tail : List Char} {accept : Field → Prop}
    {accepts : List (Field → Prop)} (hlead : Leads start text) (hsolid : skipBlanks start = start)
    (hline : newline? start = none)
    (hfirst : Reads (parameterDecl parser) .spaced start middle accept)
    (hothers : Rounds (do gap; nextParameter parser) .spaced (skipBlanks middle) accepts last)
    (hcomma : Reads (optional (mark ",")) .spaced (skipBlanks last) tail fun _ => True)
    (hclose : Leads (')' :: rest) tail) :
    Reads (parameters parser) .spaced ('(' :: text) rest (Meets (accept :: accepts)) := by
  have hfields : Reads (do
      let first ← parameterDecl parser
      gap
      let others ← repeated (nextParameter parser)
      gap
      let _ ← optional (mark ",")
      return first :: others) .spaced start tail (Meets (accept :: accepts)) := by
    refine hfirst.bind fun first hfirst => (reads_gap middle).bind fun _ _ => ?_
    refine (reads_repeated hothers (skipBlanks_skipBlanks middle)).bind fun others hothers => ?_
    refine (reads_gap last).bind fun _ _ => hcomma.bind fun _ _ => ?_
    refine (Reads.pure _).weaken fun fields hfields => ?_
    rw [hfields]
    exact .cons hfirst hothers
  refine Reads.rule ((reads_mark rfl text).bind fun _ _ => reads_lead hlead hsolid hline ?_)
  refine hfields.optional_some.bind fun fields hfields => ?_
  obtain ⟨found, rfl, hfound⟩ := hfields
  refine reads_lead hclose (skipBlanks_of_isSolid (by decide) rest) rfl ?_
  refine (reads_mark rfl rest).bind fun _ _ => ?_
  exact (Reads.pure _).weaken fun fields hfields => by rwa [hfields]

theorem reads_parameters_closed {text middle last : List Char} {accept : Field → Prop}
    {accepts : List (Field → Prop)} (hsolid : skipBlanks text = text) (hline : newline? text = none)
    (hfirst : Reads (parameterDecl parser) .spaced text middle accept)
    (hothers : Rounds (do gap; nextParameter parser) .spaced (skipBlanks middle) accepts last)
    (hlast : skipBlanks last = ')' :: rest) :
    Reads (parameters parser) .spaced ('(' :: text) rest (Meets (accept :: accepts)) := by
  have hcomma : Reads (optional (mark ",")) .spaced (skipBlanks last) (')' :: rest)
      fun _ => True := by
    rw [hlast]
    exact (Reads.optional_none (refuses_mark rfl (head?_ne rfl (by decide)))).weaken
      fun _ _ => trivial
  exact reads_parameters_cons (.inl hsolid) hsolid hline hfirst hothers hcomma
    (.inl (skipBlanks_of_isSolid (by decide) rest))

/-- Each text of a list, in front of those behind it, is read as a parameter with its property. -/
inductive ReadsParameters (parser : Parser TypeExpr) (rest : List Char) :
    List (List Char) → List (Field → Prop) → Prop
  | nil : ReadsParameters parser rest [] []
  | cons {text middle : List Char} {texts : List (List Char)} {accept : Field → Prop}
      {accepts : List (Field → Prop)} :
      (∀ more, skipBlanks (text ++ more) = text ++ more) →
      (∀ more, newline? (text ++ more) = none) →
      Reads (parameterDecl parser) .spaced (text ++ listTail texts (')' :: rest)) middle accept →
      skipBlanks middle = listTail texts (')' :: rest) →
        ReadsParameters parser rest texts accepts →
          ReadsParameters parser rest (text :: texts) (accept :: accepts)

theorem ReadsParameters.rounds [Advances parser] {texts : List (List Char)}
    {accepts : List (Field → Prop)} (h : ReadsParameters parser rest texts accepts)
    {text : List Char} (htext : skipBlanks text = listTail texts (')' :: rest)) :
    ∃ last, Rounds (do gap; nextParameter parser) .spaced text accepts last ∧
      skipBlanks last = ')' :: rest := by
  induction h generalizing text with
  | nil =>
      have hgap := reads_gap text
      rw [htext] at hgap
      refine ⟨text, .stop ?_, htext⟩
      exact Refuses.bind hgap fun _ _ => (refuses_mark rfl (head?_ne rfl (by decide))).bind_left
  | @cons first middle texts accept accepts hskips hline hread hmiddle _ ih =>
      obtain ⟨last, hrounds, hlast⟩ := ih hmiddle
      have hgap := reads_gap text
      rw [htext] at hgap
      have hlead : Leads (first ++ listTail texts (')' :: rest))
          (' ' :: (first ++ listTail texts (')' :: rest))) :=
        .inl ((skipBlanks_space _).trans (hskips _))
      have hround : Reads (do gap; nextParameter parser) .spaced text middle accept :=
        hgap.bind fun _ _ => reads_nextParameter hlead (hskips _) (hline _) hread
      have hshorter : middle.length < text.length := by
        have hrest := hread.length_le
        have hskipped : (skipBlanks text).length ≤ text.length := by simp [skipBlanks]
        rw [htext, listTail] at hskipped
        simp only [List.length_cons] at hskipped
        omega
      exact ⟨last, .step hround hshorter hrounds, hlast⟩

theorem ReadsParameters.reads [Advances parser]
    (hrefuses : ∀ text, NoType text → Refuses parser .spaced text) {texts : List (List Char)}
    {accepts : List (Field → Prop)} (h : ReadsParameters parser rest texts accepts) :
    Reads (parameters parser) .spaced ('(' :: listText texts (')' :: rest)) rest
      (Meets accepts) := by
  cases h with
  | nil =>
      have hclose : NoType (')' :: rest) := (by decide : startsNoType ')' = true)
      refine (reads_parameters_nil (hrefuses _ hclose)).weaken fun fields hfields => ?_
      rw [hfields]
      exact .nil
  | @cons first middle texts accept accepts hskips hline hread hmiddle hothers =>
      obtain ⟨last, hrounds, hlast⟩ := hothers.rounds ((skipBlanks_skipBlanks middle).trans hmiddle)
      exact reads_parameters_closed (hskips _) (hline _) hread hrounds hlast

end GoTrace.Grammar
