import GoTrace.Proofs.Grammar.Lines

/-!
# The first word of a text

What kind of declaration comes next is said by the word behind the line ends, semicolons, blanks and
comments at the front of a text. There a separator ends, and a block of lines is read up to it.
-/

namespace GoTrace.Lexeme

/-- The text behind the line ends, semicolons, blanks and comments at its front. -/
def behindBreaks (text : List Char) : List Char :=
  match _hskip : skipBlanks text with
  | [] => []
  | c :: rest => if c = ';' || isLineEnd c then behindBreaks rest else c :: rest
termination_by text.length
decreasing_by
  have hle := length_skipBlanks_le text
  rw [_hskip, List.length_cons] at hle
  omega

/-- The first word of a text, if it begins with one. -/
def firstWord (text : List Char) : List Char := wordAhead (behindBreaks text)

theorem behindBreaks_of_nil {text : List Char} (h : skipBlanks text = []) : behindBreaks text = [] := by
  rw [behindBreaks]
  split
  · rfl
  · rename_i heq
    rw [h] at heq
    cases heq

theorem behindBreaks_of_cons {text rest : List Char} {c : Char} (h : skipBlanks text = c :: rest) :
    behindBreaks text = if c = ';' || isLineEnd c then behindBreaks rest else c :: rest := by
  rw [behindBreaks]
  split
  · rename_i heq
    rw [h] at heq
    cases heq
  · rename_i heq
    rw [h] at heq
    cases heq
    rfl

theorem behindBreaks_congr {text other : List Char} (h : skipBlanks text = skipBlanks other) :
    behindBreaks text = behindBreaks other := by
  cases heq : skipBlanks other with
  | nil => rw [behindBreaks_of_nil (h.trans heq), behindBreaks_of_nil heq]
  | cons c rest => rw [behindBreaks_of_cons (h.trans heq), behindBreaks_of_cons heq]

@[simp] theorem behindBreaks_nil : behindBreaks [] = [] := behindBreaks_of_nil skipBlanks_nil

theorem behindBreaks_skipBlanks (text : List Char) :
    behindBreaks (skipBlanks text) = behindBreaks text :=
  behindBreaks_congr (skipBlanks_skipBlanks text)

theorem length_behindBreaks_le (text : List Char) : (behindBreaks text).length ≤ text.length := by
  have hle := length_skipBlanks_le text
  fun_induction behindBreaks text with
  | case1 => exact Nat.zero_le _
  | case2 text c rest hskip hc ih =>
      have hrest := ih (length_skipBlanks_le rest)
      rw [hskip, List.length_cons] at hle
      omega
  | case3 text c rest hskip hc => rwa [← hskip]

end GoTrace.Lexeme

namespace GoTrace.Grammar

open GoTrace.Lexeme GoTrace.Parser

variable {mode : Mode} {text rest : List Char} {c : Char}

theorem isBreak_cases (h : (c = ';' || isLineEnd c) = true) : c = ';' ∨ c = '\n' ∨ c = '\r' := by
  simpa [isLineEnd, or_assoc] using h

theorem skipBlanks_break (h : (c = ';' || isLineEnd c) = true) (rest : List Char) :
    skipBlanks (c :: rest) = c :: rest := by
  refine skipBlanks_of_isSolid ?_ rest
  rcases isBreak_cases h with rfl | rfl | rfl <;> decide

theorem behindBreaks_break (h : (c = ';' || isLineEnd c) = true) (rest : List Char) :
    behindBreaks (c :: rest) = behindBreaks rest := by
  rw [behindBreaks_of_cons (skipBlanks_break h rest), if_pos h]

/-- What ends a line is taken, a carriage return together with the line feed behind it. -/
theorem exists_reads_lineBreak (h : (c = ';' || isLineEnd c) = true) (rest : List Char) :
    ∃ behind, Reads lineBreak mode (c :: rest) behind (fun _ => True) ∧ behind.length ≤ rest.length ∧
      behindBreaks behind = behindBreaks (c :: rest) := by
  rw [behindBreaks_break h]
  rcases isBreak_cases h with rfl | rfl | rfl
  · exact ⟨rest, .orElse_left (Reads.literal ";" rest), Nat.le_refl _, rfl⟩
  · exact ⟨rest, reads_lineBreak rest, Nat.le_refl _, rfl⟩
  · have hsemicolon (rest : List Char) : Refuses (literal ";") mode ('\r' :: rest) :=
      Refuses.literal rfl
    have hreturn {rest : List Char} (count : Nat) (hcount : newline? ('\r' :: rest) = some (count + 1)) :
        Reads lineBreak mode ('\r' :: rest) (rest.drop count) fun _ => True :=
      .orElse_right (hsemicolon rest) (Reads.take hcount)
    by_cases hfeed : rest.head? = some '\n'
    · obtain ⟨tail, rfl⟩ := List.head?_eq_some_iff.mp hfeed
      exact ⟨tail, hreturn 1 rfl, Nat.le_succ _, (behindBreaks_break (by decide) tail).symm⟩
    · refine ⟨rest, hreturn 0 ?_, Nat.le_refl _, rfl⟩
      unfold newline?
      split <;> simp_all

theorem refuses_lineBreak (h : ∀ c rest, text = c :: rest → (c = ';' || isLineEnd c) = false) :
    Refuses lineBreak mode text := by
  cases text with
  | nil => exact .orElse (Refuses.literal rfl) (Refuses.take rfl)
  | cons c rest =>
      have hc := h c rest rfl
      simp only [isLineEnd, Bool.or_eq_false_iff, decide_eq_false_iff_not] at hc
      refine .orElse (refuses_mark rfl (head?_ne rfl hc.1)) (Refuses.take ?_)
      unfold newline?
      split <;> simp_all

/-- A text goes on with something that ends a line, or it begins behind its blanks. -/
theorem behindBreaks_cases (text : List Char) :
    (∃ c rest, skipBlanks text = c :: rest ∧ (c = ';' || isLineEnd c) = true) ∨
      (∀ mode, Refuses lineBreak mode (skipBlanks text)) ∧ behindBreaks text = skipBlanks text := by
  cases hskip : skipBlanks text with
  | nil => exact .inr ⟨fun _ => refuses_lineBreak nofun, behindBreaks_of_nil hskip⟩
  | cons c rest =>
      cases hc : (c = ';' || isLineEnd c : Bool) with
      | true => exact .inl ⟨c, rest, rfl, hc⟩
      | false =>
          refine .inr ⟨fun _ => refuses_lineBreak fun d tail heq => ?_, ?_⟩
          · cases heq
            exact hc
          · rw [behindBreaks_of_cons hskip, hc]
            rfl

theorem rounds_lineBreak (text : List Char) :
    ∃ accepts last, Rounds (do gap; lineBreak) .spaced text accepts last ∧
      skipBlanks last = behindBreaks text := by
  induction hlength : text.length using Nat.strongRecOn generalizing text with
  | ind length ih =>
  have hgap := reads_gap text
  obtain ⟨c, rest, hskip, hc⟩ | ⟨hrefuses, hbehind⟩ := behindBreaks_cases text
  · obtain ⟨behind, hreads, hle, heq⟩ := exists_reads_lineBreak hc rest
    have hlt := length_skipBlanks_le text
    rw [hskip, List.length_cons] at hlt
    obtain ⟨accepts, last, hrounds, hlast⟩ := ih behind.length (by omega) behind rfl
    rw [hskip] at hgap
    refine ⟨_, last, .step (hgap.bind fun _ _ => hreads) (by omega) hrounds, ?_⟩
    rw [hlast, heq, ← hskip]
    exact behindBreaks_congr (skipBlanks_skipBlanks text)
  · exact ⟨[], text, .stop (Refuses.bind hgap fun _ _ => hrefuses _), hbehind.symm⟩

theorem exists_reads_separator (h : (c = ';' || isLineEnd c) = true) (rest : List Char) :
    ∃ last, Reads separator .spaced (c :: rest) last (fun _ => True) ∧
      skipBlanks last = behindBreaks (c :: rest) := by
  obtain ⟨middle, hfirst, -, heq⟩ := exists_reads_lineBreak h rest
  have hgap := reads_gap middle
  rw [← heq]
  obtain ⟨d, tail, hskip, hd⟩ | ⟨hrefuses, hbehind⟩ := behindBreaks_cases middle
  · obtain ⟨behind, hsecond, -, heq'⟩ := exists_reads_lineBreak hd tail
    obtain ⟨accepts, last, hrounds, hlast⟩ := rounds_lineBreak behind
    rw [hskip] at hgap
    refine ⟨last, ?_, ?_⟩
    · refine hfirst.bind fun _ _ => hgap.bind fun _ _ => ?_
      have hothers : Reads (do lineBreak; skipMany do gap; lineBreak) .spaced (d :: tail) last
          fun _ => True :=
        hsecond.bind fun _ _ => hrounds.skipMany
      exact hothers.optional_some.bind fun _ _ => (Reads.pure _).ignore
    · rw [hlast, heq', ← hskip]
      exact behindBreaks_congr (skipBlanks_skipBlanks middle)
  · refine ⟨skipBlanks middle, ?_, by rw [skipBlanks_skipBlanks, hbehind]⟩
    refine hfirst.bind fun _ _ => hgap.bind fun _ _ => ?_
    have hnone := Reads.optional_none
      ((hrefuses .spaced).bind_left (f := fun _ => skipMany do gap; lineBreak))
    exact hnone.bind fun _ _ => (Reads.pure _).ignore

theorem LineStart.behindBreaks_eq (h : LineStart text) : behindBreaks text = text := by
  obtain ⟨c, rest, hskip, hc⟩ | ⟨-, heq⟩ := behindBreaks_cases text
  · obtain ⟨behind, hreads, -⟩ :
        ∃ behind, Reads lineBreak .spaced (c :: rest) behind (fun _ => True) ∧
          behind.length ≤ rest.length ∧ behindBreaks behind = behindBreaks (c :: rest) :=
      exists_reads_lineBreak hc rest
    obtain ⟨found, hfound, -⟩ := hreads default
    rw [← hskip, h.solid, h.noBreak .spaced default] at hfound
    cases hfound
  · rw [heq, h.solid]

theorem Breaks.behindBreaks_eq {start : List Char} (h : Breaks start text) (hstart : LineStart start) :
    behindBreaks text = start := by
  induction h with
  | last hskip =>
      rw [behindBreaks_break (by decide), ← behindBreaks_skipBlanks, hskip, hstart.behindBreaks_eq]
  | again _ ih => rw [behindBreaks_break (by decide), ← behindBreaks_skipBlanks, ih]

theorem exists_reads_optional_separator (text : List Char) :
    ∃ last, Reads (optional separator) .spaced (skipBlanks text) last (fun _ => True) ∧
      skipBlanks last = behindBreaks text := by
  obtain ⟨c, rest, hskip, hc⟩ | ⟨hrefuses, hbehind⟩ := behindBreaks_cases text
  · obtain ⟨last, hseparator, hlast⟩ := exists_reads_separator hc rest
    rw [hskip]
    refine ⟨last, hseparator.optional_some.ignore, ?_⟩
    rw [hlast, ← hskip]
    exact behindBreaks_congr (skipBlanks_skipBlanks text)
  · refine ⟨skipBlanks text, ?_, by rw [skipBlanks_skipBlanks, hbehind]⟩
    exact (Reads.optional_none (hrefuses .spaced).bind_left).ignore

/-! ## Lines -/

section

variable {α : Type} {spec : Parser α} {accept : α → Prop} {accepts : List (α → Prop)}
  {lines : List (List Char)}

/-- A line ends at `text`, and the first word behind it is that of `rest`. -/
structure EndsLine (text rest : List Char) : Prop where
  exists_break : ∃ c tail, skipBlanks text = c :: tail ∧ (c = ';' || isLineEnd c) = true
  first : behindBreaks text = behindBreaks rest

theorem endsLine_break (h : (c = ';' || isLineEnd c) = true) (rest : List Char) :
    EndsLine (c :: rest) rest where
  exists_break := ⟨c, rest, skipBlanks_break h rest, h⟩
  first := behindBreaks_break h rest

theorem endsLine_newline (rest : List Char) : EndsLine ('\n' :: rest) rest :=
  endsLine_break (by decide) rest

theorem EndsLine.blanks (h : EndsLine text rest) : EndsLine (skipBlanks text) rest where
  exists_break := by simpa only [skipBlanks_skipBlanks] using h.exists_break
  first := (behindBreaks_skipBlanks text).trans h.first

theorem EndsLine.length_lt (h : EndsLine text rest) : (behindBreaks rest).length < text.length := by
  obtain ⟨c, tail, hskip, hc⟩ := h.exists_break
  have hle := length_skipBlanks_le text
  have htail := length_behindBreaks_le tail
  rw [hskip, List.length_cons] at hle
  rw [← h.first, behindBreaks_of_cons hskip, if_pos hc]
  omega

theorem EndsLine.reads_onNewLine {last : List Char} (h : EndsLine text rest)
    (hspec : Reads spec .spaced (behindBreaks rest) last accept) :
    Reads (do gap; onNewLine spec) .spaced text last accept := by
  obtain ⟨c, tail, hskip, hc⟩ := h.exists_break
  obtain ⟨middle, hseparator, hmiddle⟩ := exists_reads_separator hc tail
  have hfirst := reads_gap text
  have hsecond := reads_gap middle
  rw [hskip] at hfirst
  rw [hmiddle, ← hskip, behindBreaks_skipBlanks, h.first] at hsecond
  exact hfirst.bind fun _ _ => hseparator.bind fun _ _ => hsecond.bind fun _ _ => hspec

theorem refuses_onNewLine_behindBreaks (h : Refuses spec .spaced (behindBreaks text)) :
    Refuses (do gap; onNewLine spec) .spaced text := by
  refine Refuses.bind (reads_gap text) fun _ _ => ?_
  obtain ⟨c, tail, hskip, hc⟩ | ⟨hrefuses, -⟩ := behindBreaks_cases text
  · obtain ⟨middle, hseparator, hmiddle⟩ := exists_reads_separator hc tail
    have hgap := reads_gap middle
    rw [hmiddle, ← hskip, behindBreaks_skipBlanks] at hgap
    rw [hskip]
    exact Refuses.bind hseparator fun _ _ => Refuses.bind hgap fun _ _ => h
  · exact (hrefuses .spaced).bind_left.bind_left

theorem rounds_stop (h : Refuses spec .spaced (behindBreaks text)) :
    Rounds (do gap; onNewLine spec) .spaced text [] text :=
  .stop (refuses_onNewLine_behindBreaks h)

/-- A text with the lines in front of a spec, the spec, and the end of its line. -/
def Line (spec : Parser α) (line : List Char) (accept : α → Prop) : Prop :=
  ∀ more, ∃ rest, Reads spec .spaced (behindBreaks (line ++ more)) rest accept ∧ EndsLine rest more

theorem Chunk.line {line : List Char} (h : Chunk spec line accept) : Line spec line accept := by
  intro more
  obtain ⟨start, hbreaks, hstart, hspec⟩ := h more
  have hfirst := hbreaks.behindBreaks_eq hstart
  rw [behindBreaks_break (by decide)] at hfirst
  exact ⟨'\n' :: more, by rwa [hfirst], endsLine_newline more⟩

theorem rounds_lines [Advances spec] (h : List.Forall₂ (Line spec) lines accepts)
    (hrest : Refuses spec .spaced (behindBreaks rest)) (htext : EndsLine text (lines.flatten ++ rest)) :
    ∃ last, Rounds (do gap; onNewLine spec) .spaced text accepts last ∧ EndsLine last rest := by
  induction h generalizing text with
  | nil =>
      exact ⟨text, rounds_stop (by rwa [htext.first]), htext⟩
  | @cons line accept lines accepts hline _ ih =>
      rw [List.flatten_cons, List.append_assoc] at htext
      obtain ⟨middle, hspec, hmiddle⟩ := hline (lines.flatten ++ rest)
      obtain ⟨last, hrounds, hlast⟩ := ih hmiddle
      have hshorter := Nat.lt_of_le_of_lt hspec.length_le htext.length_lt
      exact ⟨last, .step (htext.reads_onNewLine hspec) hshorter hrounds, hlast⟩

theorem reads_block [Advances spec] {opening closing : String} {first last : Char}
    (hopening : opening.toList = [first]) (hclosing : closing.toList = [last])
    (h : List.Forall₂ (Line spec) lines accepts) (hne : lines ≠ [])
    (hstart : LineStart (last :: rest)) (hrefuses : Refuses spec .spaced (last :: rest)) :
    Reads (block opening closing spec) .spaced
      (first :: '\n' :: (lines.flatten ++ last :: rest)) rest (Meets accepts) := by
  cases h with
  | nil => exact absurd rfl hne
  | @cons line accept lines accepts hline hlines =>
      obtain ⟨start, hseparator, hfirst⟩ :=
        exists_reads_separator (c := '\n') (by decide) ((line :: lines).flatten ++ last :: rest)
      rw [behindBreaks_break (by decide), List.flatten_cons, List.append_assoc] at hfirst
      obtain ⟨middle, hspec, hmiddle⟩ := hline (lines.flatten ++ last :: rest)
      rw [← hstart.behindBreaks_eq] at hrefuses
      obtain ⟨behind, hrounds, hbehind⟩ := rounds_lines hlines hrefuses hmiddle.blanks
      obtain ⟨close, hends, hclose⟩ := exists_reads_optional_separator behind
      rw [hbehind.first, hstart.behindBreaks_eq] at hclose
      have hgap := reads_gap start
      have hgap' := reads_gap close
      rw [hfirst] at hgap
      rw [hclose] at hgap'
      have hspecs : Reads (do
          let first ← spec
          gap
          let others ← repeated (onNewLine spec)
          return first :: others) .spaced (behindBreaks (line ++ (lines.flatten ++ last :: rest))) behind
            (Meets (accept :: accepts)) := by
        refine hspec.bind fun value hvalue => (reads_gap middle).bind fun _ _ => ?_
        refine (reads_repeated hrounds (skipBlanks_skipBlanks middle)).bind fun values hvalues => ?_
        refine (Reads.pure _).weaken fun all hall => ?_
        rw [hall]
        exact .cons hvalue hvalues
      rw [List.flatten_cons, List.append_assoc] at hseparator ⊢
      refine (reads_mark hopening _).bind fun _ _ => ?_
      refine (reads_gap_none (skipBlanks_newline _)).bind fun _ _ => ?_
      refine hseparator.optional_some.bind fun _ _ => hgap.bind fun _ _ => ?_
      refine hspecs.optional_some.bind fun specs hspecs => (reads_gap behind).bind fun _ _ => ?_
      refine hends.bind fun _ _ => hgap'.bind fun _ _ => ?_
      refine (reads_mark hclosing rest).bind fun _ _ => (Reads.pure _).weaken fun all hall => ?_
      obtain ⟨values, rfl, hvalues⟩ := hspecs
      rw [hall]
      exact hvalues

theorem refuses_block {opening closing : String} {first last : Char}
    (hopening : opening.toList = [first]) (hclosing : closing.toList = [last])
    (hrefuses : Refuses spec .spaced (behindBreaks text)) (hstart : LineStart (behindBreaks text))
    (hlast : (behindBreaks text).head? ≠ some last) :
    Refuses (block opening closing spec) .spaced (first :: text) := by
  obtain ⟨middle, hseparator, hmiddle⟩ := exists_reads_optional_separator text
  have hgap := reads_gap middle
  have hnone := reads_gap_none hstart.solid
  rw [hmiddle] at hgap
  refine Refuses.bind (reads_mark hopening text) fun _ _ => ?_
  refine Refuses.bind (reads_gap text) fun _ _ => Refuses.bind hseparator fun _ _ => ?_
  refine Refuses.bind hgap fun _ _ => ?_
  refine Refuses.bind (Reads.optional_none hrefuses.bind_left) fun _ _ => ?_
  refine Refuses.bind hnone fun _ _ => ?_
  refine Refuses.bind (Reads.optional_none (hstart.noBreak .spaced).bind_left) fun _ _ => ?_
  refine Refuses.bind hnone fun _ _ => ?_
  exact (refuses_mark (by rw [hclosing]; rfl) hlast).bind_left

end

end GoTrace.Grammar
