import GoTrace.Proofs.Grammar.Initialiser
import GoTrace.Proofs.Grammar.Locality

/-!
# Texts that end by themselves

The text of one spec goes up to the end of a line, or a semicolon, that stands in no bracket, literal or
comment. Where all its brackets, literals and comments end, it is read the same whatever stands behind it.

There is one exception. The length of an array is taken as text, and its literals and comments are not
told from the rest of it: an opening mark in one of them opens a bracket, and where that ends depends on
the text behind. Between square brackets, literals and comments must be without such marks.
-/

namespace GoTrace.Grammar

open GoTrace.Lexeme GoTrace.Parser

/-- Whether square brackets are around a text, with nothing but braces in between. -/
def inSquares : List Char → Bool
  | '[' :: _ => true
  | '\x7b' :: marks => inSquares marks
  | _ => false

/-- A literal or comment has none of the marks that the length of an array is read by. Only types have
lengths. -/
def Unnoticed (zone : Zone) (marks text : List Char) : Prop :=
  zone ≠ .free → inSquares marks = true → ∀ c ∈ text, c ∉ ['(', '[', ']']

/-- Texts up to the end of a spec, in which all brackets, literals and comments end, behind the marks
`marks` of the brackets that are open, the last one first. Behind the end of the spec stand further line
ends, semicolons, blanks and comments, or nothing. -/
inductive Nested : Zone → List Char → List Char → Prop
  | ending {zone : Zone} {c : Char} {rest : List Char} :
      (c = ';' || isLineEnd c) = true → (∀ more, behindBreaks (rest ++ more) = behindBreaks more) →
        Nested zone [] (c :: rest)
  /-- A slash is a character by itself unless it starts a comment. -/
  | character {zone : Zone} {marks : List Char} {c : Char} {rest : List Char} :
      isUnmarked c = true → (c = '/' → rest.head? ≠ some '/' ∧ rest.head? ≠ some '*') →
        (marks = [] → (c = ';' || isLineEnd c) = false) → Nested zone marks rest →
          Nested zone marks (c :: rest)
  /-- Behind the mark for equality stand the values of constants. -/
  | equals {rest : List Char} : Nested .free [] rest → Nested .constant [] ('=' :: rest)
  | opening {zone : Zone} {marks : List Char} {first last : Char} {rest : List Char} :
      (first, last) ∈ groupMarks → Nested zone (first :: marks) rest → Nested zone marks (first :: rest)
  | closing {zone : Zone} {marks : List Char} {first last : Char} {rest : List Char} :
      (first, last) ∈ groupMarks → Nested zone marks rest → Nested zone (first :: marks) (last :: rest)
  | literal {zone : Zone} {marks : List Char} {quote : Char} {inside rest : List Char} :
      IsLiteral (quote :: inside) → Unnoticed zone marks inside → Nested zone marks rest →
        Nested zone marks (quote :: (inside ++ rest))
  | blockComment {zone : Zone} {marks inside rest : List Char} :
      ¬ ['*', '/'] <:+: inside → Unnoticed zone marks inside → Nested zone marks rest →
        Nested zone marks ('/' :: '*' :: (inside ++ '*' :: '/' :: rest))
  | lineComment {zone : Zone} {marks line rest : List Char} {c : Char} :
      line.all (!isLineEnd ·) = true → isLineEnd c = true → Unnoticed zone marks line →
        Nested zone marks (c :: rest) → Nested zone marks ('/' :: '/' :: (line ++ c :: rest))

/-! ## What stands in front -/

theorem isUnmarked_of_isLiteral {quote : Char} {inside : List Char} (h : IsLiteral (quote :: inside)) :
    isUnmarked quote = false := by
  cases h <;> decide

theorem isUnmarked_of_groupMarks {first last : Char} (h : (first, last) ∈ groupMarks) :
    isUnmarked first = false ∧ isUnmarked last = false := by
  rcases groupMarks_cases h with ⟨rfl, rfl⟩ | ⟨rfl, rfl⟩ | ⟨rfl, rfl⟩ <;> decide

theorem ne_of_isUnmarked {c d : Char} (hc : isUnmarked c = true) (hd : isUnmarked d = false) : c ≠ d := by
  rintro rfl
  exact absurd (hc.symm.trans hd) (by decide)

namespace Nested

variable {zone : Zone} {marks text rest : List Char} {c : Char}

theorem exists_cons (h : Nested zone marks text) : ∃ c rest, text = c :: rest := by
  cases h <;> exact ⟨_, _, rfl⟩

theorem toFree (h : Nested zone marks text) : Nested .free marks text := by
  induction h with
  | ending hbreak hrest => exact .ending hbreak hrest
  | character hc hslash hbreak _ ih => exact .character hc hslash hbreak ih
  | equals h _ =>
      exact .character (by decide) (fun heq => absurd heq (by decide)) (fun _ => by decide) h
  | opening hmarks _ ih => exact .opening hmarks ih
  | closing hmarks _ ih => exact .closing hmarks ih
  | literal hliteral _ _ ih => exact .literal hliteral (fun hfree => absurd rfl hfree) ih
  | blockComment hinside _ _ ih => exact .blockComment hinside (fun hfree => absurd rfl hfree) ih
  | lineComment hline hc _ _ ih => exact .lineComment hline hc (fun hfree => absurd rfl hfree) ih

theorem uncons (h : Nested zone marks (c :: rest)) (hc : isUnmarked c = true)
    (hbreak : marks = [] → (c = ';' || isLineEnd c) = false) (hslash : c ≠ '/') (hequals : c ≠ '=') :
    Nested zone marks rest := by
  cases h with
  | ending hbreak' _ => exact absurd (hbreak'.symm.trans (hbreak rfl)) (by decide)
  | character _ _ _ hrest => exact hrest
  | equals _ => exact absurd rfl hequals
  | opening hmarks _ => exact absurd rfl (ne_of_isUnmarked hc (isUnmarked_of_groupMarks hmarks).1)
  | closing hmarks _ => exact absurd rfl (ne_of_isUnmarked hc (isUnmarked_of_groupMarks hmarks).2)
  | literal hliteral _ _ => exact absurd rfl (ne_of_isUnmarked hc (isUnmarked_of_isLiteral hliteral))
  | blockComment _ _ _ => exact absurd rfl hslash
  | lineComment _ _ _ _ => exact absurd rfl hslash

theorem of_lineEnd {first : Char} (h : Nested zone (first :: marks) (c :: rest))
    (hc : isLineEnd c = true) : Nested zone (first :: marks) rest := by
  obtain ⟨hunmarked, hslash⟩ := isUnmarked_of_isLineEnd hc
  refine h.uncons hunmarked nofun hslash ?_
  rintro rfl
  exact absurd hc (by decide)

theorem of_break (h : Nested zone [] (c :: rest)) (hc : (c = ';' || isLineEnd c) = true)
    (more : List Char) : behindBreaks (rest ++ more) = behindBreaks more := by
  have hmark {d : Char} (hd : (d = ';' || isLineEnd d) = false) : c ≠ d := by
    rintro rfl
    exact absurd (hc.symm.trans hd) (by decide)
  cases h with
  | ending _ hrest => exact hrest more
  | character _ _ hbreak _ => exact absurd (hc.symm.trans (hbreak rfl)) (by decide)
  | equals _ => exact absurd rfl (hmark (by decide))
  | opening hmarks _ =>
      rcases groupMarks_cases hmarks with ⟨rfl, rfl⟩ | ⟨rfl, rfl⟩ | ⟨rfl, rfl⟩ <;>
        exact absurd hc (by decide)
  | literal hliteral _ _ => cases hliteral <;> exact absurd hc (by decide)
  | blockComment _ _ _ => exact absurd rfl (hmark (by decide))
  | lineComment _ _ _ _ => exact absurd rfl (hmark (by decide))

theorem of_equals (h : Nested zone [] ('=' :: rest)) : Nested zone.value [] rest := by
  cases h with
  | ending hbreak _ => exact absurd hbreak (by decide)
  | character _ _ _ hrest =>
      cases zone with
      | typed => exact hrest
      | constant => exact hrest.toFree
      | free => exact hrest
  | equals hrest => exact hrest
  | opening hmarks _ => exact absurd (isUnmarked_of_groupMarks hmarks).1 (by decide)
  | literal hliteral _ _ => exact absurd (isUnmarked_of_isLiteral hliteral) (by decide)

theorem of_opening {first last : Char} (h : Nested zone marks (first :: rest))
    (hmarks : (first, last) ∈ groupMarks) : Nested zone (first :: marks) rest := by
  have hfirst := (isUnmarked_of_groupMarks hmarks).1
  cases h with
  | ending hbreak _ =>
      rcases groupMarks_cases hmarks with ⟨rfl, rfl⟩ | ⟨rfl, rfl⟩ | ⟨rfl, rfl⟩ <;>
        exact absurd hbreak (by decide)
  | character hc _ _ _ => exact absurd (hc.symm.trans hfirst) (by decide)
  | equals _ => exact absurd hfirst (by decide)
  | opening _ hrest => exact hrest
  | closing hclosing _ =>
      rcases groupMarks_cases hmarks with ⟨rfl, rfl⟩ | ⟨rfl, rfl⟩ | ⟨rfl, rfl⟩ <;>
        simp [groupMarks] at hclosing
  | literal hliteral _ _ =>
      rcases groupMarks_cases hmarks with ⟨rfl, rfl⟩ | ⟨rfl, rfl⟩ | ⟨rfl, rfl⟩ <;> cases hliteral
  | blockComment _ _ _ => exact absurd hfirst (by decide)
  | lineComment _ _ _ _ => exact absurd hfirst (by decide)

theorem of_closing {first last : Char} (h : Nested zone (first :: marks) (last :: rest))
    (hmarks : (first, last) ∈ groupMarks) : Nested zone marks rest := by
  have hlast := (isUnmarked_of_groupMarks hmarks).2
  cases h with
  | character hc _ _ _ => exact absurd (hc.symm.trans hlast) (by decide)
  | opening hopening _ =>
      rcases groupMarks_cases hmarks with ⟨rfl, rfl⟩ | ⟨rfl, rfl⟩ | ⟨rfl, rfl⟩ <;>
        simp [groupMarks] at hopening
  | closing _ hrest => exact hrest
  | literal hliteral _ _ =>
      rcases groupMarks_cases hmarks with ⟨rfl, rfl⟩ | ⟨rfl, rfl⟩ | ⟨rfl, rfl⟩ <;> cases hliteral
  | blockComment _ _ _ => exact absurd hlast (by decide)
  | lineComment _ _ _ _ => exact absurd hlast (by decide)

/-! ## Blanks, signs and words -/

theorem isSolid_of_isUnmarked {c : Char} (h : isUnmarked c = false) : isSolid c = true := by
  by_contra hsolid
  rw [isSolid, Bool.not_eq_true', Bool.not_eq_false] at hsolid
  simp only [Bool.or_eq_true, decide_eq_true_eq] at hsolid
  rcases hsolid with ((rfl | rfl) | rfl) | rfl <;> exact absurd h (by decide)

theorem exists_blanks (h : Nested zone marks text) :
    ∃ front rest, text = front ++ rest ∧ Nested zone marks rest ∧
      ∀ more, blanks (text ++ more) = front.length := by
  have hsolid {zone : Zone} {marks rest : List Char} {c : Char} (h : Nested zone marks (c :: rest))
      (hc : isSolid c = true) : ∃ front behind, c :: rest = front ++ behind ∧ Nested zone marks behind ∧
        ∀ more, blanks (c :: rest ++ more) = front.length :=
    ⟨[], c :: rest, rfl, h, fun more => blanks_of_isSolid hc (rest ++ more)⟩
  induction h with
  | ending hbreak hrest =>
      refine hsolid (.ending hbreak hrest) ?_
      rcases isBreak_cases hbreak with rfl | rfl | rfl <;> decide
  | @character zone marks c rest hc hslash hbreak hrest ih =>
      by_cases hblank : c = ' ' ∨ c = '\t' ∨ c = '\uFEFF'
      · obtain ⟨front, behind, rfl, hbehind, hblanks⟩ := ih
        refine ⟨c :: front, behind, rfl, hbehind, fun more => ?_⟩
        rw [List.length_cons, ← hblanks more]
        rcases hblank with rfl | rfl | rfl <;> rw [List.cons_append, blanks]
      · by_cases heq : c = '/'
        · subst heq
          obtain ⟨d, behind, rfl⟩ := hrest.exists_cons
          have hd : d ≠ '/' ∧ d ≠ '*' := by simpa using hslash rfl
          refine ⟨[], _, rfl, .character hc hslash hbreak hrest, fun more => ?_⟩
          unfold blanks
          split <;> simp_all
        · refine hsolid (.character hc hslash hbreak hrest) ?_
          simp only [not_or] at hblank
          simp [isSolid, hblank, heq]
  | equals hrest => exact hsolid (.equals hrest) (by decide)
  | opening hmarks hrest _ =>
      exact hsolid (.opening hmarks hrest) (isSolid_of_isUnmarked (isUnmarked_of_groupMarks hmarks).1)
  | closing hmarks hrest _ =>
      exact hsolid (.closing hmarks hrest) (isSolid_of_isUnmarked (isUnmarked_of_groupMarks hmarks).2)
  | literal hliteral hnotice hrest _ =>
      exact hsolid (.literal hliteral hnotice hrest)
        (isSolid_of_isUnmarked (isUnmarked_of_isLiteral hliteral))
  | @blockComment zone marks inside rest hinside _ _ ih =>
      obtain ⟨front, behind, rfl, hbehind, hblanks⟩ := ih
      refine ⟨'/' :: '*' :: (inside ++ '*' :: '/' :: front), behind, by simp, hbehind, fun more => ?_⟩
      have hcomment := blanks_blockComment hinside (front ++ behind ++ more)
      rw [hblanks more] at hcomment
      simpa [Nat.add_assoc, Nat.add_comm, Nat.add_left_comm] using hcomment
  | @lineComment zone marks line rest c hline hc _ hrest _ =>
      refine ⟨'/' :: '/' :: line, c :: rest, rfl, hrest, fun more => ?_⟩
      have hcomment := blanks_lineComment hline hc (rest ++ more)
      simpa using hcomment

/-- A character that neither marks anything nor ends a line, and is no mark for equality. -/
def isInert (c : Char) : Bool :=
  !(['(', ')', '[', ']', '\x7b', '\x7d', '"', '\'', '\x60', '/', ';', '\n', '\r', '='].contains c)

theorem of_isInert (h : Nested zone marks (c :: rest)) (hc : isInert c = true) :
    Nested zone marks rest := by
  simp only [isInert, List.contains_eq_mem, List.mem_cons, List.not_mem_nil, or_false, Bool.not_eq_true',
    decide_eq_false_iff_not, not_or] at hc
  exact h.uncons (by simp [isUnmarked, hc]) (fun _ => by simp [isLineEnd, hc]) (by simp [hc])
    (by simp [hc])

theorem append {front : List Char} (h : front.all isInert = true)
    (hrest : Nested zone marks rest) : Nested zone marks (front ++ rest) := by
  induction front with
  | nil => exact hrest
  | cons c front ih =>
      rw [List.all_cons, Bool.and_eq_true] at h
      have hc := h.1
      simp only [isInert, List.contains_eq_mem, List.mem_cons, List.not_mem_nil, or_false,
        Bool.not_eq_true', decide_eq_false_iff_not, not_or] at hc
      exact .character (by simp [isUnmarked, hc]) (fun heq => absurd heq (by simp [hc]))
        (fun _ => by simp [isLineEnd, hc]) (ih h.2)

theorem isInert_of_isIdentChar {c : Char} (h : isIdentChar c = true) : isInert c = true := by
  have hmarks : (['(', ')', '[', ']', '\x7b', '\x7d', '"', '\'', '\x60', '/', ';', '\n', '\r', '='].all
      fun d => !isIdentChar d) = true := by decide
  rw [isInert, Bool.not_eq_true', List.contains_eq_mem, decide_eq_false_iff_not]
  intro hmem
  have hmark := List.all_eq_true.mp hmarks c hmem
  rw [Bool.not_eq_true'] at hmark
  exact isIdentChar_ne h hmark rfl

/-- Whether a text starts with characters that mark nothing is told from the text alone. -/
theorem isPrefixOf_cases (h : Nested zone marks text) {word : List Char}
    (hword : word.all isInert = true) :
    (∀ more, word.isPrefixOf (text ++ more) = false) ∨
      ∃ rest, text = word ++ rest ∧ Nested zone marks rest := by
  induction word generalizing text with
  | nil => exact .inr ⟨text, rfl, h⟩
  | cons c word ih =>
      rw [List.all_cons, Bool.and_eq_true] at hword
      obtain ⟨d, rest, rfl⟩ := h.exists_cons
      by_cases heq : c = d
      · subst heq
        obtain hnone | ⟨behind, rfl, hbehind⟩ := ih (h.of_isInert hword.1) hword.2
        · exact .inl fun more => by simp [hnone]
        · exact .inr ⟨behind, rfl, hbehind⟩
      · exact .inl fun more => by simp [List.isPrefixOf, heq]

theorem told_sign (h : Nested zone marks text) {word : String} (hword : word.toList.all isInert = true) :
    Told anyText (Nested zone marks)
      (fun text => if word.toList.isPrefixOf text then some word.toList.length else none) text := by
  obtain hnone | ⟨rest, rfl, hrest⟩ := h.isPrefixOf_cases hword
  · exact .inl fun more _ => by simp [hnone more]
  · exact .inr ⟨word.toList, rest, rfl, hrest, fun more _ => by simp⟩

theorem exists_word (h : Nested zone marks text) :
    ∃ rest, text = wordAhead text ++ rest ∧ Nested zone marks rest ∧
      ∀ more, wordAhead (text ++ more) = wordAhead text := by
  induction text with
  | nil => cases h
  | cons c text ih =>
      cases hc : isIdentChar c with
      | true =>
          obtain ⟨rest, heq, hrest, hahead⟩ := ih (h.of_isInert (isInert_of_isIdentChar hc))
          unfold wordAhead at heq hahead ⊢
          refine ⟨rest, by simp [hc, ← heq], hrest, fun more => ?_⟩
          simp [hc, hahead more]
      | false =>
          unfold wordAhead
          exact ⟨c :: text, by simp [hc], h, fun more => by simp [hc]⟩

theorem told_word (h : Nested zone marks text) (word : String) :
    Told anyText (Nested zone marks) (word? word) text := by
  obtain ⟨rest, heq, hrest, hahead⟩ := h.exists_word
  by_cases hword : wordAhead text = word.toList
  · refine .inr ⟨wordAhead text, rest, heq, hrest, fun more _ => ?_⟩
    rw [word?, hahead, if_pos hword, hword]
  · exact .inl fun more _ => by rw [word?, hahead, if_neg hword]

theorem told_identifier (h : Nested zone marks text) :
    Told anyText (Nested zone marks) identifier? text := by
  obtain ⟨rest, heq, hrest, hahead⟩ := h.exists_word
  have hidentifier (more : List Char) : identifier? (text ++ more) = identifier? text := by
    rw [← identifier?_wordAhead, hahead, identifier?_wordAhead]
  cases hcount : identifier? text with
  | none => exact .inl fun more _ => (hidentifier more).trans hcount
  | some count =>
      obtain ⟨-, -, -, -, -, rfl⟩ := exists_of_identifier? hcount
      exact .inr ⟨wordAhead text, rest, heq, hrest, fun more _ => (hidentifier more).trans hcount⟩

/-! ## Literals, line ends and groups -/

theorem exists_literal (h : Nested zone marks (c :: rest)) (hc : c ∈ ['"', '\'', '\x60']) :
    ∃ inside behind, rest = inside ++ behind ∧ IsLiteral (c :: inside) ∧ Nested zone marks behind := by
  have hquote : c = '"' ∨ c = '\'' ∨ c = '\x60' := by simpa using hc
  have hmark : isUnmarked c = false := by rcases hquote with rfl | rfl | rfl <;> decide
  have hgroup {first last : Char} (hmarks : (first, last) ∈ groupMarks) : c ≠ first ∧ c ≠ last := by
    rcases groupMarks_cases hmarks with ⟨rfl, rfl⟩ | ⟨rfl, rfl⟩ | ⟨rfl, rfl⟩ <;>
      rcases hquote with rfl | rfl | rfl <;> decide
  cases h with
  | ending hbreak _ => rcases hquote with rfl | rfl | rfl <;> exact absurd hbreak (by decide)
  | character hc _ _ _ => exact absurd (hc.symm.trans hmark) (by decide)
  | equals _ => exact absurd hmark (by decide)
  | opening hmarks _ => exact absurd rfl (hgroup hmarks).1
  | closing hmarks _ => exact absurd rfl (hgroup hmarks).2
  | literal hliteral _ hrest => exact ⟨_, _, rfl, hliteral, hrest⟩
  | blockComment _ _ _ => exact absurd hmark (by decide)
  | lineComment _ _ _ _ => exact absurd hmark (by decide)

theorem told_quoted (h : Nested zone marks text) :
    Told anyText (Nested zone marks) (quoted? '"') text := by
  obtain ⟨c, rest, rfl⟩ := h.exists_cons
  by_cases hc : c = '"'
  · subst hc
    obtain ⟨inside, behind, rfl, hliteral, hbehind⟩ := h.exists_literal (by simp)
    refine .inr ⟨'"' :: inside, behind, rfl, hbehind, fun more _ => ?_⟩
    cases hliteral with
    | string hinside =>
        have hquoted := quoted?_of_inside (by decide) hinside (behind ++ more)
        simpa using hquoted
  · exact .inl fun more _ => quoted?_of_head?_ne (head?_ne rfl hc)

theorem told_raw (h : Nested zone marks text) : Told anyText (Nested zone marks) raw? text := by
  obtain ⟨c, rest, rfl⟩ := h.exists_cons
  by_cases hc : c = '\x60'
  · subst hc
    obtain ⟨inside, behind, rfl, hliteral, hbehind⟩ := h.exists_literal (by simp)
    refine .inr ⟨'\x60' :: inside, behind, rfl, hbehind, fun more _ => ?_⟩
    cases hliteral with
    | raw hinside =>
        have hraw := raw?_of_notMem hinside (behind ++ more)
        simpa using hraw
  · refine .inl fun more _ => ?_
    unfold raw?
    split
    · rename_i heq
      exact absurd (List.cons.inj heq).1 hc
    · rfl

theorem told_newline {first : Char} (h : Nested zone (first :: marks) text) :
    Told anyText (Nested zone (first :: marks)) newline? text := by
  obtain ⟨c, rest, rfl⟩ := h.exists_cons
  by_cases hc : isLineEnd c = true
  · have hrest := h.of_lineEnd hc
    obtain ⟨d, behind, rfl⟩ := hrest.exists_cons
    have hline : c = '\n' ∨ c = '\r' := by simpa [isLineEnd] using hc
    by_cases hd : c = '\r' ∧ d = '\n'
    · obtain ⟨rfl, rfl⟩ := hd
      exact .inr ⟨['\r', '\n'], behind, rfl, hrest.of_lineEnd (by decide), fun more _ => rfl⟩
    · refine .inr ⟨[c], d :: behind, rfl, hrest, fun more _ => ?_⟩
      rcases hline with rfl | rfl
      · rfl
      · unfold newline?
        split <;> simp_all
  · exact .inl fun more _ => newline?_of_not_isLineEnd (by simpa using hc) (rest ++ more)

/-- An open bracket is closed further on, and what stands in it ends by itself. -/
theorem exists_group {first : Char} (h : Nested zone (first :: marks) text) :
    ∃ last inside rest, (first, last) ∈ groupMarks ∧ text = inside ++ last :: rest ∧ Delimited inside ∧
      Nested zone marks rest := by
  -- behind a bracket in the bracket the text is shorter, but it is not a part of the derivation
  induction hlength : text.length using Nat.strongRecOn generalizing first marks text with
  | ind length ih =>
  cases h with
  | @character _ _ c rest hc hslash _ hrest =>
      obtain ⟨last, inside, behind, hmarks, rfl, hinside, hbehind⟩ :=
        ih rest.length (by simp at hlength; omega) hrest rfl
      refine ⟨last, c :: inside, behind, hmarks, rfl, .character hc (fun heq => ?_) hinside, hbehind⟩
      cases inside with
      | nil => exact ⟨nofun, nofun⟩
      | cons d inside => exact hslash heq
  | @opening _ _ opening _ rest _ hrest =>
      obtain ⟨closing, inside, middle, hgroup, rfl, hinside, hmiddle⟩ :=
        ih rest.length (by simp at hlength; omega) hrest rfl
      obtain ⟨last, others, behind, hmarks, rfl, hothers, hbehind⟩ :=
        ih middle.length (by simp at hlength; omega) hmiddle rfl
      exact ⟨last, opening :: (inside ++ closing :: others), behind, hmarks, by simp,
        .group hgroup hinside hothers, hbehind⟩
  | closing hmarks hrest => exact ⟨_, [], _, hmarks, rfl, .nil, hrest⟩
  | @literal _ _ quote word rest hliteral _ hrest =>
      obtain ⟨last, inside, behind, hmarks, rfl, hinside, hbehind⟩ :=
        ih rest.length (by simp at hlength; omega) hrest rfl
      exact ⟨last, quote :: word ++ inside, behind, hmarks, by simp, .literal hliteral hinside, hbehind⟩
  | @blockComment _ _ comment rest hcomment _ hrest =>
      obtain ⟨last, inside, behind, hmarks, rfl, hinside, hbehind⟩ :=
        ih rest.length (by simp at hlength; omega) hrest rfl
      exact ⟨last, '/' :: '*' :: (comment ++ '*' :: '/' :: inside), behind, hmarks, by simp,
        .blockComment hcomment hinside, hbehind⟩
  | @lineComment _ _ line rest c hline hc _ hrest =>
      obtain ⟨last, inside, behind, hmarks, rfl, hinside, hbehind⟩ :=
        ih rest.length (by simp at hlength; omega) (hrest.of_lineEnd hc) rfl
      exact ⟨last, '/' :: '/' :: (line ++ c :: inside), behind, hmarks, by simp,
        .lineComment hline hc hinside, hbehind⟩

end Nested

/-! ## Values -/

section

variable {mode : Mode} {stops text rest : List Char}

theorem quoted?_bounds {mark : Char} {count : Nat} (h : quoted? mark text = some count) :
    0 < count ∧ count ≤ text.length := by
  obtain ⟨inside, rest, rfl, -, rfl⟩ := exists_inside_of_quoted? h
  simp only [List.length_append, List.length_cons]
  omega

theorem raw?_bounds {count : Nat} (h : raw? text = some count) : 0 < count ∧ count ≤ text.length := by
  obtain ⟨raw, rest, rfl, rfl⟩ := exists_raw_of_raw? h
  simp only [List.length_append, List.length_cons]
  omega

theorem one?_bounds {accepts : Char → Bool} {count : Nat} (h : one? accepts text = some count) :
    0 < count ∧ count ≤ text.length := by
  unfold one? at h
  split at h
  · rw [Option.ite_none_right_eq_some] at h
    cases h.2
    simp
  · cases h

theorem stringLiteral_spends : Spends stringLiteral fun _ => 1 := by
  have hquoted : Spends (take (quoted? '"')) fun _ => 1 := .take fun _ _ => quoted?_bounds
  have hraw : Spends (take raw?) fun _ => 1 := .take fun _ _ => raw?_bounds
  exact .tight (.rule (.captured (.orElse hquoted.rule hraw.rule) fun _ => Nat.le_refl _))

theorem bracketed_spends {inside : Parser Unit} [Advances inside] {opening closing : String}
    (h : opening ≠ "") : Spends (bracketed inside opening closing) fun _ => 1 :=
  .before (mark_spends h)

theorem initialPiece_spends : Spends (initialPiece stops) fun _ => 1 := by
  refine .orElse (.orElse (bracketed_spends (by decide)) (.orElse (bracketed_spends (by decide)) ?_)) ?_
  · refine .orElse (bracketed_spends (by decide)) (.orElse (.before stringLiteral_spends) ?_)
    exact .take fun _ _ => quoted?_bounds
  · refine .take fun text count h => ?_
    rw [Option.ite_none_left_eq_some] at h
    exact one?_bounds h.2

theorem lengthPiece_spends : Spends lengthPiece fun _ => 1 :=
  .orElse (bracketed_spends (by decide)) (.orElse (bracketed_spends (by decide))
    (.take fun _ _ => one?_bounds))

/-- Whether a piece stands in front of a part, and what it leaves of it, is told from the part alone.
Where there is none, the part satisfies `stopped`. -/
def ToldPiece (piece : Parser Unit) (mode : Mode) (whole stopped : List Char → Prop)
    (text : List Char) : Prop :=
  (stopped text ∧ ∀ more, Refuses piece mode (text ++ more)) ∨
    ∃ rest, whole rest ∧ rest.length ≤ text.length ∧
      ∀ more, Reads piece mode (text ++ more) (rest ++ more) fun _ => True

/-- Where each piece is told from the part alone, so is the text that the pieces make up. -/
theorem textOf_local {whole stopped : List Char → Prop} {size : Nat} {piece : Parser Unit}
    (h : ∀ text, whole text → ∀ mode, ToldPiece piece mode whole stopped text)
    (hspends : Spends piece fun _ => 1) :
    Local anyText size whole stopped (textOf piece) (textOf piece) := by
  have hpiece : Local anyText size whole whole piece piece := by
    refine .of_reads fun text htext mode => ?_
    obtain ⟨-, hrefuses⟩ | ⟨rest, hrest, hle, hreads⟩ := h text htext mode
    · exact .inl fun more _ => hrefuses more
    · exact .inr ⟨rest, hrest, hle, fun more _ => hreads more⟩
  refine .hidden (.captured (hpiece.after fun _ _ => hpiece.skipManyUntil hspends ?_))
  intro rest hrest mode first start _ hnone
  obtain ⟨hstopped, -⟩ | ⟨behind, -, -, hreads⟩ := h rest hrest mode
  · exact hstopped
  · obtain ⟨found, hfound, -⟩ := hreads first start
    rw [hnone] at hfound
    cases hfound

theorem notMem_startMarks_of_isUnmarked {c : Char} (h : isUnmarked c = true) : c ∉ startMarks := by
  have hmarks : (startMarks.all fun d => !isUnmarked d) = true := by decide
  intro hmem
  have hmark := List.all_eq_true.mp hmarks c hmem
  rw [Bool.not_eq_true'] at hmark
  exact ne_of_isUnmarked h hmark rfl

theorem refuses_initialPiece_stop {c : Char} (hstart : c ∉ startMarks) (hstop : c ∈ stops)
    (rest : List Char) : Refuses (initialPiece stops) mode (c :: rest) := by
  refine .orElse (refuses_enclosedWith (head?_ne_of_notMem hstart rest)) (Refuses.take ?_)
  simp [one?, hstop]

theorem refuses_initialPiece_comment {c : Char} (h : c = '/' ∨ c = '*') (rest : List Char) :
    Refuses (initialPiece stops) mode ('/' :: c :: rest) := by
  refine .orElse (refuses_enclosedWith (head?_ne_of_notMem (by decide) _)) (Refuses.take ?_)
  rcases h with rfl | rfl <;> simp

/-- Whether there is a further piece of a value, and where it ends, is told from the text alone. -/
theorem Nested.told_initialPiece (h : Nested .free [] text) (hstops : ';' ∈ stops) (mode : Mode) :
    ToldPiece (initialPiece stops) mode (Nested .free []) (Nested .free []) text := by
  cases h with
  | @ending _ c rest hbreak hrest =>
      refine .inl ⟨.ending hbreak hrest, fun more => ?_⟩
      rw [Bool.or_eq_true, decide_eq_true_eq] at hbreak
      rcases hbreak with rfl | hline
      · exact refuses_initialPiece_stop (by decide) hstops _
      · exact refuses_initialPiece hline _
  | @character _ _ c rest hc hslash hbreak hrest =>
      have hstart := notMem_startMarks_of_isUnmarked hc
      by_cases hstop : c ∈ stops
      · exact .inl ⟨.character hc hslash hbreak hrest,
          fun more => refuses_initialPiece_stop hstart hstop _⟩
      · have hline := (Bool.or_eq_false_iff.mp (hbreak rfl)).2
        refine .inr ⟨rest, hrest, by simp, fun more => ?_⟩
        obtain ⟨d, behind, rfl⟩ := hrest.exists_cons
        exact reads_initialPiece_character hstart hstop hline hslash
  | @opening _ _ first last rest _ hrest =>
      obtain ⟨last, inside, behind, hmarks, rfl, hinside, hbehind⟩ := hrest.exists_group
      refine .inr ⟨behind, hbehind, by simp; omega, fun more => ?_⟩
      have hbody : Reads groupInside mode _ _ _ :=
        reads_groupInside hinside (closing_of_groupMarks hmarks) (behind ++ more)
      rw [List.cons_append, List.append_assoc, List.cons_append]
      exact .orElse_left (reads_enclosedWith_group hmarks hbody)
  | @literal _ _ quote inside rest hliteral _ hrest =>
      refine .inr ⟨rest, hrest, by simp; omega, fun more => ?_⟩
      rw [List.cons_append, List.append_assoc, ← List.cons_append]
      exact .orElse_left (reads_enclosedWith_literal hliteral _)
  | blockComment hinside hnotice hrest =>
      exact .inl ⟨.blockComment hinside hnotice hrest,
        fun more => refuses_initialPiece_comment (.inr rfl) _⟩
  | lineComment hline hc hnotice hrest =>
      exact .inl ⟨.lineComment hline hc hnotice hrest,
        fun more => refuses_initialPiece_comment (.inl rfl) _⟩

/-! ## Lengths of arrays -/

/-- What may be left of the length of an array: the rest of a literal or comment that it takes no notice
of, and a text with nothing but braces open inside the square brackets. -/
def Loose (zone : Zone) (marks text : List Char) : Prop :=
  ∃ braces front rest, text = front ++ rest ∧ (∀ c ∈ front, c ∉ ['(', '[', ']']) ∧
    Nested zone (List.replicate braces '\x7b' ++ '[' :: marks) rest

/-- What the length of an array leaves: the text up to the closing mark, or the end of a line, at which
no closing mark is read. -/
def Stopped (zone : Zone) (marks text : List Char) : Prop :=
  Nested zone ('[' :: marks) text ∨ ∃ c rest, text = c :: rest ∧ isLineEnd c = true

theorem inSquares_replicate (braces : Nat) (marks : List Char) :
    inSquares (List.replicate braces '\x7b' ++ '[' :: marks) = true := by
  induction braces with
  | zero => rfl
  | succ braces ih => exact ih

theorem reads_lengthPiece_character {c : Char} (hc : c ∉ ['(', '[', ']']) (hline : isLineEnd c = false)
    (rest : List Char) : Reads lengthPiece mode (c :: rest) rest fun _ => True := by
  simp only [List.mem_cons, List.not_mem_nil, or_false, not_or] at hc
  refine .orElse_right (refuses_bracketed rfl (head?_ne rfl hc.1)) ?_
  refine .orElse_right (refuses_bracketed rfl (head?_ne rfl hc.2.1)) ?_
  change Reads (take _) mode (c :: rest) ((c :: rest).drop 1) _
  exact Reads.take (by simp [one?, hc, hline])

theorem refuses_lengthPiece {c : Char} (hc : c = ']' ∨ isLineEnd c = true) (rest : List Char) :
    Refuses lengthPiece mode (c :: rest) := by
  have hmark : c ≠ '(' ∧ c ≠ '[' := by
    constructor <;> rintro rfl <;> exact absurd hc (by decide)
  refine .orElse (refuses_bracketed rfl (head?_ne rfl hmark.1)) ?_
  refine .orElse (refuses_bracketed rfl (head?_ne rfl hmark.2)) (Refuses.take ?_)
  rcases hc with rfl | hline
  · rfl
  · simp [one?, hline]

theorem reads_lengthPiece_group {first last : Char} (h : (first, last) ∈ [('(', ')'), ('[', ']')])
    {inside : List Char} (hinside : Delimited inside) (rest : List Char) :
    Reads lengthPiece mode (first :: (inside ++ last :: rest)) rest fun _ => True := by
  have hcases : first = '(' ∧ last = ')' ∨ first = '[' ∧ last = ']' := by simpa using h
  rcases hcases with ⟨rfl, rfl⟩ | ⟨rfl, rfl⟩
  · refine .orElse_left ((reads_mark rfl _).bind fun _ _ => ?_)
    exact (reads_groupInside hinside (by decide) rest).bind fun _ _ => reads_mark rfl rest
  · refine .orElse_right (refuses_bracketed rfl (head?_ne rfl (by decide))) (.orElse_left ?_)
    refine (reads_mark rfl _).bind fun _ _ => ?_
    exact (reads_groupInside hinside (by decide) rest).bind fun _ _ => reads_mark rfl rest

theorem told_lengthPiece_character {zone : Zone} {marks rest : List Char} {c : Char}
    (hc : c ∉ ['(', '[', ']']) (hrest : Loose zone marks rest) (mode : Mode) :
    ToldPiece lengthPiece mode (Loose zone marks) (Stopped zone marks) (c :: rest) := by
  cases hline : isLineEnd c with
  | true => exact .inl ⟨.inr ⟨c, rest, rfl, hline⟩, fun more => refuses_lengthPiece (.inr hline) _⟩
  | false => exact .inr ⟨rest, hrest, by simp, fun more => reads_lengthPiece_character hc hline _⟩

theorem told_lengthPiece_group {zone : Zone} {marks rest : List Char} {first : Char} {braces : Nat}
    (hfirst : first = '(' ∨ first = '[')
    (hrest : Nested zone (first :: (List.replicate braces '\x7b' ++ '[' :: marks)) rest) (mode : Mode) :
    ToldPiece lengthPiece mode (Loose zone marks) (Stopped zone marks) (first :: rest) := by
  obtain ⟨last, inside, behind, hmarks, rfl, hinside, hbehind⟩ := hrest.exists_group
  refine .inr ⟨behind, ⟨braces, [], behind, rfl, nofun, hbehind⟩, by simp; omega, fun more => ?_⟩
  rw [List.cons_append, List.append_assoc, List.cons_append]
  refine reads_lengthPiece_group ?_ hinside _
  rcases hfirst with rfl | rfl <;> simpa [groupMarks] using hmarks

/-- Whether there is a further piece of a length, and where it ends, is told from the text alone. -/
theorem Loose.told_lengthPiece {zone : Zone} {marks : List Char} (hzone : zone ≠ .free)
    (h : Loose zone marks text) (mode : Mode) :
    ToldPiece lengthPiece mode (Loose zone marks) (Stopped zone marks) text := by
  obtain ⟨braces, front, rest, rfl, hfront, hrest⟩ := h
  cases front with
  | cons c front =>
      rw [List.forall_mem_cons] at hfront
      exact told_lengthPiece_character hfront.1 ⟨braces, front, rest, rfl, hfront.2, hrest⟩ mode
  | nil =>
      have hsquares := inSquares_replicate braces marks
      generalize hstack : List.replicate braces '\x7b' ++ '[' :: marks = stack at hrest hsquares
      cases hrest with
      | ending _ _ => simp at hstack
      | @character _ _ c rest hc _ _ hrest =>
          refine told_lengthPiece_character ?_ ⟨braces, [], rest, rfl, nofun, by rwa [hstack]⟩ mode
          simp only [List.mem_cons, List.not_mem_nil, or_false, not_or]
          exact ⟨ne_of_isUnmarked hc (by decide), ne_of_isUnmarked hc (by decide),
            ne_of_isUnmarked hc (by decide)⟩
      | equals _ => simp at hstack
      | @opening _ _ first last rest hmarks hrest =>
          rcases groupMarks_cases hmarks with ⟨rfl, rfl⟩ | ⟨rfl, rfl⟩ | ⟨rfl, rfl⟩
          · exact told_lengthPiece_group (.inl rfl) (hstack ▸ hrest) mode
          · exact told_lengthPiece_group (.inr rfl) (hstack ▸ hrest) mode
          · refine told_lengthPiece_character (by decide) ⟨braces + 1, [], rest, rfl, nofun, ?_⟩ mode
            rwa [List.replicate_succ, List.cons_append, hstack]
      | @closing _ outer first last rest hmarks hrest =>
          cases braces with
          | zero =>
              obtain ⟨rfl, rfl⟩ := List.cons.inj hstack
              obtain rfl : last = ']' := by simpa [groupMarks] using hmarks
              exact .inl ⟨.inl (.closing hmarks hrest), fun more => refuses_lengthPiece (.inl rfl) _⟩
          | succ braces =>
              obtain ⟨rfl, rfl⟩ := List.cons.inj hstack
              obtain rfl : last = '\x7d' := by simpa [groupMarks] using hmarks
              exact told_lengthPiece_character (by decide) ⟨braces, [], rest, rfl, nofun, hrest⟩ mode
      | @literal _ _ quote inside rest hliteral hnotice hrest =>
          have hquote : quote ∉ ['(', '[', ']'] := by cases hliteral <;> decide
          exact told_lengthPiece_character hquote
            ⟨braces, inside, rest, rfl, hnotice hzone hsquares, by rwa [hstack]⟩ mode
      | @blockComment _ _ inside rest _ hnotice hrest =>
          refine told_lengthPiece_character (by decide)
            ⟨braces, '*' :: (inside ++ ['*', '/']), rest, by simp, ?_, by rwa [hstack]⟩ mode
          simp only [List.forall_mem_cons, List.forall_mem_append]
          exact ⟨by decide, hnotice hzone hsquares, by decide, by decide, nofun⟩
      | @lineComment _ _ line rest c _ _ hnotice hrest =>
          refine told_lengthPiece_character (by decide)
            ⟨braces, '/' :: line, c :: rest, rfl, ?_, by rwa [hstack]⟩ mode
          exact List.forall_mem_cons.mpr ⟨by decide, hnotice hzone hsquares⟩

theorem lengthText_local {zone : Zone} {marks : List Char} {size : Nat} (hzone : zone ≠ .free) :
    Local anyText size (Nested zone ('[' :: marks)) (Stopped zone marks)
      (textOf lengthPiece) (textOf lengthPiece) := by
  have htext : Local anyText size (Loose zone marks) (Stopped zone marks)
      (textOf lengthPiece) (textOf lengthPiece) :=
    textOf_local (fun _ htext => htext.told_lengthPiece hzone) lengthPiece_spends
  exact htext.imp (fun text htext => ⟨0, [], text, rfl, nofun, htext⟩) fun _ => id

end

/-! ## All rules -/

theorem told_mark {left : List Char → Prop} {text : List Char} {word : String} {c : Char}
    (hword : word.toList = [c]) (htext : ∃ d rest, text = d :: rest)
    (h : ∀ rest, text = c :: rest → left rest) :
    Told anyText left
      (fun text => if word.toList.isPrefixOf text then some word.toList.length else none) text := by
  obtain ⟨d, rest, rfl⟩ := htext
  rw [hword]
  by_cases hd : c = d
  · subst hd
    exact .inr ⟨[c], rest, rfl, h rest rfl, fun more _ => by simp⟩
  · exact .inl fun more _ => by simp [hd]

theorem Stopped.exists_cons {zone : Zone} {marks text : List Char} (h : Stopped zone marks text) :
    ∃ c rest, text = c :: rest := by
  obtain hnested | ⟨c, rest, rfl, -⟩ := h
  · exact hnested.exists_cons
  · exact ⟨c, rest, rfl⟩

theorem Stopped.exists_blanks {zone : Zone} {marks text : List Char} (h : Stopped zone marks text) :
    ∃ front rest, text = front ++ rest ∧ Stopped zone marks rest ∧
      ∀ more, blanks (text ++ more) = front.length := by
  obtain hnested | ⟨c, rest, rfl, hc⟩ := h
  · obtain ⟨front, rest, heq, hrest, hblanks⟩ := hnested.exists_blanks
    exact ⟨front, rest, heq, .inl hrest, hblanks⟩
  · have hsolid : isSolid c = true := by
      have hline : c = '\n' ∨ c = '\r' := by simpa [isLineEnd] using hc
      rcases hline with rfl | rfl <;> decide
    exact ⟨[], c :: rest, rfl, .inr ⟨c, rest, rfl, hc⟩, fun more => blanks_of_isSolid hsolid _⟩

theorem Stopped.of_closing {zone : Zone} {marks rest : List Char}
    (h : Stopped zone marks (']' :: rest)) : Nested zone marks rest := by
  obtain hnested | ⟨c, _, heq, hc⟩ := h
  · exact hnested.of_closing (by decide)
  · rw [← (List.cons.inj heq).1] at hc
    exact absurd hc (by decide)

/-- Texts that end by themselves are read the same whatever stands behind them. -/
def nested : Landscape where
  behind := anyText
  part := Nested
  stopped := Stopped
  part_free := Nested.toFree
  stopped_of_part := .inl
  blanks := Local.gapBy fun _ htext => by
    obtain ⟨front, rest, heq, hrest, hblanks⟩ := htext.exists_blanks
    exact ⟨front, rest, heq, hrest, fun more _ => hblanks more⟩
  sign hword := by
    have hinert : (signs.all fun word => word.toList.all Nested.isInert) = true := by decide
    exact Local.take fun _ htext => htext.told_sign (List.all_eq_true.mp hinert _ hword)
  equals := Local.take fun _ htext => told_mark rfl htext.exists_cons fun _ heq =>
    Nested.of_equals (heq ▸ htext)
  opening hword hmarks := Local.take fun _ htext => told_mark hword htext.exists_cons fun _ heq =>
    Nested.of_opening (heq ▸ htext) hmarks
  closing hword hmarks := Local.take fun _ htext => told_mark hword htext.exists_cons fun _ heq =>
    Nested.of_closing (heq ▸ htext) hmarks
  ident := Local.take fun _ htext => htext.told_identifier
  word word := Local.take fun _ htext => htext.told_word word
  lineEnd := Local.take fun _ htext => htext.told_newline
  semicolon := Local.take fun _ htext => told_mark rfl htext.exists_cons fun _ heq =>
    Nested.uncons (heq ▸ htext) (by decide) nofun (by decide) (by decide)
  quoted := Local.take fun _ htext => htext.told_quoted
  raw := Local.take fun _ htext => htext.told_raw
  closes := Local.ahead fun _ htext => by
    obtain ⟨c, rest, rfl⟩ := htext.exists_cons
    exact ⟨(one? (· = ']') (c :: rest)).isSome, fun more _ => rfl⟩
  length := lengthText_local
  stopped_blanks := Local.gapBy fun _ htext => by
    obtain ⟨front, rest, heq, hrest, hblanks⟩ := htext.exists_blanks
    exact ⟨front, rest, heq, hrest, fun more _ => hblanks more⟩
  stopped_closing := Local.take fun _ htext => told_mark rfl htext.exists_cons fun _ heq =>
    Stopped.of_closing (heq ▸ htext)
  piece hstops := textOf_local (fun _ htext => htext.told_initialPiece hstops) initialPiece_spends

end GoTrace.Grammar
