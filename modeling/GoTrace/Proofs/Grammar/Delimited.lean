import GoTrace.Grammar.File
import GoTrace.Proofs.Grammar.Words
import GoTrace.Proofs.Literal.Inside

/-!
# Where groups end

The body of a function is read piece by piece: literals, comments, groups in brackets and single
characters. A text in which every group, literal and comment ends is read up to the mark that closes the
group around it, whatever its literals and comments hold.
-/

namespace GoTrace.Grammar

open GoTrace.Lexeme GoTrace.Parser

def groupMarks : List (Char × Char) := [('(', ')'), ('[', ']'), ('\x7b', '\x7d')]

/-- A character that starts no group and no literal and closes no group. -/
def isUnmarked (c : Char) : Bool :=
  !(['(', ')', '[', ']', '\x7b', '\x7d', '"', '\'', '\x60'].contains c)

/-- Texts in which every group, every literal and every comment ends. -/
inductive Delimited : List Char → Prop
  | nil : Delimited []
  /-- A slash is a character by itself unless it starts a comment. -/
  | character {c : Char} {rest : List Char} :
      isUnmarked c = true → (c = '/' → rest.head? ≠ some '/' ∧ rest.head? ≠ some '*') →
        Delimited rest → Delimited (c :: rest)
  | group {opening closing : Char} {inside rest : List Char} :
      (opening, closing) ∈ groupMarks → Delimited inside → Delimited rest →
        Delimited (opening :: (inside ++ closing :: rest))
  | literal {text rest : List Char} : IsLiteral text → Delimited rest → Delimited (text ++ rest)
  | blockComment {inside rest : List Char} :
      ¬ ['*', '/'] <:+: inside → Delimited rest →
        Delimited ('/' :: '*' :: (inside ++ '*' :: '/' :: rest))
  | lineComment {line rest : List Char} {c : Char} :
      line.all (!isLineEnd ·) = true → isLineEnd c = true → Delimited rest →
        Delimited ('/' :: '/' :: (line ++ c :: rest))

theorem Delimited.characters (front : List Char) {rest : List Char}
    (h : front.all (fun c => isUnmarked c && c ≠ '/') = true) (hrest : Delimited rest) :
    Delimited (front ++ rest) := by
  induction front with
  | nil => exact hrest
  | cons c front ih =>
      simp only [List.all_cons, Bool.and_eq_true, decide_eq_true_eq] at h
      exact .character h.1.1 (fun heq => absurd heq h.1.2) (ih (by simpa using h.2))

variable {mode : Mode} {text rest : List Char}

/-! ## What no group and no literal starts with -/

theorem refuses_bracketed {inside : Parser Unit} {opening closing : String} {c : Char}
    (hopening : opening.toList = [c]) (h : text.head? ≠ some c) :
    Refuses (bracketed inside opening closing) mode text :=
  (refuses_mark (by rw [hopening]; rfl) h).bind_left

theorem quoted?_of_head?_ne {mark : Char} (h : text.head? ≠ some mark) : quoted? mark text = none := by
  cases text with
  | nil => rfl
  | cons c rest => rw [quoted?, if_neg fun heq => h (congrArg some heq)]

theorem refuses_stringLiteral (hquote : text.head? ≠ some '"') (hraw : text.head? ≠ some '\x60') :
    Refuses stringLiteral mode text := by
  refine Refuses.tight (Refuses.rule (Refuses.captured (.orElse (Refuses.rule ?_) (Refuses.rule ?_))))
  · exact Refuses.take (quoted?_of_head?_ne hquote)
  · refine Refuses.take ?_
    unfold raw?
    split
    · exact absurd rfl hraw
    · rfl

/-- The characters that a group or a literal starts with. -/
def startMarks : List Char := ['(', '[', '\x7b', '"', '\x60', '\'']

theorem refuses_enclosedWith {inside : Parser Unit} (h : ∀ c ∈ startMarks, text.head? ≠ some c) :
    Refuses (enclosedWith inside) mode text := by
  refine .orElse (refuses_bracketed rfl (h _ (by decide))) ?_
  refine .orElse (refuses_bracketed rfl (h _ (by decide))) ?_
  refine .orElse (refuses_bracketed rfl (h _ (by decide))) ?_
  refine .orElse ((refuses_stringLiteral (h _ (by decide)) (h _ (by decide))).bind_left) ?_
  exact Refuses.take (quoted?_of_head?_ne (h _ (by decide)))

theorem head?_ne_of_notMem {c : Char} (h : c ∉ startMarks) (rest : List Char) :
    ∀ d ∈ startMarks, (c :: rest).head? ≠ some d := by
  intro d hd heq
  cases heq
  exact h hd

theorem lineComment?_cons {c : Char} (h : c = '/' → text.head? ≠ some '/') :
    lineComment? (c :: text) = none := by
  unfold lineComment?
  split
  · rename_i heq
    cases heq
    exact absurd rfl (h rfl)
  · rfl

theorem blockComment?_cons {c : Char} (h : c = '/' → text.head? ≠ some '*') :
    blockComment? (c :: text) = none := by
  unfold blockComment?
  split
  · rename_i heq
    cases heq
    exact absurd rfl (h rfl)
  · rfl

/-! ## Pieces -/

/-- A character that starts no group, no literal and no comment is a piece by itself. -/
theorem reads_character {c : Char} (h : isUnmarked c = true)
    (hslash : c = '/' → rest.head? ≠ some '/' ∧ rest.head? ≠ some '*') (depth : Nat) :
    Reads (groupPieceUpTo (depth + 1)) mode (c :: rest) rest fun _ => True := by
  have hmark {d : Char} (hd : isUnmarked d = false) : c ≠ d := by
    rintro rfl
    exact absurd (h.symm.trans hd) (by decide)
  have hstart : c ∉ startMarks := by
    simp only [startMarks, List.mem_cons, List.not_mem_nil, or_false, not_or]
    exact ⟨hmark (by decide), hmark (by decide), hmark (by decide), hmark (by decide),
      hmark (by decide), hmark (by decide)⟩
  have hone : one? (fun c => !([')', ']', '}'].contains c)) (c :: rest) = some 1 := by
    have hclose : c ∉ [')', ']', '}'] := by
      simp only [List.mem_cons, List.not_mem_nil, or_false, not_or]
      exact ⟨hmark (by decide), hmark (by decide), hmark (by decide)⟩
    simp [one?, hclose]
  refine .orElse_right (refuses_enclosedWith (head?_ne_of_notMem hstart rest)) ?_
  refine .orElse_right (Refuses.take (lineComment?_cons fun heq => (hslash heq).1)) ?_
  refine .orElse_right (Refuses.take (blockComment?_cons fun heq => (hslash heq).2)) ?_
  exact Reads.take hone

theorem refuses_groupPieceUpTo {stop : Char} (h : stop ∈ [')', ']', '\x7d']) (depth : Nat)
    (rest : List Char) : Refuses (groupPieceUpTo depth) mode (stop :: rest) := by
  cases depth with
  | zero => exact fun _ => rfl
  | succ depth =>
      have hstop : stop = ')' ∨ stop = ']' ∨ stop = '\x7d' := by simpa using h
      have hslash : stop ≠ '/' := by rcases hstop with rfl | rfl | rfl <;> decide
      have hstart : stop ∉ startMarks := by rcases hstop with rfl | rfl | rfl <;> decide
      refine .orElse (refuses_enclosedWith (head?_ne_of_notMem hstart rest)) ?_
      refine .orElse (Refuses.take (lineComment?_cons fun heq => absurd heq hslash)) ?_
      refine .orElse (Refuses.take (blockComment?_cons fun heq => absurd heq hslash)) ?_
      refine Refuses.take ?_
      rcases hstop with rfl | rfl | rfl <;> rfl

theorem groupMarks_cases {opening closing : Char} (h : (opening, closing) ∈ groupMarks) :
    opening = '(' ∧ closing = ')' ∨ opening = '[' ∧ closing = ']' ∨
      opening = '\x7b' ∧ closing = '\x7d' := by
  simpa [groupMarks] using h

theorem closing_of_groupMarks {opening closing : Char} (h : (opening, closing) ∈ groupMarks) :
    closing ∈ [')', ']', '\x7d'] := by
  rcases groupMarks_cases h with ⟨-, rfl⟩ | ⟨-, rfl⟩ | ⟨-, rfl⟩ <;> decide

theorem reads_enclosedWith_group {opening closing : Char} (h : (opening, closing) ∈ groupMarks)
    {within : Parser Unit} {inside : List Char}
    (hinside : Reads within mode (inside ++ closing :: rest) (closing :: rest) fun _ => True) :
    Reads (enclosedWith within) mode (opening :: (inside ++ closing :: rest)) rest fun _ => True := by
  have hgroup {first last : String} (hfirst : first.toList = [opening])
      (hlast : last.toList = [closing]) :
      Reads (bracketed within first last) mode (opening :: (inside ++ closing :: rest)) rest
        fun _ => True :=
    (reads_mark hfirst _).bind fun _ _ => hinside.bind fun _ _ => reads_mark hlast rest
  rcases groupMarks_cases h with ⟨rfl, rfl⟩ | ⟨rfl, rfl⟩ | ⟨rfl, rfl⟩
  · exact .orElse_left (hgroup rfl rfl)
  · refine .orElse_right (refuses_bracketed rfl (head?_ne rfl (by decide))) ?_
    exact .orElse_left (hgroup rfl rfl)
  · refine .orElse_right (refuses_bracketed rfl (head?_ne rfl (by decide))) ?_
    refine .orElse_right (refuses_bracketed rfl (head?_ne rfl (by decide))) ?_
    exact .orElse_left (hgroup rfl rfl)

theorem reads_enclosedWith_literal {inside : Parser Unit} (h : IsLiteral text) (rest : List Char) :
    Reads (enclosedWith inside) mode (text ++ rest) rest fun _ => True := by
  have htaken {measure : List Char → Option Nat} (hmeasure : measure (text ++ rest) = some text.length)
      (mode : Mode) : Reads (take measure) mode (text ++ rest) rest fun _ => True := by
    have htake : Reads (take measure) mode (text ++ rest) _ _ := Reads.take hmeasure
    rwa [List.drop_left] at htake
  have hbrackets {other : Parser Unit} (hhead : ∀ c ∈ ['(', '[', '\x7b'], (text ++ rest).head? ≠ some c)
      (hother : Reads other mode (text ++ rest) rest fun _ => True) :
      Reads (bracketed inside "(" ")" <|> bracketed inside "[" "]" <|> bracketed inside "\x7b" "\x7d"
        <|> other) mode (text ++ rest) rest fun _ => True := by
    refine .orElse_right (refuses_bracketed rfl (hhead _ (by decide))) ?_
    refine .orElse_right (refuses_bracketed rfl (hhead _ (by decide))) ?_
    exact .orElse_right (refuses_bracketed rfl (hhead _ (by decide))) hother
  have hstring (hliteral : Reads stringLiteral mode (text ++ rest) rest fun _ => True) :
      Reads (do let _ ← stringLiteral) mode (text ++ rest) rest fun _ => True :=
    hliteral.bind fun _ _ => (Reads.pure _).ignore
  cases h with
  | @string inside hinside =>
      have htake := htaken (quoted?_of_inside (by decide) hinside rest) .tight
      refine hbrackets ?_ (.orElse_left (hstring ?_))
      · rintro c hc heq
        cases heq
        exact absurd hc (by decide)
      · exact Reads.tight (Reads.rule ((Reads.captured (.orElse_left htake.rule)).weaken
          fun _ _ => trivial))
  | @character inside hinside =>
      have htake := htaken (quoted?_of_inside (by decide) hinside rest) mode
      have hnone : Refuses stringLiteral mode ('\'' :: (inside ++ ['\'']) ++ rest) :=
        refuses_stringLiteral (head?_ne rfl (by decide)) (head?_ne rfl (by decide))
      refine hbrackets ?_ (.orElse_right hnone.bind_left htake)
      rintro c hc heq
      cases heq
      exact absurd hc (by decide)
  | @raw inside hinside =>
      have htake := htaken (raw?_of_notMem hinside rest) .tight
      have hnone : Refuses (rule .interpretedString (take (quoted? '"'))) .tight
          ('\x60' :: (inside ++ ['\x60']) ++ rest) :=
        (Refuses.take (quoted?_of_head?_ne (head?_ne rfl (by decide)))).rule
      refine hbrackets ?_ (.orElse_left (hstring ?_))
      · rintro c hc heq
        cases heq
        exact absurd hc (by decide)
      · exact Reads.tight (Reads.rule ((Reads.captured (.orElse_right hnone htake.rule)).weaken
          fun _ _ => trivial))

theorem reads_blockComment {inside : List Char} (h : ¬ ['*', '/'] <:+: inside) (depth : Nat)
    (rest : List Char) :
    Reads (groupPieceUpTo (depth + 1)) mode ('/' :: '*' :: (inside ++ '*' :: '/' :: rest)) rest
      fun _ => True := by
  have hcomment : blockComment? ('/' :: '*' :: (inside ++ '*' :: '/' :: rest)) =
      some (inside.length + 4) := by
    rw [blockComment?, blockTail?_of_not_infix h]
    rfl
  have htake : Reads (take blockComment?) mode ('/' :: '*' :: (inside ++ '*' :: '/' :: rest)) _ _ :=
    Reads.take hcomment
  have hdrop : ('/' :: '*' :: (inside ++ '*' :: '/' :: rest)).drop (inside.length + 4) = rest := by
    simp
  rw [hdrop] at htake
  refine .orElse_right (refuses_enclosedWith (head?_ne_of_notMem (by decide) _)) ?_
  refine .orElse_right (Refuses.take (lineComment?_cons fun _ => ?_)) (.orElse_left htake)
  exact head?_ne rfl (by decide)

/-- A comment up to the end of its line is one piece, and the end of the line another. -/
theorem reads_lineComment {line : List Char} (h : line.all (!isLineEnd ·) = true) {c : Char}
    (hc : isLineEnd c = true) (depth : Nat) (rest : List Char) :
    Reads (groupPieceUpTo (depth + 1)) mode ('/' :: '/' :: (line ++ c :: rest)) (c :: rest)
      fun _ => True := by
  have hline : (line ++ c :: rest).takeWhile (!isLineEnd ·) = line := by
    rw [List.takeWhile_append_of_pos (by simpa using h)]
    simp [hc]
  have htake : Reads (take lineComment?) mode ('/' :: '/' :: (line ++ c :: rest)) _ _ :=
    Reads.take (by rw [lineComment?, hline])
  have hdrop : ('/' :: '/' :: (line ++ c :: rest)).drop (2 + line.length) = c :: rest := by
    rw [Nat.add_comm]
    simp
  rw [hdrop] at htake
  refine .orElse_right (refuses_enclosedWith (head?_ne_of_notMem (by decide) _)) (.orElse_left htake)

theorem isUnmarked_of_isLineEnd {c : Char} (h : isLineEnd c = true) :
    isUnmarked c = true ∧ c ≠ '/' := by
  simp only [isLineEnd, Bool.or_eq_true, decide_eq_true_eq] at h
  rcases h with rfl | rfl <;> decide

/-! ## Groups -/

theorem head?_append_stop {stop : Char} (hstop : stop ≠ '/' ∧ stop ≠ '*') {rest : List Char}
    (h : rest.head? ≠ some '/' ∧ rest.head? ≠ some '*') (behind : List Char) :
    (rest ++ stop :: behind).head? ≠ some '/' ∧ (rest ++ stop :: behind).head? ≠ some '*' := by
  cases rest with
  | nil => exact ⟨head?_ne rfl hstop.1, head?_ne rfl hstop.2⟩
  | cons c rest => exact h

/-- A text whose groups, literals and comments end is read up to the mark that closes the group around
it. -/
theorem Delimited.rounds (h : Delimited text) {depth : Nat} (hdepth : text.length < depth)
    {stop : Char} (hstop : stop ∈ [')', ']', '\x7d']) (rest : List Char) :
    ∃ accepts, Rounds (groupPieceUpTo depth) mode (text ++ stop :: rest) accepts
      (stop :: rest) := by
  obtain ⟨depth, rfl⟩ := Nat.exists_eq_succ_of_ne_zero (Nat.ne_of_gt (Nat.zero_lt_of_lt hdepth))
  -- inside a group another mark closes, more text is behind it, and one level less is left
  induction h generalizing depth stop rest with
  | nil => exact ⟨[], .stop (refuses_groupPieceUpTo hstop _ _)⟩
  | @character c others hc hslash _ ih =>
      obtain ⟨accepts, hrounds⟩ := ih hstop rest depth (by simp at hdepth; omega)
      have hmark : stop ≠ '/' ∧ stop ≠ '*' := by
        have hcases : stop = ')' ∨ stop = ']' ∨ stop = '\x7d' := by simpa using hstop
        rcases hcases with rfl | rfl | rfl <;> decide
      have hbehind := fun heq => head?_append_stop hmark (hslash heq) rest
      exact ⟨_, .step (reads_character hc hbehind depth) (by simp) hrounds⟩
  | @group opening closing inside others hmarks _ _ ihInside ih =>
      simp only [List.length_cons, List.length_append] at hdepth
      obtain ⟨depth, rfl⟩ : ∃ smaller, depth = smaller + 1 := ⟨depth - 1, by omega⟩
      obtain ⟨accepts, hrounds⟩ := ih hstop rest (depth + 1) (by omega)
      obtain ⟨acceptsInside, hinside⟩ :=
        ihInside (closing_of_groupMarks hmarks) (others ++ stop :: rest) depth (by omega)
      rw [List.cons_append, List.append_assoc, List.cons_append]
      have hgroup : Reads (groupPieceUpTo (depth + 1 + 1)) mode _ _ _ :=
        .orElse_left (reads_enclosedWith_group hmarks hinside.skipMany)
      exact ⟨_, .step hgroup (by simp; omega) hrounds⟩
  | @literal word others hword _ ih =>
      rw [List.length_append] at hdepth
      have hpos := hword.length_pos
      obtain ⟨accepts, hrounds⟩ := ih hstop rest depth (by omega)
      rw [List.append_assoc]
      refine ⟨_, .step (.orElse_left (reads_enclosedWith_literal hword _)) ?_ hrounds⟩
      simp only [List.length_append]
      omega
  | @blockComment inside others hinside _ ih =>
      simp only [List.length_cons, List.length_append] at hdepth
      obtain ⟨accepts, hrounds⟩ := ih hstop rest depth (by omega)
      have hpiece : Reads (groupPieceUpTo (depth + 1)) mode _ _ _ :=
        reads_blockComment hinside depth (others ++ stop :: rest)
      simp only [List.cons_append, List.append_assoc]
      exact ⟨_, .step hpiece (by simp; omega) hrounds⟩
  | @lineComment line others c hline hc _ ih =>
      simp only [List.length_cons, List.length_append] at hdepth
      obtain ⟨accepts, hrounds⟩ := ih hstop rest depth (by omega)
      have hpiece : Reads (groupPieceUpTo (depth + 1)) mode _ _ _ :=
        reads_lineComment hline hc depth (others ++ stop :: rest)
      obtain ⟨hunmarked, hslash⟩ := isUnmarked_of_isLineEnd hc
      have hend : Reads (groupPieceUpTo (depth + 1)) mode _ (others ++ stop :: rest) _ :=
        reads_character hunmarked (fun heq => absurd heq hslash) depth
      simp only [List.cons_append, List.append_assoc]
      exact ⟨_, .step hpiece (by simp; omega) (.step hend (by simp) hrounds)⟩

theorem reads_groupInside (h : Delimited text) {stop : Char} (hstop : stop ∈ [')', ']', '\x7d'])
    (rest : List Char) :
    Reads groupInside mode (text ++ stop :: rest) (stop :: rest) fun _ => True := by
  have hdepth : text.length < (text ++ stop :: rest).length + 1 := by
    rw [List.length_append]
    omega
  obtain ⟨accepts, hrounds⟩ := h.rounds hdepth hstop rest
  exact fun start => hrounds.skipMany start

theorem reads_funcBody (h : Delimited text) (rest : List Char) :
    Reads funcBody mode ('\x7b' :: (text ++ '\x7d' :: rest)) rest fun _ => True := by
  refine Reads.rule (Reads.hidden ((reads_mark rfl _).bind fun _ _ => ?_))
  exact (reads_groupInside h (by decide) rest).bind fun _ _ => reads_mark rfl rest

end GoTrace.Grammar
