import GoTrace.Grammar.Word
import GoTrace.Proofs.Parser.Reads

/-!
# Reading words

How far words and blanks reach in a text that starts with them, and what the rules for words make of
such a text.
-/

namespace GoTrace

namespace Lexeme

/-- The text behind the blanks and comments at its front. -/
def skipBlanks (text : List Char) : List Char :=
  text.drop (blanks text)

@[simp] theorem skipBlanks_nil : skipBlanks [] = [] := by
  simp [skipBlanks, blanks]

@[simp] theorem skipBlanks_space (rest : List Char) : skipBlanks (' ' :: rest) = skipBlanks rest := by
  simp [skipBlanks, blanks]

/-- A character that starts neither blanks nor a comment. -/
def isSolid (c : Char) : Bool :=
  !(c = ' ' || c = '\t' || c = '\uFEFF' || c = '/')

theorem blanks_of_isSolid {c : Char} (h : isSolid c = true) (rest : List Char) :
    blanks (c :: rest) = 0 := by
  simp only [isSolid, Bool.not_eq_true', Bool.or_eq_false_iff, decide_eq_false_iff_not] at h
  unfold blanks
  split <;> simp_all

theorem skipBlanks_of_isSolid {c : Char} (h : isSolid c = true) (rest : List Char) :
    skipBlanks (c :: rest) = c :: rest := by
  rw [skipBlanks, blanks_of_isSolid h, List.drop_zero]

theorem blanks_lineComment {line : List Char} (h : line.all (!isLineEnd ·) = true) {c : Char}
    (hc : isLineEnd c = true) (rest : List Char) :
    blanks ('/' :: '/' :: (line ++ c :: rest)) = line.length + 2 := by
  have htake : (line ++ c :: rest).takeWhile (!isLineEnd ·) = line := by
    rw [List.takeWhile_append_of_pos (by simpa using h)]
    simp [hc]
  rw [blanks, htake, Nat.add_comm]

theorem blanks_blockComment {inside : List Char} (h : ¬ ['*', '/'] <:+: inside) (rest : List Char) :
    blanks ('/' :: '*' :: (inside ++ '*' :: '/' :: rest)) = inside.length + 4 + blanks rest := by
  have hblock : blanksInBlock (inside ++ '*' :: '/' :: rest) = some (inside.length + 2 + blanks rest) := by
    induction inside with
    | nil => rw [List.nil_append, blanksInBlock, List.length_nil, Nat.zero_add, Nat.add_comm]
    | cons c inside ih =>
        rw [List.cons_append, blanksInBlock, ih fun hinfix => h (List.infix_cons hinfix)]
        · rw [Option.map_some, List.length_cons]
          congr 1
          omega
        · -- no end mark starts at `c`: its second half would be the next character of the comment
          intro tail hc heq
          cases inside with
          | nil => cases heq
          | cons d inside =>
              cases heq
              exact h ⟨[], inside, by rw [hc]; rfl⟩
  rw [blanks, hblock]
  simp only [Nat.add_right_comm _ _ 2]

theorem length_skipBlanks_le (text : List Char) : (skipBlanks text).length ≤ text.length := by
  simp [skipBlanks]

theorem drop_length_takeWhile (accepts : Char → Bool) (text : List Char) :
    text.drop (text.takeWhile accepts).length = text.dropWhile accepts := by
  induction text with
  | nil => rfl
  | cons c text ih => cases h : accepts c <;> simp [h, ih]

theorem not_accepts_of_dropWhile {accepts : Char → Bool} {text rest : List Char} {c : Char}
    (h : text.dropWhile accepts = c :: rest) : accepts c = false := by
  have hhead := List.head_dropWhile_not accepts (l := text) (by simp [h])
  simpa [h] using hhead

theorem blanks_dropWhile (text : List Char) : blanks (text.dropWhile (!isLineEnd ·)) = 0 := by
  cases h : text.dropWhile (!isLineEnd ·) with
  | nil => simp [blanks]
  | cons c rest =>
      have hc := not_accepts_of_dropWhile h
      simp only [isLineEnd, Bool.not_eq_false', Bool.or_eq_true, decide_eq_true_eq] at hc
      rcases hc with rfl | rfl <;> simp [blanks]

theorem blanks_drop_blanks (text : List Char) : blanks (text.drop (blanks text)) = 0 := by
  -- the two halves go together: a comment may stand behind blanks, and blanks behind a comment
  refine (blanks.mutual_induct (fun text => blanks (text.drop (blanks text)) = 0)
    (fun text => ∀ count, blanksInBlock text = some count → blanks (text.drop count) = 0)
    ?space ?tab ?mark ?line ?block ?unclosed ?solid ?close ?inside ?nil).1 text
  case space => exact fun rest ih => by simpa only [blanks, List.drop_succ_cons] using ih
  case tab => exact fun rest ih => by simpa only [blanks, List.drop_succ_cons] using ih
  case mark => exact fun rest ih => by simpa only [blanks, List.drop_succ_cons] using ih
  case line =>
    intro rest
    simp only [blanks, Nat.add_comm 2, List.drop_succ_cons, drop_length_takeWhile]
    exact blanks_dropWhile rest
  case block =>
    intro rest count hcount ih
    simpa only [blanks, hcount, List.drop_succ_cons] using ih count hcount
  case unclosed =>
    intro rest hcount _
    simp only [blanks, hcount, List.drop_zero]
  case solid =>
    intro text _ _ _ _ _
    have hzero : blanks text = 0 := by
      unfold blanks
      split <;> simp_all
    rw [hzero, List.drop_zero, hzero]
  case close =>
    intro rest ih count hcount
    rw [blanksInBlock] at hcount
    cases hcount
    simpa only [List.drop_succ_cons] using ih
  case inside =>
    intro c rest hne ih count hcount
    rw [blanksInBlock] at hcount
    · obtain ⟨inner, hinner, rfl⟩ := Option.map_eq_some_iff.mp hcount
      exact ih inner hinner
    · exact hne
  case nil => exact fun count hcount => by simp [blanksInBlock] at hcount

theorem skipBlanks_skipBlanks (text : List Char) : skipBlanks (skipBlanks text) = skipBlanks text := by
  rw [skipBlanks, skipBlanks, blanks_drop_blanks, List.drop_zero]

/-! ## Words -/

theorem isIdentChar_ne {c d : Char} (h : isIdentChar c = true) (hd : isIdentChar d = false) :
    c ≠ d := by
  rintro rfl
  exact absurd (h.symm.trans hd) (by decide)

def IsIdentifier (name : String) : Prop :=
  identifier? name.toList = some name.toList.length

instance (name : String) : Decidable (IsIdentifier name) :=
  inferInstanceAs (Decidable (_ = _))

def StopsWord : List Char → Prop
  | [] => True
  | c :: _ => isIdentChar c = false

theorem wordAhead_append {word rest : List Char} (hword : word.all isIdentChar = true)
    (hrest : StopsWord rest) : wordAhead (word ++ rest) = word := by
  unfold wordAhead
  rw [List.takeWhile_append_of_pos (by simpa using hword)]
  cases rest with
  | nil => simp
  | cons c rest =>
      have hstop : isIdentChar c = false := hrest
      simp [hstop]

theorem all_wordAhead (text : List Char) : (wordAhead text).all isIdentChar = true :=
  List.all_takeWhile

theorem wordAhead_wordAhead (text : List Char) : wordAhead (wordAhead text) = wordAhead text := by
  have happend := wordAhead_append (all_wordAhead text) (show StopsWord [] from trivial)
  rwa [List.append_nil] at happend

theorem identifier?_wordAhead (text : List Char) :
    identifier? (wordAhead text) = identifier? text := by
  unfold identifier?
  rw [wordAhead_wordAhead]

theorem exists_of_identifier? {text : List Char} {count : Nat} (h : identifier? text = some count) :
    ∃ c rest, wordAhead text = c :: rest ∧ isIdentStart c = true ∧
      String.ofList (wordAhead text) ∉ keywords ∧ count = (wordAhead text).length := by
  unfold identifier? at h
  dsimp only at h
  split at h
  · cases h
  · rename_i c rest heq
    split at h
    · rename_i hstart
      cases h
      simp only [Bool.and_eq_true, Bool.not_eq_true', List.contains_eq_mem,
        decide_eq_false_iff_not] at hstart
      exact ⟨c, rest, heq, hstart.1, hstart.2, rfl⟩
    · cases h

theorem identifier?_bounds {text : List Char} {count : Nat} (h : identifier? text = some count) :
    0 < count ∧ count ≤ text.length := by
  obtain ⟨c, rest, hahead, -, -, rfl⟩ := exists_of_identifier? h
  refine ⟨?_, (List.takeWhile_sublist _).length_le⟩
  rw [hahead, List.length_cons]
  exact Nat.succ_pos _

theorem identifier?_cons {c : Char} (h : isIdentStart c = false) (rest : List Char) :
    identifier? (c :: rest) = none := by
  cases hword : identifier? (c :: rest) with
  | none => rfl
  | some count =>
      obtain ⟨d, tail, hahead, hstart, -⟩ := exists_of_identifier? hword
      rw [wordAhead, List.takeWhile_cons] at hahead
      split at hahead
      · cases hahead
        exact absurd (h.symm.trans hstart) (by decide)
      · cases hahead

theorem identifier?_keyword {word : String} {rest : List Char} (hmem : word ∈ keywords)
    (hword : word.toList.all isIdentChar = true) (hrest : StopsWord rest) :
    identifier? (word.toList ++ rest) = none := by
  cases hidentifier : identifier? (word.toList ++ rest) with
  | none => rfl
  | some count =>
      obtain ⟨-, -, -, -, hkeyword, -⟩ := exists_of_identifier? hidentifier
      rw [wordAhead_append hword hrest, String.ofList_toList] at hkeyword
      exact absurd hmem hkeyword

theorem isIdentifier_of_identifier? {text : List Char} {count : Nat}
    (h : identifier? text = some count) : IsIdentifier (String.ofList (text.take count)) := by
  obtain ⟨-, -, -, -, -, rfl⟩ := exists_of_identifier? h
  have htake : text.take (wordAhead text).length = wordAhead text :=
    (List.prefix_iff_eq_take.mp (List.takeWhile_prefix _)).symm
  rw [IsIdentifier, String.toList_ofList, htake, identifier?_wordAhead, h]

theorem exists_append_of_identifier? {text : List Char} {count : Nat}
    (h : identifier? text = some count) :
    ∃ name rest, IsIdentifier name ∧ StopsWord rest ∧ text = name.toList ++ rest := by
  obtain ⟨-, -, -, -, -, hcount⟩ := exists_of_identifier? h
  have hrest : text.drop count = text.dropWhile isIdentChar := by
    rw [hcount, wordAhead, drop_length_takeWhile]
  refine ⟨_, text.drop count, isIdentifier_of_identifier? h, ?_, ?_⟩
  · rw [hrest]
    cases hdrop : text.dropWhile isIdentChar with
    | nil => trivial
    | cons c rest => exact not_accepts_of_dropWhile hdrop
  · rw [String.toList_ofList, List.take_append_drop]

namespace IsIdentifier

variable {name : String} (h : IsIdentifier name)

include h

theorem wordAhead_eq : wordAhead name.toList = name.toList := by
  obtain ⟨-, -, -, -, -, hlength⟩ := exists_of_identifier? h
  have hprefix : wordAhead name.toList <+: name.toList := List.takeWhile_prefix _
  exact hprefix.eq_of_length hlength.symm

theorem all_isIdentChar : name.toList.all isIdentChar = true := by
  have hall := all_wordAhead name.toList
  rwa [h.wordAhead_eq] at hall

theorem identifier?_append {rest : List Char} (hrest : StopsWord rest) :
    identifier? (name.toList ++ rest) = some name.toList.length := by
  rw [← identifier?_wordAhead, wordAhead_append h.all_isIdentChar hrest]
  exact h

theorem exists_cons : ∃ c rest, name.toList = c :: rest ∧ isIdentStart c = true := by
  obtain ⟨c, rest, heq, hstart, -⟩ := exists_of_identifier? h
  rw [h.wordAhead_eq] at heq
  exact ⟨c, rest, heq, hstart⟩

theorem head?_append_ne {c : Char} (hc : isIdentStart c = false) (rest : List Char) :
    (name.toList ++ rest).head? ≠ some c := by
  obtain ⟨first, others, heq, hstart⟩ := h.exists_cons
  rw [heq]
  intro hhead
  cases hhead
  exact absurd (hstart.symm.trans hc) (by decide)

end IsIdentifier

theorem isIdentifier_iff {name : String} :
    IsIdentifier name ↔ (∀ c ∈ name.toList, isIdentChar c = true) ∧
      (∃ c, name.toList.head? = some c ∧ isIdentStart c = true) ∧ name ∉ keywords := by
  constructor
  · intro h
    obtain ⟨c, rest, hword, hstart, hkeyword, -⟩ := exists_of_identifier? h
    rw [h.wordAhead_eq] at hword hkeyword
    rw [String.ofList_toList] at hkeyword
    exact ⟨List.all_eq_true.mp h.all_isIdentChar, ⟨c, by rw [hword, List.head?_cons], hstart⟩, hkeyword⟩
  · rintro ⟨hall, ⟨c, hhead, hstart⟩, hkeyword⟩
    have hword : wordAhead name.toList = name.toList := by
      have happend := wordAhead_append (List.all_eq_true.mpr hall) (show StopsWord [] from trivial)
      rwa [List.append_nil] at happend
    obtain ⟨rest, hname⟩ := List.head?_eq_some_iff.mp hhead
    have hkept : (isIdentStart c && !keywords.contains name) = true := by
      simp [hstart, hkeyword]
    unfold IsIdentifier identifier?
    dsimp only
    rw [hword, String.ofList_toList]
    split
    · rename_i hnil
      exact nomatch hnil.symm.trans hname
    · rename_i first others hcons
      obtain ⟨rfl, rfl⟩ := List.cons.inj (hcons.symm.trans hname)
      rw [if_pos hkept]

end Lexeme

open Lexeme

namespace Grammar

variable {α : Type} {mode : Mode} {p : Parser α} {text middle rest : List Char}

open GoTrace.Parser

theorem reads_gap (text : List Char) :
    Reads gap .spaced text (skipBlanks text) fun _ => True :=
  Reads.gapBy blanks

theorem reads_gap_none (h : skipBlanks text = text) : Reads gap .spaced text text fun _ => True := by
  have hgap := reads_gap text
  rwa [h] at hgap

/-! ## Marks -/

theorem reads_mark {word : String} {c : Char} (hword : word.toList = [c]) (rest : List Char) :
    Reads (mark word) mode (c :: rest) rest fun _ => True := by
  have hliteral : Reads (literal word) mode _ rest _ := Reads.literal word rest
  rwa [hword] at hliteral

theorem head?_ne {text : List Char} {first c : Char} (h : text.head? = some first)
    (hne : first ≠ c) : text.head? ≠ some c := by
  rw [h]
  exact fun heq => hne (Option.some.inj heq)

theorem refuses_mark {word : String} {c : Char} (hword : word.toList.head? = some c)
    (h : text.head? ≠ some c) : Refuses (mark word) mode text := by
  refine Refuses.literal ?_
  cases hchars : word.toList with
  | nil => simp [hchars] at hword
  | cons first others =>
      rw [hchars] at hword
      cases hword
      cases text with
      | nil => rfl
      | cons other rest =>
          have hne : (c == other) = false := by
            rw [beq_eq_false_iff_ne]
            rintro rfl
            exact h rfl
          simp [List.isPrefixOf, hne]

/-! ## Names and keywords -/

theorem reads_identifier {name : String} (h : IsIdentifier name) (hrest : StopsWord rest) :
    Reads identifier mode (name.toList ++ rest) rest (·.name = name) := by
  have htake : Reads (take identifier?) mode (name.toList ++ rest) _ _ :=
    Reads.take (h.identifier?_append hrest)
  rw [List.drop_left] at htake
  refine Reads.rule (htake.captured.bind fun value hvalue => ?_)
  refine (Reads.pure _).weaken fun ident hident => ?_
  rw [hident, hvalue, String.ofList_toList]

theorem refuses_identifier (h : identifier? text = none) : Refuses identifier mode text :=
  ((Refuses.take h).captured.bind_left).rule

theorem reads_keyword {name : Rule} {word : String} (hword : word.toList.all isIdentChar = true)
    (hrest : StopsWord rest) :
    Reads (keyword name word) mode (word.toList ++ rest) rest fun _ => True := by
  have hmeasure : word? word (word.toList ++ rest) = some word.toList.length := by
    rw [word?, if_pos (wordAhead_append hword hrest)]
  have htake : Reads (take (word? word)) mode (word.toList ++ rest) _ _ := Reads.take hmeasure
  rw [List.drop_left] at htake
  exact htake.rule

theorem refuses_keyword {name : Rule} {word : String} (h : wordAhead text ≠ word.toList) :
    Refuses (keyword name word) mode text :=
  (Refuses.take (by rw [word?, if_neg h])).rule

theorem found_gap_none (h : skipBlanks text = text) (start : Mark) :
    ((do gap; p) .spaced ⟨text, start⟩).found = (p .spaced ⟨text, start⟩).found := by
  have hcursor : (⟨text, start⟩ : Cursor).skip (blanks text) = ⟨text, start⟩ := by
    have hdrop : text.drop (blanks text) = text := h
    have htake : text.take (blanks text) = [] := by
      have happend := List.take_append_drop (blanks text) text
      rw [hdrop] at happend
      exact List.append_left_eq_self.mp happend
    rw [Cursor.skip, hdrop, htake]
    rfl
  rw [found_bind, gap, found_gapBy, if_pos rfl, hcursor, Option.bind_some]
  cases (p .spaced ⟨text, start⟩).found with
  | none => rfl
  | some found =>
      obtain ⟨value, next, fault⟩ := found
      cases fault <;> rfl

theorem reads_repeated {accepts : List (α → Prop)}
    (h : Rounds (do gap; p) .spaced text accepts rest) (htext : skipBlanks text = text) :
    Reads (repeated p) .spaced text rest (Meets accepts) := by
  cases h with
  | stop hrefuses =>
      have hp : Refuses p .spaced text := fun start => by
        rw [← found_gap_none htext]
        exact hrefuses start
      refine ((Reads.pure []).orElse_right hp.bind_left).weaken fun values hvalues => ?_
      rw [hvalues]
      exact .nil
  | @step _ middle _ accept _ hreads hshorter hrounds =>
      have hp : Reads p .spaced text middle accept := fun start => by
        rw [← found_gap_none htext]
        exact hreads start
      refine Reads.orElse_left (hp.bind fun value hvalue => ?_)
      refine hrounds.many.bind fun values hvalues => ?_
      refine (Reads.pure _).weaken fun all hall => ?_
      rw [hall]
      exact .cons hvalue hvalues

theorem refuses_newlines (h : newline? text = none) : Refuses newlines .spaced text :=
  (Refuses.take h).bind_left

end Grammar

end GoTrace
