import GoTrace.Proofs.Grammar.Delimited
import GoTrace.Proofs.Literal.Quoted

/-!
# Where groups are read

Texts that are put together from loose characters, quoted texts and groups in brackets. Every bracket in
them is closed again, so they can stand in the body of a function.
-/

namespace GoTrace.Grammar

open GoTrace.Lexeme GoTrace.Parser

/-- A character that starts no group, no quoted text and no comment, and closes nothing. -/
def isLoose (c : Char) : Bool :=
  !(['(', ')', '[', ']', '\x7b', '\x7d', '"', '\'', '\x60', '/'].contains c)

/-- Texts in which every bracket and every quote is closed again. -/
inductive Balanced : List Char → Prop
  | nil : Balanced []
  | loose {c : Char} {rest : List Char} : isLoose c = true → Balanced rest → Balanced (c :: rest)
  | group {opening closing : Char} {inside rest : List Char} :
      (opening, closing) ∈ groupMarks → Balanced inside → Balanced rest →
        Balanced (opening :: (inside ++ closing :: rest))
  | quoted {rest : List Char} (text : String) :
      Balanced rest → Balanced ((Text.quote text).toList ++ rest)

namespace Balanced

theorem of_all {text : List Char} (h : text.all isLoose = true) : Balanced text := by
  induction text with
  | nil => exact .nil
  | cons c rest ih =>
      rw [List.all_cons, Bool.and_eq_true] at h
      exact .loose h.1 (ih h.2)

theorem append {first second : List Char} (h : Balanced first) (h' : Balanced second) :
    Balanced (first ++ second) := by
  induction h with
  | nil => exact h'
  | loose hc _ ih => exact .loose hc ih
  | group hmarks hinside _ _ ih =>
      rw [List.cons_append, List.append_assoc]
      exact .group hmarks hinside ih
  | quoted text _ ih =>
      rw [List.append_assoc]
      exact .quoted text ih

theorem parens {inside : List Char} (h : Balanced inside) : Balanced ('(' :: (inside ++ [')'])) :=
  .group (by decide) h .nil

theorem braces {inside : List Char} (h : Balanced inside) :
    Balanced ('\x7b' :: (inside ++ ['\x7d'])) :=
  .group (by decide) h .nil

end Balanced

variable {mode : Mode} {text rest : List Char}

theorem reads_stringLiteral (word : String) (rest : List Char) :
    Reads stringLiteral mode ((Text.quote word).toList ++ rest) rest
      fun value => value.1 = (Text.quote word).toList := by
  have htake : Reads (take (quoted? '"')) .tight ((Text.quote word).toList ++ rest) _ _ :=
    Reads.take (quoted?_quote word rest)
  rw [List.drop_left] at htake
  exact Reads.tight (Reads.rule (Reads.captured (.orElse_left htake.rule)))

theorem isLiteral_quote (text : String) : IsLiteral (Text.quote text).toList := by
  refine isLiteral_of_quoted? ?_
  have hquoted := quoted?_quote text []
  rwa [List.append_nil] at hquoted

theorem Balanced.delimited (h : Balanced text) : Delimited text := by
  induction h with
  | nil => exact .nil
  | @loose c rest hc _ ih =>
      have hmarks := hc
      simp only [isLoose, Bool.not_eq_true', List.contains_eq_mem, decide_eq_false_iff_not,
        List.mem_cons, not_or] at hmarks
      have hunmarked : isUnmarked c = true := by
        simp [isUnmarked, hmarks]
      exact .character hunmarked (fun heq => absurd heq hmarks.2.2.2.2.2.2.2.2.2.1) ih
  | group hmarks _ _ ihInside ih => exact .group hmarks ihInside ih
  | quoted text _ ih => exact .literal (isLiteral_quote text) ih

end GoTrace.Grammar
