import GoTrace.Grammar.File
import GoTrace.Proofs.Parser.Found

/-!
# Parsers only move forward

Whatever a parser finds, its cursor has passed over characters of the text and over nothing else.
The fact is a class, so that the rules of the grammar inherit it from their parts.
-/

namespace GoTrace

namespace Cursor

/-- The later cursor stands behind characters that the earlier one has ahead. -/
def Precedes (start stop : Cursor) : Prop :=
  ∃ taken, start.rest = taken ++ stop.rest ∧ stop.mark = start.mark.past taken

theorem Precedes.refl (cursor : Cursor) : cursor.Precedes cursor := ⟨[], rfl, rfl⟩

theorem Precedes.trans {first second third : Cursor} (h : first.Precedes second)
    (h' : second.Precedes third) : first.Precedes third := by
  obtain ⟨taken, hrest, hmark⟩ := h
  obtain ⟨more, hrest', hmark'⟩ := h'
  refine ⟨taken ++ more, ?_, ?_⟩
  · rw [hrest, hrest', List.append_assoc]
  · rw [hmark', hmark, Mark.past, Mark.past, Mark.past, List.foldl_append]

theorem precedes_skip (cursor : Cursor) (count : Nat) : cursor.Precedes (cursor.skip count) :=
  ⟨cursor.rest.take count, (List.take_append_drop count cursor.rest).symm, rfl⟩

theorem Precedes.length_le {start stop : Cursor} (h : start.Precedes stop) :
    stop.rest.length ≤ start.rest.length := by
  obtain ⟨taken, hrest, -⟩ := h
  rw [hrest, List.length_append]
  omega

end Cursor

namespace Parser

variable {α β : Type}

/-- A parser whose cursor only moves forward. -/
class Advances (p : Parser α) : Prop where
  precedes : ∀ {mode cursor found}, (p mode cursor).found = some found →
    cursor.Precedes found.next

/-! ## Combinators -/

instance (value : α) : Advances (pure value : Parser α) where
  precedes h := by
    cases h
    exact .refl _

instance : Advances (fail : Parser α) where
  precedes h := nomatch h

instance (p : Parser α) (f : α → Parser β) [Advances p] [∀ a, Advances (f a)] :
    Advances (p >>= f) where
  precedes h := by
    simp only [found_bind, Option.bind_eq_some_iff, Option.map_eq_some_iff] at h
    obtain ⟨first, hfirst, second, hsecond, rfl⟩ := h
    have hahead : first.next.Precedes second.next := Advances.precedes hsecond
    exact (Advances.precedes hfirst).trans hahead

instance (p q : Parser α) [Advances p] [Advances q] : Advances (p <|> q) where
  precedes h := by
    rw [found_orElse, Option.or_eq_some_iff] at h
    rcases h with h | ⟨-, h⟩
    · exact Advances.precedes h
    · exact Advances.precedes h

instance (f : α → β) (p : Parser α) [Advances p] : Advances (f <$> p) where
  precedes h := by
    rw [found_map, Option.map_eq_some_iff] at h
    obtain ⟨found, hfound, rfl⟩ := h
    exact (Advances.precedes hfound :)

instance (p : Parser α) [Advances p] : Advances (optional p) := by
  unfold optional
  infer_instance

instance (p : Parser α) [Advances p] : Advances (tight p) where
  precedes h := Advances.precedes (p := p) h

instance (p : Parser α) [Advances p] : Advances (hidden p) where
  precedes h := Advances.precedes (p := p) h

instance (name : Rule) (p : Parser α) [Advances p] : Advances (rule name p) where
  precedes h := by
    rw [found_rule] at h
    exact Advances.precedes h

instance (measure : List Char → Option Nat) : Advances (take measure) where
  precedes h := by
    rw [found_take, Option.map_eq_some_iff] at h
    obtain ⟨count, -, rfl⟩ := h
    exact Cursor.precedes_skip _ _

instance (measure : List Char → Option Nat) : Advances (ahead measure) where
  precedes h := by
    simp only [found_ahead, Option.ite_none_right_eq_some, Option.some.injEq] at h
    obtain ⟨-, rfl⟩ := h
    exact .refl _

instance (word : String) : Advances (literal word) := by
  unfold literal
  infer_instance

instance : Advances atEnd := by
  unfold atEnd
  infer_instance

instance (fault : Fault) : Advances (note fault) where
  precedes h := by
    cases h
    exact .refl _

instance (p : Parser α) [Advances p] : Advances (spanned p) where
  precedes h := by
    rw [found_spanned, Option.map_eq_some_iff] at h
    obtain ⟨found, hfound, rfl⟩ := h
    exact (Advances.precedes hfound :)

instance (p : Parser α) [Advances p] : Advances (captured p) where
  precedes h := by
    rw [found_captured, Option.map_eq_some_iff] at h
    obtain ⟨found, hfound, rfl⟩ := h
    exact (Advances.precedes hfound :)

instance (measure : List Char → Nat) : Advances (gapBy measure) where
  precedes h := by
    rw [found_gapBy, Option.some.injEq] at h
    subst h
    split
    · exact Cursor.precedes_skip _ _
    · exact .refl _

instance (p : Parser α) [Advances p] (bound : Nat) : Advances (repeatUpTo p bound) := by
  induction bound with
  | zero => exact (inferInstance : Advances (pure [] : Parser (List α)))
  | succ bound ih =>
      unfold repeatUpTo
      infer_instance

instance (p : Parser α) [Advances p] : Advances (many p) where
  precedes h := Advances.precedes (p := repeatUpTo p _) h

theorem precedes_repeatFrom {p : Parser Unit} [Advances p] {mode : Mode} {bound : Nat}
    {start found : Found Unit} {furthest : Furthest}
    (h : (repeatFrom p mode bound start furthest).found = some found) :
    start.next.Precedes found.next := by
  induction bound generalizing start furthest with
  | zero =>
      cases h
      exact .refl _
  | succ bound ih =>
      rw [found_repeatFrom_succ] at h
      split at h
      · cases h
        exact .refl _
      · rename_i next hnext
        have hlater := ih h
        exact (Advances.precedes hnext).trans hlater

instance (p : Parser Unit) [Advances p] : Advances (skipMany p) where
  precedes h := by
    have hlater := precedes_repeatFrom h
    exact hlater

end Parser

end GoTrace
