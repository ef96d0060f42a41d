import GoTrace.Proofs.Literal.Decimal
import GoTrace.Proofs.Parser.Progress

/-!
# Where a parser breaks off

The text between the brackets of an array is read as an integer, which breaks off when its first two
bytes end inside a character. A parser that breaks off only there says so of all texts; the fact is a
class, so that the rules of the grammar inherit it from their parts.
-/

namespace GoTrace

open Lexeme

/-- Somewhere in the text stand brackets and between them, with only blanks and comments around it, a
text whose first two bytes end inside a character. -/
def SplitLength (text : List Char) : Prop :=
  ∃ before lead length trail after,
    text = before ++ '[' :: (lead ++ (length ++ (trail ++ ']' :: after))) ∧
      lead.length ≤ blanks (lead ++ (length ++ (trail ++ ']' :: after))) ∧
      trail.length ≤ blanks (trail ++ ']' :: after) ∧
      Literal.readInt (Text.trim length) = .splitCharacter

theorem SplitLength.append {text : List Char} (h : SplitLength text) (before : List Char) :
    SplitLength (before ++ text) := by
  obtain ⟨first, lead, length, trail, after, rfl, h⟩ := h
  exact ⟨before ++ first, lead, length, trail, after, (List.append_assoc _ _ _).symm, h⟩

theorem SplitLength.exists_wide {text : List Char} (h : SplitLength text) :
    ∃ c ∈ text, 1 < c.utf8Size := by
  obtain ⟨before, lead, length, trail, after, rfl, -, -, hread⟩ := h
  obtain ⟨c, hc, hwide⟩ := Literal.exists_wide_of_readInt hread
  have hlength : c ∈ length := Text.mem_of_mem_trim hc
  exact ⟨c, by simp [hlength], hwide⟩

theorem Cursor.Precedes.splitLength {start stop : Cursor} (h : start.Precedes stop)
    (hsplit : SplitLength stop.rest) : SplitLength start.rest := by
  obtain ⟨taken, hrest, -⟩ := h
  rw [hrest]
  exact hsplit.append taken

namespace Parser

variable {α β : Type}

/-- A parser that breaks off only over a length in brackets. -/
class Blames (p : Parser α) : Prop where
  splitLength : ∀ {mode cursor found}, (p mode cursor).found = some found →
    found.fault = some .splitCharacter → SplitLength cursor.rest

/-! ## Combinators -/

theorem orElse_eq_some {ε : Type} {first second : Option ε} {fault : ε}
    (h : (first <|> second) = some fault) : first = some fault ∨ second = some fault := by
  cases first with
  | none => exact .inr h
  | some other => exact .inl h

instance (value : α) : Blames (pure value : Parser α) where
  splitLength h hfault := by
    cases h
    cases hfault

instance : Blames (fail : Parser α) where
  splitLength h _ := nomatch h

instance (p : Parser α) (f : α → Parser β) [Advances p] [Blames p] [∀ a, Blames (f a)] :
    Blames (p >>= f) where
  splitLength h hfault := by
    simp only [found_bind, Option.bind_eq_some_iff, Option.map_eq_some_iff] at h
    obtain ⟨first, hfirst, second, hsecond, rfl⟩ := h
    rcases orElse_eq_some hfault with hfault | hfault
    · exact Blames.splitLength hfirst hfault
    · exact (Advances.precedes hfirst).splitLength (Blames.splitLength hsecond hfault)

instance (p q : Parser α) [Blames p] [Blames q] : Blames (p <|> q) where
  splitLength h hfault := by
    rw [found_orElse, Option.or_eq_some_iff] at h
    rcases h with h | ⟨-, h⟩
    · exact Blames.splitLength h hfault
    · exact Blames.splitLength h hfault

instance (f : α → β) (p : Parser α) [Blames p] : Blames (f <$> p) where
  splitLength h hfault := by
    rw [found_map, Option.map_eq_some_iff] at h
    obtain ⟨found, hfound, rfl⟩ := h
    exact Blames.splitLength hfound hfault

instance (p : Parser α) [Blames p] : Blames (optional p) := by
  unfold optional
  infer_instance

instance (p : Parser α) [Blames p] : Blames (tight p) where
  splitLength h := Blames.splitLength (p := p) h

instance (p : Parser α) [Blames p] : Blames (hidden p) where
  splitLength h := Blames.splitLength (p := p) h

instance (name : Rule) (p : Parser α) [Blames p] : Blames (rule name p) where
  splitLength h := by
    rw [found_rule] at h
    exact Blames.splitLength h

instance (measure : List Char → Option Nat) : Blames (take measure) where
  splitLength h hfault := by
    rw [found_take, Option.map_eq_some_iff] at h
    obtain ⟨count, -, rfl⟩ := h
    cases hfault

instance (measure : List Char → Option Nat) : Blames (ahead measure) where
  splitLength h hfault := by
    simp only [found_ahead, Option.ite_none_right_eq_some, Option.some.injEq] at h
    obtain ⟨-, rfl⟩ := h
    cases hfault

instance (word : String) : Blames (literal word) := by
  unfold literal
  infer_instance

instance : Blames atEnd := by
  unfold atEnd
  infer_instance

instance (text : String) (span : Span) : Blames (note (.invalidString text span)) where
  splitLength h hfault := by
    cases h
    cases hfault

instance (p : Parser α) [Blames p] : Blames (spanned p) where
  splitLength h hfault := by
    rw [found_spanned, Option.map_eq_some_iff] at h
    obtain ⟨found, hfound, rfl⟩ := h
    exact Blames.splitLength hfound hfault

instance (p : Parser α) [Blames p] : Blames (captured p) where
  splitLength h hfault := by
    rw [found_captured, Option.map_eq_some_iff] at h
    obtain ⟨found, hfound, rfl⟩ := h
    exact Blames.splitLength hfound hfault

instance (measure : List Char → Nat) : Blames (gapBy measure) where
  splitLength h hfault := by
    rw [found_gapBy, Option.some.injEq] at h
    subst h
    cases hfault

instance (p : Parser α) [Advances p] [Blames p] (bound : Nat) : Blames (repeatUpTo p bound) := by
  induction bound with
  | zero => exact (inferInstance : Blames (pure [] : Parser (List α)))
  | succ bound ih =>
      unfold repeatUpTo
      infer_instance

instance (p : Parser α) [Advances p] [Blames p] : Blames (many p) where
  splitLength h := Blames.splitLength (p := repeatUpTo p _) h

theorem splitLength_repeatFrom {p : Parser Unit} [Advances p] [Blames p] {mode : Mode}
    {bound : Nat} {start found : Found Unit} {furthest : Furthest}
    (h : (repeatFrom p mode bound start furthest).found = some found)
    (hfault : found.fault = some .splitCharacter) :
    start.fault = some .splitCharacter ∨ SplitLength start.next.rest := by
  induction bound generalizing start furthest with
  | zero =>
      cases h
      exact .inl hfault
  | succ bound ih =>
      rw [found_repeatFrom_succ] at h
      split at h
      · cases h
        exact .inl hfault
      · rename_i next hnext
        rcases ih h with hsplit | hsplit
        · exact (orElse_eq_some hsplit).imp_right (Blames.splitLength hnext)
        · exact .inr ((Advances.precedes hnext).splitLength hsplit)

instance (p : Parser Unit) [Advances p] [Blames p] : Blames (skipMany p) where
  splitLength h hfault := (splitLength_repeatFrom h hfault).resolve_left nofun

end Parser

end GoTrace
