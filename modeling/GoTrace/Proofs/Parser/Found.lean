import GoTrace.Grammar.Word

/-!
# What combinators find

The answer of every combinator in terms of the answers of its parts. What a parser failed at never
decides what it finds, so these equations speak of `Reply.found` alone. Nothing later opens a
combinator.
-/

namespace GoTrace.Parser

variable {α β : Type} (mode : Mode) (cursor : Cursor)

@[simp] theorem found_pure (value : α) :
    ((pure value : Parser α) mode cursor).found = some ⟨value, cursor, none⟩ := rfl

/-- A sequence finds what its second part finds, with the earlier fault of the two. -/
theorem found_bind (p : Parser α) (f : α → Parser β) :
    ((p >>= f) mode cursor).found = (p mode cursor).found.bind fun first =>
      (f first.value mode first.next).found.map fun second =>
        ⟨second.value, second.next, first.fault <|> second.fault⟩ := by
  simp only [bind, andThen]
  split <;> simp_all

theorem found_orElse (p q : Parser α) :
    ((p <|> q) mode cursor).found = (p mode cursor).found.or (q mode cursor).found := by
  change (orElse p (fun _ => q) mode cursor).found = _
  unfold orElse
  split <;> simp_all

theorem found_map (f : α → β) (p : Parser α) :
    ((f <$> p) mode cursor).found =
      (p mode cursor).found.map fun found => ⟨f found.value, found.next, found.fault⟩ := by
  change ((p >>= fun value => pure (f value)) mode cursor).found = _
  rw [found_bind]
  cases (p mode cursor).found with
  | none => rfl
  | some found => cases hfault : found.fault <;> simp [hfault]

theorem found_optional (p : Parser α) :
    (optional p mode cursor).found =
      ((p mode cursor).found.map fun found => ⟨some found.value, found.next, found.fault⟩).or
        (some ⟨none, cursor, none⟩) := by
  unfold optional
  rw [found_orElse, found_map, found_pure]

@[simp] theorem found_tight (p : Parser α) :
    (tight p mode cursor).found = (p .tight cursor).found := rfl

@[simp] theorem found_hidden (p : Parser α) :
    (hidden p mode cursor).found = (p .hidden cursor).found := rfl

@[simp] theorem found_rule (name : Rule) (p : Parser α) :
    (rule name p mode cursor).found = (p mode cursor).found := by
  unfold rule
  split <;> simp_all

theorem found_take (measure : List Char → Option Nat) :
    (take measure mode cursor).found =
      (measure cursor.rest).map fun count => ⟨(), cursor.skip count, none⟩ := by
  unfold take
  split <;> simp_all

theorem found_ahead (measure : List Char → Option Nat) :
    (ahead measure mode cursor).found =
      if (measure cursor.rest).isSome then some ⟨(), cursor, none⟩ else none := rfl

@[simp] theorem found_note (fault : Fault) :
    (note fault mode cursor).found = some ⟨(), cursor, some fault⟩ := rfl

theorem found_spanned (p : Parser α) :
    (spanned p mode cursor).found = (p mode cursor).found.map fun found =>
      ⟨(found.value, cursor.spanTo found.next), found.next, found.fault⟩ := rfl

theorem found_captured (p : Parser α) :
    (captured p mode cursor).found = (p mode cursor).found.map fun found =>
      ⟨(cursor.textTo found.next, cursor.spanTo found.next), found.next, found.fault⟩ := rfl

theorem found_gapBy (measure : List Char → Nat) :
    (gapBy measure mode cursor).found =
      some ⟨(), if mode = .spaced then cursor.skip (measure cursor.rest) else cursor, none⟩ := by
  cases mode <;> rfl

theorem found_repeatUpTo_succ (p : Parser α) (bound : Nat) :
    (repeatUpTo p (bound + 1) mode cursor).found =
      ((p mode cursor).found.bind fun first =>
        (repeatUpTo p bound mode first.next).found.map fun others =>
          ⟨first.value :: others.value, others.next, first.fault <|> others.fault⟩).or
        (some ⟨[], cursor, none⟩) := by
  rw [repeatUpTo, found_orElse, found_bind]
  congr 2
  funext first
  rw [found_bind]
  cases (repeatUpTo p bound mode first.next).found with
  | none => rfl
  | some others => cases hfault : others.fault <;> simp [hfault]

theorem found_repeatFrom_furthest (p : Parser Unit) (bound : Nat) (found : Found Unit)
    (furthest other : Furthest) :
    (repeatFrom p mode bound found furthest).found =
      (repeatFrom p mode bound found other).found := by
  induction bound generalizing found furthest other with
  | zero => rfl
  | succ bound ih =>
      rw [repeatFrom, repeatFrom]
      split
      · rfl
      · exact ih _ _ _

theorem found_repeatFrom_succ (p : Parser Unit) (bound : Nat) (found : Found Unit)
    (furthest : Furthest) :
    (repeatFrom p mode (bound + 1) found furthest).found =
      match (p mode found.next).found with
      | none => some found
      | some next =>
          (repeatFrom p mode bound ⟨(), next.next, found.fault <|> next.fault⟩ furthest).found := by
  rw [repeatFrom]
  split <;> rename_i h <;> rw [h]
  exact found_repeatFrom_furthest _ _ _ _ _ _

end GoTrace.Parser
