import GoTrace.Proofs.Parser.Reads
import GoTrace.Proofs.Parser.Yields
import GoTrace.Syntax.Parse

/-!
# What a parser has found

Where a parser has found something without a fault, every part of it has. One lemma for each combinator
takes such a finding apart into those of its parts.
-/

namespace GoTrace.Parser

variable {α β : Type} {p q : Parser α} {mode : Mode} {cursor next : Cursor} {value : α}

/-- The parser finds the value without a fault and moves on to `next`. -/
def Finds (p : Parser α) (mode : Mode) (cursor : Cursor) (value : α) (next : Cursor) : Prop :=
  (p mode cursor).found = some ⟨value, next, none⟩

namespace Finds

theorem of_bind {f : α → Parser β} {value : β} (h : Finds (p >>= f) mode cursor value next) :
    ∃ first middle, Finds p mode cursor first middle ∧ Finds (f first) mode middle value next := by
  rw [Finds, found_bind, Option.bind_eq_some_iff] at h
  obtain ⟨⟨first, middle, fault⟩, hfirst, hmap⟩ := h
  obtain ⟨⟨second, last, fault'⟩, hsecond, heq⟩ := Option.map_eq_some_iff.mp hmap
  obtain ⟨rfl, rfl, hfault⟩ := Found.mk.inj heq
  cases fault with
  | none =>
      obtain rfl : fault' = none := hfault
      exact ⟨first, middle, hfirst, hsecond⟩
  | some fault => cases hfault

theorem of_pure {other : α} (h : Finds (pure other) mode cursor value next) :
    value = other ∧ next = cursor := by
  cases h
  exact ⟨rfl, rfl⟩

theorem of_orElse (h : Finds (p <|> q) mode cursor value next) :
    Finds p mode cursor value next ∨
      (p mode cursor).found = none ∧ Finds q mode cursor value next := by
  rw [Finds, found_orElse, Option.or_eq_some_iff] at h
  exact h

theorem of_orElse_right {text : List Char} {start : Mark}
    (h : Finds (p <|> q) mode ⟨text, start⟩ value next) (hp : Refuses p mode text) :
    Finds q mode ⟨text, start⟩ value next := by
  obtain hfound | ⟨-, hfound⟩ := h.of_orElse
  · rw [Finds, hp start] at hfound
    cases hfound
  · exact hfound

theorem of_orElse_yields {accept : α → Prop} (h : Finds (p <|> q) mode cursor value next)
    (hp : Yields p accept) (hvalue : ¬ accept value) : Finds q mode cursor value next := by
  rcases h.of_orElse with h | ⟨-, h⟩
  · exact absurd (hp h) hvalue
  · exact h

theorem of_map {f : α → β} {value : β} (h : Finds (f <$> p) mode cursor value next) :
    ∃ found, Finds p mode cursor found next ∧ value = f found := by
  rw [Finds, found_map, Option.map_eq_some_iff] at h
  obtain ⟨⟨found, last, fault⟩, hfound, heq⟩ := h
  obtain ⟨rfl, rfl, rfl⟩ := Found.mk.inj heq
  exact ⟨found, hfound, rfl⟩

theorem of_optional {value? : Option α} (h : Finds (optional p) mode cursor value? next) :
    (∃ value, value? = some value ∧ Finds p mode cursor value next) ∨ value? = none ∧ next = cursor := by
  rcases h.of_orElse with h | ⟨-, h⟩
  · obtain ⟨value, hvalue, heq⟩ := h.of_map
    exact .inl ⟨value, heq, hvalue⟩
  · exact .inr h.of_pure

theorem of_tight (h : Finds (tight p) mode cursor value next) : Finds p .tight cursor value next := h

theorem of_rule {name : Rule} (h : Finds (rule name p) mode cursor value next) :
    Finds p mode cursor value next := by
  rwa [Finds, found_rule] at h

theorem of_spanned {span : Span} (h : Finds (spanned p) mode cursor (value, span) next) :
    Finds p mode cursor value next := by
  rw [Finds, found_spanned, Option.map_eq_some_iff] at h
  obtain ⟨found, hfound, heq⟩ := h
  obtain ⟨hvalue, rfl, hfault⟩ := Found.mk.inj heq
  obtain ⟨rfl, -⟩ := Prod.mk.inj hvalue
  rw [Finds, hfound, ← hfault]

theorem of_reads {text rest : List Char} {start : Mark} {accept : α → Prop}
    (h : Finds p mode ⟨text, start⟩ value next) (hreads : Reads p mode text rest accept) :
    next.rest = rest ∧ accept value := by
  obtain ⟨found, hfound, hrest, -, haccept⟩ := hreads start
  rw [Finds, hfound, Option.some.injEq] at h
  subst h
  exact ⟨hrest, haccept⟩

end Finds

theorem Reads.finds {text rest : List Char} {accept : α → Prop} (h : Reads p mode text rest accept)
    (start : Mark) : ∃ value next, Finds p mode ⟨text, start⟩ value next ∧ next.rest = rest ∧
      accept value := by
  obtain ⟨⟨value, next, fault⟩, hfound, hrest, hfault, haccept⟩ := h start
  obtain rfl : fault = none := hfault
  exact ⟨value, next, hfound, hrest, haccept⟩

theorem finds_of_run {name text : String} (h : p.run name text = .ok value) :
    ∃ next, Finds p .spaced (Cursor.ofText text.toList) value next := by
  unfold run at h
  dsimp only at h
  split at h <;> cases h
  rename_i next furthest hreply
  exact ⟨next, congrArg Reply.found hreply⟩

theorem Refuses.run_ne {name text : String} (h : Refuses p .spaced text.toList) (value : α) :
    p.run name text ≠ .ok value := by
  intro hrun
  obtain ⟨next, hfinds⟩ := finds_of_run hrun
  rw [Finds, Cursor.ofText, h Mark.start] at hfinds
  cases hfinds

end GoTrace.Parser
