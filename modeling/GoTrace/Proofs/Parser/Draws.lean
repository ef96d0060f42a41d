import GoTrace.Proofs.Parser.Progress

/-!
# What parsers draw from a text

A property of the values that a parser finds in texts of certain characters. It is passed on from part
to part because a cursor only moves forward: what is left of such a text has no other characters.
-/

namespace GoTrace.Parser

variable {α β : Type} {allowed : Char → Prop}

/-- Put to a text of allowed characters, the parser finds what satisfies `accept`, and leaves such a
text. -/
def Draws (allowed : Char → Prop) (p : Parser α) (accept : α → Prop) : Prop :=
  ∀ ⦃mode cursor found⦄, (∀ c ∈ cursor.rest, allowed c) → (p mode cursor).found = some found →
    accept found.value ∧ ∀ c ∈ found.next.rest, allowed c

theorem forall_of_precedes {start stop : Cursor} (h : start.Precedes stop)
    (hallowed : ∀ c ∈ start.rest, allowed c) : ∀ c ∈ stop.rest, allowed c := by
  obtain ⟨taken, hrest, -⟩ := h
  intro c hc
  refine hallowed c ?_
  rw [hrest]
  exact List.mem_append_right _ hc

namespace Draws

variable {p q : Parser α} {accept : α → Prop}

theorem anything (p : Parser α) [Advances p] : Draws allowed p fun _ => True :=
  fun _ _ _ hallowed hfound => ⟨trivial, forall_of_precedes (Advances.precedes hfound) hallowed⟩

theorem pure {value : α} (h : accept value) : Draws allowed (Pure.pure value) accept := by
  intro mode cursor found hallowed hfound
  cases hfound
  exact ⟨h, hallowed⟩

theorem bind {f : α → Parser β} {accept' : β → Prop} (h : Draws allowed p accept)
    (h' : ∀ value, accept value → Draws allowed (f value) accept') :
    Draws allowed (p >>= f) accept' := by
  intro mode cursor found hallowed hfound
  simp only [found_bind, Option.bind_eq_some_iff, Option.map_eq_some_iff] at hfound
  obtain ⟨first, hfirst, second, hsecond, rfl⟩ := hfound
  obtain ⟨haccept, hrest⟩ := h hallowed hfirst
  exact (h' _ haccept hrest hsecond :)

theorem after [Advances p] {f : α → Parser β} {accept' : β → Prop}
    (h : ∀ value, Draws allowed (f value) accept') : Draws allowed (p >>= f) accept' :=
  (anything p).bind fun value _ => h value

theorem map {f : α → β} {accept' : β → Prop} (h : Draws allowed p accept)
    (himp : ∀ value, accept value → accept' (f value)) : Draws allowed (f <$> p) accept' := by
  intro mode cursor found hallowed hfound
  rw [found_map, Option.map_eq_some_iff] at hfound
  obtain ⟨inner, hinner, rfl⟩ := hfound
  exact (h hallowed hinner).imp_left (himp _)

theorem orElse (hp : Draws allowed p accept) (hq : Draws allowed q accept) :
    Draws allowed (p <|> q) accept := by
  intro mode cursor found hallowed hfound
  rw [found_orElse, Option.or_eq_some_iff] at hfound
  rcases hfound with hfound | ⟨-, hfound⟩
  · exact hp hallowed hfound
  · exact hq hallowed hfound

theorem optional (h : Draws allowed p accept) :
    Draws allowed (p.optional) fun value? => ∀ value, value? = some value → accept value := by
  refine orElse (h.map fun value hvalue other heq => ?_) (pure nofun)
  cases heq
  exact hvalue

theorem rule {name : Rule} (h : Draws allowed p accept) : Draws allowed (p.rule name) accept := by
  intro mode cursor found hallowed hfound
  rw [found_rule] at hfound
  exact h hallowed hfound

theorem hidden (h : Draws allowed p accept) : Draws allowed p.hidden accept :=
  fun _ _ _ hallowed hfound => h hallowed hfound

theorem spanned (h : Draws allowed p accept) :
    Draws allowed p.spanned fun value => accept value.1 := by
  intro mode cursor found hallowed hfound
  rw [found_spanned, Option.map_eq_some_iff] at hfound
  obtain ⟨inner, hinner, rfl⟩ := hfound
  exact h hallowed hinner

theorem node {name : Rule} {build : α × Span → Parser β} (accept : α → Prop) {accept' : β → Prop}
    (h : Draws allowed p accept)
    (h' : ∀ value span, accept value → Draws allowed (build (value, span)) accept') :
    Draws allowed (Parser.spanned (Parser.rule name p) >>= build) accept' :=
  (rule h).spanned.bind fun value hvalue => h' value.1 value.2 hvalue

theorem captured (p : Parser α) [Advances p] :
    Draws allowed p.captured fun value => ∀ c ∈ value.1, allowed c := by
  intro mode cursor found hallowed hfound
  rw [found_captured, Option.map_eq_some_iff] at hfound
  obtain ⟨inner, hinner, rfl⟩ := hfound
  have hahead : cursor.Precedes inner.next := Advances.precedes hinner
  exact ⟨fun c hc => hallowed c (List.mem_of_mem_take hc), forall_of_precedes hahead hallowed⟩

theorem repeatUpTo (h : Draws allowed p accept) (bound : Nat) :
    Draws allowed (p.repeatUpTo bound) fun values => ∀ value ∈ values, accept value := by
  induction bound with
  | zero => exact pure nofun
  | succ bound ih =>
      refine orElse (h.bind fun value hvalue => ih.bind fun values hvalues => pure ?_) (pure nofun)
      exact List.forall_mem_cons.mpr ⟨hvalue, hvalues⟩

theorem many (h : Draws allowed p accept) :
    Draws allowed p.many fun values => ∀ value ∈ values, accept value :=
  fun _ _ _ hallowed hfound => h.repeatUpTo _ hallowed hfound

end Draws

end GoTrace.Parser
