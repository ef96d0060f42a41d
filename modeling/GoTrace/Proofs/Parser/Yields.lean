import GoTrace.Proofs.Parser.Found

/-!
# What values a parser can find

A property of every value that a parser finds, whatever text it is put to. There is one lemma for
every combinator, so that a property of syntax is shown by following the rules of the grammar.
-/

namespace GoTrace.Parser

variable {α β : Type}

def Yields (p : Parser α) (accept : α → Prop) : Prop :=
  ∀ ⦃mode cursor found⦄, (p mode cursor).found = some found → accept found.value

namespace Yields

variable {p q : Parser α} {accept : α → Prop}

theorem anything (p : Parser α) : Yields p fun _ => True := fun _ _ _ _ => trivial

theorem pure {value : α} (h : accept value) : Yields (Pure.pure value) accept := by
  intro mode cursor found hfound
  cases hfound
  exact h

theorem bind {f : α → Parser β} {accept' : β → Prop} (h : Yields p accept)
    (h' : ∀ value, accept value → Yields (f value) accept') : Yields (p >>= f) accept' := by
  intro mode cursor found hfound
  simp only [found_bind, Option.bind_eq_some_iff, Option.map_eq_some_iff] at hfound
  obtain ⟨first, hfirst, second, hsecond, rfl⟩ := hfound
  exact (h' _ (h hfirst) hsecond :)

theorem after {f : α → Parser β} {accept' : β → Prop} (h : ∀ value, Yields (f value) accept') :
    Yields (p >>= f) accept' :=
  (anything p).bind fun value _ => h value

theorem map {f : α → β} {accept' : β → Prop} (h : Yields p accept)
    (himp : ∀ value, accept value → accept' (f value)) : Yields (f <$> p) accept' := by
  intro mode cursor found hfound
  rw [found_map, Option.map_eq_some_iff] at hfound
  obtain ⟨inner, hinner, rfl⟩ := hfound
  exact himp _ (h hinner)

theorem orElse (hp : Yields p accept) (hq : Yields q accept) : Yields (p <|> q) accept := by
  intro mode cursor found hfound
  rw [found_orElse, Option.or_eq_some_iff] at hfound
  rcases hfound with hfound | ⟨-, hfound⟩
  · exact hp hfound
  · exact hq hfound

theorem optional (h : Yields p accept) :
    Yields (p.optional) fun value? => ∀ value, value? = some value → accept value := by
  refine orElse (h.map fun value hvalue other heq => ?_) (pure nofun)
  cases heq
  exact hvalue

theorem rule {name : Rule} (h : Yields p accept) : Yields (p.rule name) accept := by
  intro mode cursor found hfound
  rw [found_rule] at hfound
  exact h hfound

theorem tight (h : Yields p accept) : Yields p.tight accept := fun _ _ _ hfound => h hfound

theorem spanned (h : Yields p accept) : Yields p.spanned fun value => accept value.1 := by
  intro mode cursor found hfound
  rw [found_spanned, Option.map_eq_some_iff] at hfound
  obtain ⟨inner, hinner, rfl⟩ := hfound
  exact h hinner

theorem node {name : Rule} {build : α × Span → Parser β} (accept : α → Prop) {accept' : β → Prop}
    (h : Yields p accept) (h' : ∀ value span, accept value → Yields (build (value, span)) accept') :
    Yields (Parser.spanned (Parser.rule name p) >>= build) accept' :=
  (rule h).spanned.bind fun value hvalue => h' value.1 value.2 hvalue

theorem repeatUpTo (h : Yields p accept) (bound : Nat) :
    Yields (p.repeatUpTo bound) fun values => ∀ value ∈ values, accept value := by
  induction bound with
  | zero => exact pure nofun
  | succ bound ih =>
      refine orElse (h.bind fun value hvalue => ih.bind fun values hvalues => pure ?_) (pure nofun)
      exact List.forall_mem_cons.mpr ⟨hvalue, hvalues⟩

theorem many (h : Yields p accept) :
    Yields p.many fun values => ∀ value ∈ values, accept value :=
  fun _ _ _ hfound => h.repeatUpTo _ hfound

end Yields

end GoTrace.Parser
