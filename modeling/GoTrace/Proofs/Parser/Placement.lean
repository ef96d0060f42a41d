import GoTrace.Proofs.Parser.Reads
import GoTrace.Proofs.Syntax.Bare

/-!
# Reading a text at two places

A parser looks at the text ahead only, and never at the place where it stands. Wherever a text stands
in a file, the same of it is read and what is found is the same but for its spans. One lemma for every
combinator carries the fact from the parts of a rule to the rule.
-/

namespace GoTrace.Parser

variable {α β : Type} [Placed α] [Placed β]

/-- Two findings that differ in positions only. -/
structure Alike (first second : Found α) : Prop where
  value : bare first.value = bare second.value
  rest : first.next.rest = second.next.rest
  fault : first.fault.isSome = second.fault.isSome

/-- Two parsers find the same in every text, wherever it stands for the one and for the other. -/
def Agree (p q : Parser α) : Prop :=
  ∀ mode text start start',
    Option.Rel Alike (p mode ⟨text, start⟩).found (q mode ⟨text, start'⟩).found

theorem or_isSome {first first' second second' : Option Fault} (h : first.isSome = first'.isSome)
    (h' : second.isSome = second'.isSome) :
    (first <|> second).isSome = (first' <|> second').isSome := by
  revert h h'
  cases first <;> cases first' <;> simp

namespace Agree

variable {p p' q q' : Parser α}

/-- At two places of the same text either both find nothing or both find the same. -/
theorem found (h : Agree p q) (mode : Mode) (first second : Cursor)
    (hrest : first.rest = second.rest) :
    (p mode first).found = none ∧ (q mode second).found = none ∨
      ∃ found found', (p mode first).found = some found ∧ (q mode second).found = some found' ∧
        Alike found found' := by
  obtain ⟨text, start⟩ := first
  obtain ⟨text', start'⟩ := second
  obtain rfl : text = text' := hrest
  have hrel := h mode text start start'
  generalize (p mode ⟨text, start⟩).found = one at hrel ⊢
  generalize (q mode ⟨text, start'⟩).found = other at hrel ⊢
  cases hrel with
  | none => exact .inl ⟨rfl, rfl⟩
  | some halike => exact .inr ⟨_, _, rfl, rfl, halike⟩

theorem pure {value value' : α} (h : bare value = bare value') :
    Agree (Pure.pure value) (Pure.pure value') := by
  intro mode text start start'
  rw [found_pure, found_pure]
  exact .some ⟨h, rfl, rfl⟩

theorem bind {f g : α → Parser β} (h : Agree p q)
    (h' : ∀ value value', bare value = bare value' → Agree (f value) (g value')) :
    Agree (p >>= f) (q >>= g) := by
  intro mode text start start'
  rw [found_bind, found_bind]
  obtain ⟨hnone, hnone'⟩ | ⟨first, first', hfirst, hfirst', halike⟩ :=
    h.found mode ⟨text, start⟩ ⟨text, start'⟩ rfl
  · rw [hnone, hnone']
    exact .none
  · rw [hfirst, hfirst', Option.bind_some, Option.bind_some]
    obtain ⟨hnone, hnone'⟩ | ⟨second, second', hsecond, hsecond', hbehind⟩ :=
      (h' _ _ halike.value).found mode _ _ halike.rest
    · rw [hnone, hnone']
      exact .none
    · rw [hsecond, hsecond']
      exact .some ⟨hbehind.value, hbehind.rest, or_isSome halike.fault hbehind.fault⟩

theorem after {f g : α → Parser β} (h : Agree p q) (h' : ∀ value value', Agree (f value) (g value')) :
    Agree (p >>= f) (q >>= g) :=
  h.bind fun value value' _ => h' value value'

theorem mapFound {change change' : Found α → Found β}
    {mode : Mode} {text : List Char} {start start' : Mark} (h : Agree p q)
    (h' : ∀ found found', Alike found found' → Alike (change found) (change' found')) :
    Option.Rel Alike ((p mode ⟨text, start⟩).found.map change)
      ((q mode ⟨text, start'⟩).found.map change') := by
  obtain ⟨hnone, hnone'⟩ | ⟨found, found', hfound, hfound', halike⟩ :=
    h.found mode ⟨text, start⟩ ⟨text, start'⟩ rfl
  · rw [hnone, hnone']
    exact .none
  · rw [hfound, hfound']
    exact .some (h' _ _ halike)

theorem map {f g : α → β} (h : Agree p q)
    (h' : ∀ value value', bare value = bare value' → bare (f value) = bare (g value')) :
    Agree (f <$> p) (g <$> q) := by
  intro mode text start start'
  rw [found_map, found_map]
  exact h.mapFound fun _ _ halike => ⟨h' _ _ halike.value, halike.rest, halike.fault⟩

theorem orElse (h : Agree p q) (h' : Agree p' q') : Agree (p <|> p') (q <|> q') := by
  intro mode text start start'
  rw [found_orElse, found_orElse]
  obtain ⟨hnone, hnone'⟩ | ⟨found, found', hfound, hfound', halike⟩ :=
    h.found mode ⟨text, start⟩ ⟨text, start'⟩ rfl
  · rw [hnone, hnone']
    exact h' mode text start start'
  · rw [hfound, hfound']
    exact .some halike

theorem optional (h : Agree p q) : Agree (optional p) (optional q) :=
  orElse (h.map fun _ _ heq => congrArg some heq) (pure rfl)

theorem tight (h : Agree p q) : Agree (tight p) (tight q) :=
  fun _ text start start' => h .tight text start start'

theorem hidden (h : Agree p q) : Agree (hidden p) (hidden q) :=
  fun _ text start start' => h .hidden text start start'

theorem rule {name : Rule} (h : Agree p q) : Agree (rule name p) (rule name q) := by
  intro mode text start start'
  rw [found_rule, found_rule]
  exact h mode text start start'

theorem take (measure : List Char → Option Nat) : Agree (take measure) (take measure) := by
  intro mode text start start'
  rw [found_take, found_take]
  cases measure text with
  | none => exact .none
  | some count => exact .some ⟨rfl, rfl, rfl⟩

theorem ahead (measure : List Char → Option Nat) : Agree (ahead measure) (ahead measure) := by
  intro mode text start start'
  rw [found_ahead, found_ahead]
  cases (measure text).isSome with
  | false => exact .none
  | true => exact .some ⟨rfl, rfl, rfl⟩

theorem spanned (h : Agree p q) : Agree (spanned p) (spanned q) := by
  intro mode text start start'
  rw [found_spanned, found_spanned]
  refine h.mapFound fun _ _ halike => ⟨?_, halike.rest, halike.fault⟩
  rw [bare_pair, bare_pair, halike.value]
  rfl

theorem captured (h : Agree p q) : Agree (captured p) (captured q) := by
  intro mode text start start'
  rw [found_captured, found_captured]
  refine h.mapFound fun _ _ halike => ⟨?_, halike.rest, halike.fault⟩
  rw [bare_pair, bare_pair, Cursor.textTo, Cursor.textTo, halike.rest]
  rfl

theorem gapBy (measure : List Char → Nat) : Agree (gapBy measure) (gapBy measure) := by
  intro mode text start start'
  rw [found_gapBy, found_gapBy]
  refine .some ⟨rfl, ?_, rfl⟩
  split <;> rfl

theorem repeatFrom {p q : Parser Unit} (h : Agree p q) (mode : Mode) (bound : Nat)
    {found found' : Found Unit} (hfound : Alike found found') (furthest furthest' : Furthest) :
    Option.Rel Alike (repeatFrom p mode bound found furthest).found
      (repeatFrom q mode bound found' furthest').found := by
  induction bound generalizing found found' furthest furthest' with
  | zero => exact .some hfound
  | succ bound ih =>
      rw [found_repeatFrom_succ, found_repeatFrom_succ]
      obtain ⟨hnone, hnone'⟩ | ⟨next, next', hnext, hnext', halike⟩ := h.found mode _ _ hfound.rest
      · rw [hnone, hnone']
        exact .some hfound
      · rw [hnext, hnext']
        have hboth : Alike ⟨(), next.next, found.fault <|> next.fault⟩
            ⟨(), next'.next, found'.fault <|> next'.fault⟩ :=
          ⟨rfl, halike.rest, or_isSome hfound.fault halike.fault⟩
        exact ih hboth _ _

theorem skipMany {p q : Parser Unit} (h : Agree p q) : Agree (skipMany p) (skipMany q) := by
  intro mode text start start'
  have halike : Alike ⟨(), ⟨text, start⟩, none⟩ ⟨(), ⟨text, start'⟩, none⟩ := ⟨rfl, rfl, rfl⟩
  exact h.repeatFrom mode (text.length + 1) halike .none .none

end Agree

/-! ## From one place to all places -/

variable {p : Parser α} {mode : Mode} {text : List Char} {start : Mark}

theorem Agree.reads (h : Agree p p) {found : Found α} (hfound : (p mode ⟨text, start⟩).found = some found)
    (hfault : found.fault = none) :
    Reads p mode text found.next.rest fun value => bare value = bare found.value := by
  intro start'
  obtain ⟨hnone, -⟩ | ⟨one, other, hone, hother, halike⟩ :=
    h.found mode ⟨text, start⟩ ⟨text, start'⟩ rfl
  · rw [hfound] at hnone
    cases hnone
  · rw [hfound] at hone
    cases hone
    refine ⟨other, hother, halike.rest.symm, ?_, halike.value.symm⟩
    have hnone := halike.fault
    rwa [hfault, Option.isSome_none, eq_comm, Option.isSome_eq_false_iff, Option.isNone_iff_eq_none]
      at hnone

theorem Agree.refuses (h : Agree p p) (hfound : (p mode ⟨text, start⟩).found = none) :
    Refuses p mode text := by
  intro start'
  obtain ⟨-, hnone⟩ | ⟨one, other, hone, -, -⟩ :=
    h.found mode ⟨text, start⟩ ⟨text, start'⟩ rfl
  · exact hnone
  · rw [hfound] at hone
    cases hone

end GoTrace.Parser
