import GoTrace.Proofs.Parser.Progress
import Mathlib.Data.List.Forall2

/-!
# Reading a known text

What a parser makes of a text that is known: either it reads it down to a known rest and finds a
value with a known property, wherever in a file the text stands, or it refuses it. There is one
lemma of each kind for every combinator, so that what a rule of the grammar reads follows its shape.
-/

namespace GoTrace.Parser

variable {α β : Type}

/-- The parser reads `text` down to `rest`, without a fault, and finds a value that satisfies
`accept`. -/
def Reads (p : Parser α) (mode : Mode) (text rest : List Char) (accept : α → Prop) : Prop :=
  ∀ start, ∃ found, (p mode ⟨text, start⟩).found = some found ∧ found.next.rest = rest ∧
    found.fault = none ∧ accept found.value

def Refuses (p : Parser α) (mode : Mode) (text : List Char) : Prop :=
  ∀ start, (p mode ⟨text, start⟩).found = none

variable {p q : Parser α} {mode : Mode} {text middle rest : List Char} {accept : α → Prop}

namespace Reads

theorem length_le [Advances p] (h : Reads p mode text rest accept) : rest.length ≤ text.length := by
  obtain ⟨found, hfound, rfl, -, -⟩ := h default
  exact (Advances.precedes hfound).length_le

theorem weaken {weaker : α → Prop} (h : Reads p mode text rest accept)
    (himp : ∀ value, accept value → weaker value) : Reads p mode text rest weaker := by
  intro start
  obtain ⟨found, hfound, hrest, hfault, haccept⟩ := h start
  exact ⟨found, hfound, hrest, hfault, himp _ haccept⟩

theorem ignore (h : Reads p mode text rest accept) : Reads p mode text rest fun _ => True :=
  h.weaken fun _ _ => trivial

theorem pure (value : α) : Reads (Pure.pure value) mode text text (· = value) := by
  intro start
  exact ⟨_, found_pure _ _ _, rfl, rfl, rfl⟩

theorem bind {f : α → Parser β} {accept' : β → Prop} (h : Reads p mode text middle accept)
    (h' : ∀ value, accept value → Reads (f value) mode middle rest accept') :
    Reads (p >>= f) mode text rest accept' := by
  intro start
  obtain ⟨first, hfirst, rfl, hfault, haccept⟩ := h start
  obtain ⟨second, hsecond, hrest, hfault', haccept'⟩ := h' _ haccept first.next.mark
  refine ⟨⟨second.value, second.next, none⟩, ?_, hrest, rfl, haccept'⟩
  rw [found_bind, hfirst]
  simp [hsecond, hfault, hfault']

theorem rule {name : Rule} (h : Reads p mode text rest accept) :
    Reads (rule name p) mode text rest accept := by
  intro start
  rw [found_rule]
  exact h start

theorem tight (h : Reads p .tight text rest accept) :
    Reads (tight p) mode text rest accept := h

theorem hidden (h : Reads p .hidden text rest accept) :
    Reads (hidden p) mode text rest accept := h

theorem orElse_left (h : Reads p mode text rest accept) :
    Reads (p <|> q) mode text rest accept := by
  intro start
  obtain ⟨found, hfound, hrest⟩ := h start
  exact ⟨found, by rw [found_orElse, hfound, Option.some_or], hrest⟩

theorem orElse_right (hp : Refuses p mode text) (h : Reads q mode text rest accept) :
    Reads (p <|> q) mode text rest accept := by
  intro start
  rw [found_orElse, hp start, Option.none_or]
  exact h start

theorem optional_some (h : Reads p mode text rest accept) :
    Reads (optional p) mode text rest fun value => ∃ found, value = some found ∧ accept found := by
  intro start
  obtain ⟨found, hfound, hrest, hfault, haccept⟩ := h start
  refine ⟨_, by rw [found_optional, hfound]; rfl, hrest, hfault, ?_⟩
  exact ⟨found.value, rfl, haccept⟩

theorem optional_none (h : Refuses p mode text) :
    Reads (optional p) mode text text (· = none) := by
  intro start
  exact ⟨_, by rw [found_optional, h start]; rfl, rfl, rfl, rfl⟩

theorem take {measure : List Char → Option Nat} {count : Nat} (h : measure text = some count) :
    Reads (take measure) mode text (text.drop count) fun _ => True := by
  intro start
  exact ⟨_, by rw [found_take, h]; rfl, rfl, rfl, trivial⟩

theorem ahead {measure : List Char → Option Nat} (h : (measure text).isSome = true) :
    Reads (ahead measure) mode text text fun _ => True := by
  intro start
  exact ⟨_, by rw [found_ahead, if_pos h], rfl, rfl, trivial⟩

theorem literal (word : String) (rest : List Char) :
    Reads (literal word) mode (word.toList ++ rest) rest fun _ => True := by
  have htake : Reads (Parser.literal word) mode (word.toList ++ rest)
      ((word.toList ++ rest).drop word.toList.length) fun _ => True :=
    take (by simp)
  rwa [List.drop_left] at htake

theorem spanned (h : Reads p mode text rest accept) :
    Reads (spanned p) mode text rest fun value => accept value.1 := by
  intro start
  obtain ⟨found, hfound, hrest, hfault, haccept⟩ := h start
  exact ⟨_, by rw [found_spanned, hfound]; rfl, hrest, hfault, haccept⟩

/-- Syntax with a span is read when its parts are, and is put together from them. -/
theorem node {name : Rule} {build : α × Span → Parser β} (accept : α → Prop) {accept' : β → Prop}
    (h : Reads p mode text rest accept)
    (h' : ∀ value span, accept value → Reads (build (value, span)) mode rest rest accept') :
    Reads (Parser.spanned (Parser.rule name p) >>= build) mode text rest accept' :=
  (rule h).spanned.bind fun value hvalue => h' value.1 value.2 hvalue

theorem captured {word : List Char} (h : Reads p mode (word ++ rest) rest accept) :
    Reads (captured p) mode (word ++ rest) rest fun value => value.1 = word := by
  intro start
  obtain ⟨found, hfound, hrest, hfault, -⟩ := h start
  refine ⟨_, by rw [found_captured, hfound]; rfl, hrest, hfault, ?_⟩
  simp [Cursor.textTo, hrest]

theorem gapBy (measure : List Char → Nat) :
    Reads (gapBy measure) .spaced text (text.drop (measure text)) fun _ => True := by
  intro start
  exact ⟨_, found_gapBy _ _ _, rfl, rfl, trivial⟩

end Reads

namespace Refuses

theorem bind_left {f : α → Parser β} (h : Refuses p mode text) : Refuses (p >>= f) mode text := by
  intro start
  rw [found_bind, h start, Option.bind_none]

theorem bind {f : α → Parser β} (h : Reads p mode text rest accept)
    (h' : ∀ value, accept value → Refuses (f value) mode rest) : Refuses (p >>= f) mode text := by
  intro start
  obtain ⟨first, hfirst, rfl, -, haccept⟩ := h start
  rw [found_bind, hfirst, Option.bind_some, h' _ haccept first.next.mark, Option.map_none]

theorem rule {name : Rule} (h : Refuses p mode text) : Refuses (rule name p) mode text := by
  intro start
  rw [found_rule, h start]

theorem tight (h : Refuses p .tight text) : Refuses (tight p) mode text := h

theorem orElse (hp : Refuses p mode text) (hq : Refuses q mode text) :
    Refuses (p <|> q) mode text := by
  intro start
  rw [found_orElse, hp start, hq start, Option.none_or]

theorem take {measure : List Char → Option Nat} (h : measure text = none) :
    Refuses (take measure) mode text := by
  intro start
  rw [found_take, h, Option.map_none]

theorem ahead {measure : List Char → Option Nat} (h : measure text = none) :
    Refuses (ahead measure) mode text := by
  intro start
  rw [found_ahead, h]
  rfl

theorem literal {word : String} (h : word.toList.isPrefixOf text = false) :
    Refuses (literal word) mode text :=
  take (by simp [h])

theorem spanned (h : Refuses p mode text) : Refuses (spanned p) mode text := by
  intro start
  rw [found_spanned, h start, Option.map_none]

theorem captured (h : Refuses p mode text) : Refuses (captured p) mode text := by
  intro start
  rw [found_captured, h start, Option.map_none]

end Refuses

/-! ## Repetition -/

/-- The rounds in which a parser is repeated: each takes something, and the last text is refused. -/
inductive Rounds (p : Parser α) (mode : Mode) :
    List Char → List (α → Prop) → List Char → Prop
  | stop {text : List Char} : Refuses p mode text → Rounds p mode text [] text
  | step {text middle rest : List Char} {accept : α → Prop} {accepts : List (α → Prop)} :
      Reads p mode text middle accept → middle.length < text.length →
        Rounds p mode middle accepts rest → Rounds p mode text (accept :: accepts) rest

def Meets (accepts : List (α → Prop)) (values : List α) : Prop :=
  List.Forall₂ (fun accept value => accept value) accepts values

theorem Meets.map_eq {f : α → β} {keys : List β} {values : List α}
    (h : Meets (keys.map fun key value => f value = key) values) : values.map f = keys := by
  rw [Meets, List.forall₂_map_left_iff] at h
  induction h with
  | nil => rfl
  | cons hvalue _ ih => rw [List.map_cons, hvalue, ih]

theorem Rounds.repeatUpTo {accepts : List (α → Prop)} (h : Rounds p mode text accepts rest)
    {bound : Nat} (hbound : text.length < bound) :
    Reads (repeatUpTo p bound) mode text rest (Meets accepts) := by
  induction h generalizing bound with
  | stop hrefuses =>
      intro start
      obtain ⟨bound, rfl⟩ := Nat.exists_eq_succ_of_ne_zero (Nat.ne_of_gt (Nat.zero_lt_of_lt hbound))
      exact ⟨⟨[], ⟨_, start⟩, none⟩, by rw [found_repeatUpTo_succ, hrefuses start]; rfl, rfl, rfl,
        .nil⟩
  | step hreads hshorter _ ih =>
      intro start
      obtain ⟨bound, rfl⟩ := Nat.exists_eq_succ_of_ne_zero (Nat.ne_of_gt (Nat.zero_lt_of_lt hbound))
      obtain ⟨first, hfirst, rfl, hfault, haccept⟩ := hreads start
      have hmiddle : first.next.rest.length < bound := by omega
      obtain ⟨others, hothers, hrest, hfault', haccepts⟩ := ih hmiddle first.next.mark
      replace hothers : (Parser.repeatUpTo p bound mode first.next).found = some others := hothers
      refine ⟨⟨first.value :: others.value, others.next, none⟩, ?_, hrest, rfl,
        .cons haccept haccepts⟩
      rw [found_repeatUpTo_succ, hfirst, Option.bind_some, hothers]
      simp [hfault, hfault']

theorem Rounds.many {accepts : List (α → Prop)} (h : Rounds p mode text accepts rest) :
    Reads (many p) mode text rest (Meets accepts) :=
  fun start => h.repeatUpTo (Nat.lt_succ_self _) start

theorem Rounds.repeatFrom {p : Parser Unit} {accepts : List (Unit → Prop)}
    (h : Rounds p mode text accepts rest) {bound : Nat} (hbound : text.length < bound)
    (start : Mark) (furthest : Furthest) :
    ∃ found, (repeatFrom p mode bound ⟨(), ⟨text, start⟩, none⟩ furthest).found = some found ∧
      found.next.rest = rest ∧ found.fault = none := by
  induction h generalizing bound start with
  | stop hrefuses =>
      obtain ⟨bound, rfl⟩ := Nat.exists_eq_succ_of_ne_zero (Nat.ne_of_gt (Nat.zero_lt_of_lt hbound))
      exact ⟨_, by rw [found_repeatFrom_succ, hrefuses start], rfl, rfl⟩
  | step hreads hshorter _ ih =>
      obtain ⟨bound, rfl⟩ := Nat.exists_eq_succ_of_ne_zero (Nat.ne_of_gt (Nat.zero_lt_of_lt hbound))
      obtain ⟨first, hfirst, rfl, hfault, -⟩ := hreads start
      have hmiddle : first.next.rest.length < bound := by omega
      obtain ⟨others, hothers, hrest⟩ := ih hmiddle first.next.mark
      refine ⟨others, ?_, hrest⟩
      rw [found_repeatFrom_succ, hfirst]
      simpa [hfault] using hothers

theorem Rounds.skipMany {p : Parser Unit} {accepts : List (Unit → Prop)}
    (h : Rounds p mode text accepts rest) :
    Reads (skipMany p) mode text rest fun _ => True := by
  intro start
  obtain ⟨found, hfound, hrest, hfault⟩ := h.repeatFrom (Nat.lt_succ_self _) start .none
  exact ⟨found, hfound, hrest, hfault, trivial⟩

end GoTrace.Parser
