import GoTrace.Proofs.Parser.Reads
import GoTrace.Syntax.Parse

/-!
# Reading a text with a fault

A fault does not stop a parser: it reads on, and what it noted first decides the answer in the end. So
the lemmas here go with those on texts that are read without a fault, which say what comes before the
faulty part and what comes behind it.
-/

namespace GoTrace.Parser

variable {α β : Type}

/-- The parser reads `text` down to `rest` and notes a fault, the first of which satisfies `blame`. -/
def Faults (p : Parser α) (mode : Mode) (text rest : List Char) (blame : Fault → Prop) : Prop :=
  ∀ start, ∃ value next fault, (p mode ⟨text, start⟩).found = some ⟨value, next, some fault⟩ ∧
    next.rest = rest ∧ blame fault

variable {p q : Parser α} {mode : Mode} {text middle rest : List Char} {blame : Fault → Prop}

theorem Faults.note {fault : Fault} (h : blame fault) : Faults (note fault) mode text text blame :=
  fun _ => ⟨_, _, fault, found_note _ _ _, rfl, h⟩

theorem Faults.bind {f : α → Parser β} (h : Faults p mode text middle blame)
    (h' : ∀ value, Reads (f value) mode middle rest fun _ => True) :
    Faults (p >>= f) mode text rest blame := by
  intro start
  obtain ⟨value, next, fault, hfound, rfl, hblame⟩ := h start
  obtain ⟨second, hsecond, hrest, -⟩ := h' value next.mark
  refine ⟨second.value, second.next, fault, ?_, hrest, hblame⟩
  rw [found_bind, hfound]
  simp [hsecond]

theorem Reads.bindFaults {f : α → Parser β} {accept : α → Prop} (h : Reads p mode text middle accept)
    (h' : ∀ value, accept value → Faults (f value) mode middle rest blame) :
    Faults (p >>= f) mode text rest blame := by
  intro start
  obtain ⟨first, hfirst, rfl, hfault, haccept⟩ := h start
  obtain ⟨value, next, fault, hfound, hrest, hblame⟩ := h' _ haccept first.next.mark
  refine ⟨value, next, fault, ?_, hrest, hblame⟩
  rw [found_bind, hfirst]
  simp [hfound, hfault]

namespace Faults

theorem rule {name : Rule} (h : Faults p mode text rest blame) :
    Faults (rule name p) mode text rest blame := by
  intro start
  rw [found_rule]
  exact h start

theorem orElse_left (h : Faults p mode text rest blame) : Faults (p <|> q) mode text rest blame := by
  intro start
  obtain ⟨value, next, fault, hfound, hrest⟩ := h start
  exact ⟨value, next, fault, by rw [found_orElse, hfound, Option.some_or], hrest⟩

theorem optional (h : Faults p mode text rest blame) :
    Faults (optional p) mode text rest blame := by
  intro start
  obtain ⟨value, next, fault, hfound, hrest⟩ := h start
  exact ⟨some value, next, fault, by rw [found_optional, hfound]; rfl, hrest⟩

theorem node {name : Rule} {build : α × Span → β} (h : Faults p mode text rest blame) :
    Faults (do return build (← spanned (Parser.rule name p))) mode text rest blame := by
  intro start
  have hrule : Faults (Parser.rule name p) mode text rest blame := h.rule
  obtain ⟨value, next, fault, hfound, hrest⟩ := hrule start
  refine ⟨build (value, Cursor.spanTo ⟨text, start⟩ next), next, fault, ?_, hrest⟩
  rw [found_bind, found_spanned, hfound]
  rfl

theorem run {literal : String} {text : String}
    (h : Faults p .spaced text.toList rest fun fault => ∃ span, fault = .invalidString literal span)
    (name : String) : ∃ span, p.run name text = .error (.error (.invalidString literal span)) := by
  obtain ⟨value, next, fault, hfound, -, span, rfl⟩ := h Mark.start
  refine ⟨span, ?_⟩
  change (p .spaced (Cursor.ofText text.toList)).found = _ at hfound
  unfold Parser.run
  dsimp only
  generalize p .spaced (Cursor.ofText text.toList) = reply at hfound ⊢
  obtain ⟨found, furthest⟩ := reply
  obtain rfl : found = _ := hfound
  rfl

end Faults

end GoTrace.Parser
