import GoTrace.Proofs.Grammar.Progress
import GoTrace.Proofs.Grammar.Words
import GoTrace.Syntax.Parse

/-!
# A file declares no more types than it has characters

Every part of a value that is read is paid for with a character of the text. The weight of a value
counts such parts; a parser spends it when its cursor passes over at least so many characters.
-/

namespace GoTrace

namespace Parser

variable {α β : Type}

def totalWeight (weight : α → Nat) : List α → Nat
  | [] => 0
  | value :: rest => weight value + totalWeight weight rest

theorem totalWeight_one (values : List α) : totalWeight (fun _ => 1) values = values.length := by
  induction values with
  | nil => rfl
  | cons value rest ih => rw [totalWeight, ih, List.length_cons, Nat.add_comm]

/-- Whatever the parser finds, it has passed over as many characters as the value weighs. -/
def Spends (p : Parser α) (weight : α → Nat) : Prop :=
  ∀ ⦃mode cursor found⦄, (p mode cursor).found = some found →
    weight found.value + found.next.rest.length ≤ cursor.rest.length

theorem Advances.spends (p : Parser α) [Advances p] : Spends p fun _ => 0 := by
  intro mode cursor found h
  have := (Advances.precedes h).length_le
  simpa using this

theorem Spends.pure {weight : α → Nat} {value : α} (h : weight value = 0) :
    Spends (Pure.pure value : Parser α) weight := by
  intro mode cursor found hfound
  cases hfound
  simp [h]

theorem Spends.bind {p : Parser α} {f : α → Parser β} {weight : α → Nat} {total : β → Nat}
    (hp : Spends p weight) (hf : ∀ a, Spends (f a) fun b => total b - weight a) :
    Spends (p >>= f) total := by
  intro mode cursor found h
  simp only [found_bind, Option.bind_eq_some_iff, Option.map_eq_some_iff] at h
  obtain ⟨first, hfirst, second, hsecond, rfl⟩ := h
  have hspent := hp hfirst
  have hrest := hf first.value hsecond
  dsimp only at hrest ⊢
  omega

theorem Spends.after {p : Parser α} [Advances p] {f : α → Parser β} {total : β → Nat}
    (hf : ∀ a, Spends (f a) total) : Spends (p >>= f) total :=
  (Advances.spends p).bind hf

theorem Spends.before {p : Parser α} {f : α → Parser β} {count : Nat} [∀ a, Advances (f a)]
    (hp : Spends p fun _ => count) : Spends (p >>= f) fun _ => count :=
  hp.bind fun a => by
    simpa only [Nat.sub_self] using Advances.spends (f a)

theorem Spends.orElse {p q : Parser α} {weight : α → Nat} (hp : Spends p weight)
    (hq : Spends q weight) : Spends (p <|> q) weight := by
  intro mode cursor found h
  rw [found_orElse, Option.or_eq_some_iff] at h
  rcases h with h | ⟨-, h⟩
  · exact hp h
  · exact hq h

theorem Spends.optional {p : Parser α} {weight : α → Nat} (hp : Spends p weight) :
    Spends (p.optional) fun value? => (value?.map weight).getD 0 := by
  intro mode cursor found h
  rw [found_optional, Option.or_eq_some_iff, Option.map_eq_some_iff] at h
  rcases h with ⟨inner, hinner, rfl⟩ | ⟨-, h⟩
  · exact hp hinner
  · cases h
    simp

theorem Spends.rule {p : Parser α} {weight : α → Nat} {name : Rule} (hp : Spends p weight) :
    Spends (p.rule name) weight := by
  intro mode cursor found h
  rw [found_rule] at h
  exact hp h

theorem Spends.tight {p : Parser α} {weight : α → Nat} (hp : Spends p weight) :
    Spends p.tight weight :=
  fun _ _ _ h => hp h

theorem Spends.spanned {p : Parser α} {weight : α → Nat} (hp : Spends p weight) :
    Spends p.spanned fun value => weight value.1 := by
  intro mode cursor found h
  rw [found_spanned, Option.map_eq_some_iff] at h
  obtain ⟨inner, hinner, rfl⟩ := h
  exact hp hinner

theorem Spends.captured {p : Parser α} {weight : α → Nat} {count : Nat} (hp : Spends p weight)
    (h : ∀ value, count ≤ weight value) : Spends p.captured fun _ => count := by
  intro mode cursor found hfound
  rw [found_captured, Option.map_eq_some_iff] at hfound
  obtain ⟨inner, hinner, rfl⟩ := hfound
  exact Nat.le_trans (Nat.add_le_add_right (h inner.value) _) (hp hinner)

theorem Spends.take {measure : List Char → Option Nat}
    (h : ∀ text count, measure text = some count → 0 < count ∧ count ≤ text.length) :
    Spends (take measure) fun _ => 1 := by
  intro mode cursor found hfound
  rw [found_take, Option.map_eq_some_iff] at hfound
  obtain ⟨count, hcount, rfl⟩ := hfound
  have hbounds := h _ _ hcount
  simp only [Cursor.skip, List.length_drop]
  omega

theorem Spends.repeatUpTo {p : Parser α} {weight : α → Nat} (hp : Spends p weight) (bound : Nat) :
    Spends (p.repeatUpTo bound) (totalWeight weight) := by
  induction bound with
  | zero => exact .pure rfl
  | succ bound ih =>
      refine .orElse (hp.bind fun value => ih.bind fun values => .pure ?_) (.pure rfl)
      simp [totalWeight]

theorem Spends.many {p : Parser α} {weight : α → Nat} (hp : Spends p weight) :
    Spends p.many (totalWeight weight) :=
  fun _ _ _ h => hp.repeatUpTo _ h

end Parser

namespace Grammar

open GoTrace.Parser

variable {α : Type} {weight : α → Nat}

theorem identifier_spends : Spends identifier fun _ => 1 := by
  intro mode cursor found h
  simp only [identifier, found_rule, found_bind, found_captured, found_take, found_pure,
    Option.bind_eq_some_iff, Option.map_eq_some_iff] at h
  obtain ⟨_, ⟨_, ⟨count, hcount, rfl⟩, rfl⟩, _, hvalue, rfl⟩ := h
  simp only [Option.some.injEq] at hvalue
  subst hvalue
  obtain ⟨hpos, hle⟩ := Lexeme.identifier?_bounds hcount
  simp only [Cursor.skip, List.length_drop]
  omega

theorem repeated_spends {p : Parser α} [Advances p] (hp : Spends p weight) :
    Spends (repeated p) (totalWeight weight) := by
  refine .orElse (hp.bind fun value => ?_) (.pure rfl)
  have hmany : Spends (many do gap; p) (totalWeight weight) := .many (.after fun _ => hp)
  exact hmany.bind fun values => .pure (by simp [totalWeight])

theorem block_spends {spec : Parser α} [Advances spec] (hspec : Spends spec weight)
    (opening closing : String) : Spends (block opening closing spec) (totalWeight weight) := by
  refine .after fun _ => .after fun _ => .after fun _ => .after fun _ => ?_
  have hlist : Spends (do
      let first ← spec
      gap
      let others ← repeated do
        separator
        gap
        spec
      return first :: others) (totalWeight weight) := by
    refine hspec.bind fun first => .after fun _ => ?_
    refine (repeated_spends (.after fun _ => .after fun _ => hspec)).bind fun others => .pure ?_
    simp [totalWeight]
  refine hlist.optional.bind fun specs => .after fun _ => .after fun _ => .after fun _ =>
    .after fun _ => .pure ?_
  cases specs <;> simp [totalWeight]

theorem specs_spends {spec : Parser α} [Advances spec] (hspec : Spends spec weight)
    (decl word : Rule) (text : String) :
    Spends (specs decl word text spec) (totalWeight weight) := by
  refine .rule (.after fun _ => .after fun _ => .orElse (block_spends hspec "(" ")") ?_)
  refine hspec.bind fun value => .pure ?_
  simp [totalWeight]

theorem typeSpec_spends : Spends typeSpec fun _ => 1 :=
  .before (.spanned (.rule (.before identifier_spends)))

def typeCount (declarations : List Declaration) : Nat :=
  (declarations.filterMap fun
    | .type spec => some spec
    | _ => none).length

theorem typeCount_append (first second : List Declaration) :
    typeCount (first ++ second) = typeCount first + typeCount second := by
  simp [typeCount]

theorem typeCount_types (specs : List TypeSpec) : typeCount (specs.map .type) = specs.length := by
  induction specs with
  | nil => rfl
  | cons spec rest ih =>
      rw [List.length_cons, ← ih]
      rfl

theorem typeCount_flatten (groups : List (List Declaration)) :
    typeCount groups.flatten = totalWeight typeCount groups := by
  induction groups with
  | nil => rfl
  | cons group rest ih => rw [List.flatten_cons, typeCount_append, ih, totalWeight]

theorem topLevelDecl_spends : Spends topLevelDecl typeCount := by
  refine .orElse ?types (.orElse ?consts (.orElse ?vars ?funcs))
  case types =>
    refine (specs_spends typeSpec_spends _ _ _).bind fun values => .pure ?_
    rw [totalWeight_one, typeCount_types, Nat.sub_self]
  case consts => exact .after fun values => .pure (by simp [typeCount])
  case vars => exact .after fun values => .pure (by simp [typeCount])
  case funcs => exact .after fun value => .pure rfl

theorem sourceFile_spends (sourceName : Option String) :
    Spends (sourceFile sourceName) fun file => file.typeSpecs.length := by
  have hbody : Spends (rule .sourceFile do
      gap
      let _ ← optional separator
      gap
      let package ← packageClause
      gap
      let imports ← repeated do
        separator
        gap
        importDecl
      gap
      let declarations ← repeated do
        separator
        gap
        topLevelDecl
      gap
      let _ ← optional separator
      gap
      rule .endOfInput atEnd
      return (package, imports.flatten, declarations.flatten))
      fun value => typeCount value.2.2 := by
    refine .rule ?_
    iterate 7 refine .after fun _ => ?_
    refine (repeated_spends (.after fun _ => .after fun _ => topLevelDecl_spends)).bind
      fun declarations => ?_
    iterate 4 refine .after fun _ => ?_
    refine .pure ?_
    simp [typeCount_flatten]
  exact hbody.spanned.bind fun read => .pure (Nat.sub_self (typeCount read.1.2.2))

end Grammar

theorem SourceFile.typeSpecs_length_le {text : String} {sourceName : Option String}
    {file : SourceFile} (h : SourceFile.parse text sourceName = .ok file) :
    file.typeSpecs.length ≤ text.toList.length := by
  unfold SourceFile.parse Parser.run at h
  dsimp only at h
  split at h <;> cases h
  rename_i next furthest hread
  have hfound := congrArg Reply.found hread
  have := Grammar.sourceFile_spends sourceName hfound
  simp only [Cursor.ofText] at this
  omega

end GoTrace
