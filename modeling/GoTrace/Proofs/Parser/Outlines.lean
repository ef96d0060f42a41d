import GoTrace.Proofs.Grammar.Extent
import GoTrace.Proofs.Syntax.Outline

/-!
# Outlines of what parsers find

A parser finds values whose nodes stand in order in the text that it passes over. The parts of a rule are
read from left to right, so each part puts its nodes behind those of the parts before it; one lemma for each
combinator follows this.
-/

namespace GoTrace

namespace Cursor

/-- The cursor has come to where it is by passing over the front of the text. -/
def StandsIn (cursor : Cursor) (text : String) : Prop := (ofText text.toList).Precedes cursor

variable {text : String} {cursor next : Cursor}

theorem StandsIn.precedes (h : cursor.StandsIn text) (hnext : cursor.Precedes next) :
    next.StandsIn text := h.trans hnext

/-- A cursor stands behind a known part of the text, and its mark has counted it. -/
theorem StandsIn.exists_before (h : cursor.StandsIn text) :
    ∃ before : String, text.toList = before.toList ++ cursor.rest ∧
      cursor.mark = ⟨before.utf8ByteSize, Place.behind before.toList⟩ := by
  obtain ⟨before, hrest, hmark⟩ := h
  refine ⟨String.ofList before, ?_, ?_⟩
  · rw [String.toList_ofList]
    exact hrest
  · rw [hmark, String.toList_ofList]
    exact Mark.past_start before

theorem Precedes.offset_le (h : cursor.Precedes next) : cursor.mark.offset ≤ next.mark.offset := by
  obtain ⟨taken, -, hmark⟩ := h
  rw [hmark]
  exact Mark.offset_le_past cursor.mark taken

theorem Precedes.textTo_append (h : cursor.Precedes next) :
    cursor.rest = cursor.textTo next ++ next.rest := by
  obtain ⟨taken, hrest, -⟩ := h
  rw [textTo, hrest, List.length_append, Nat.add_sub_cancel, List.take_left]

theorem StandsIn.cutsOut (h : cursor.StandsIn text) (hnext : cursor.Precedes next)
    (hlength : next.rest.length < cursor.rest.length) :
    (cursor.spanTo next).CutsOut text (String.ofList (cursor.textTo next)) := by
  obtain ⟨before, hrest, hmark⟩ := h.exists_before
  obtain ⟨behind, hbehind, hmark'⟩ := (h.precedes hnext).exists_before
  have htaken := hnext.textTo_append
  have heq : behind = before ++ String.ofList (cursor.textTo next) := by
    rw [← String.toList_inj, String.toList_append, String.toList_ofList]
    have hends : behind.toList ++ next.rest =
        (before.toList ++ cursor.textTo next) ++ next.rest := by
      rw [List.append_assoc, ← htaken, ← hrest, hbehind]
    exact List.append_cancel_right hends
  refine ⟨fun hempty => ?_, before, String.ofList next.rest, ?_, ?_⟩
  · have hnil : cursor.textTo next = [] := by
      rw [← String.toList_ofList (l := cursor.textTo next), hempty]
      rfl
    rw [htaken, hnil] at hlength
    exact Nat.lt_irrefl _ hlength
  · rw [← String.toList_inj, String.toList_append, ← heq, String.toList_ofList]
    exact hbehind
  · rw [← heq, spanTo, Span.between, hmark, hmark']
    exact ⟨rfl, rfl, rfl, rfl⟩

end Cursor

namespace Parser

open Outline

variable {α β : Type}

/-- Behind the nodes `done` the parser puts those of what it finds: `shape` gives all of them, which are in
order up to where the parser has come. -/
def Lays (done : List Outline) (p : Parser α) (shape : α → List Outline) : Prop :=
  ∀ ⦃text : String⦄ ⦃low mode cursor found⦄, cursor.StandsIn text →
    InOrder text low done cursor.mark.offset → (p mode cursor).found = some found →
      found.next.StandsIn text ∧ InOrder text low (shape found.value) found.next.mark.offset

namespace Lays

variable {p q : Parser α} {done : List Outline} {shape : α → List Outline}

theorem pure {value : α} (h : shape value = done) : Lays done (Pure.pure value) shape := by
  intro text low mode cursor found hcursor hdone hfound
  cases hfound
  exact ⟨hcursor, h ▸ hdone⟩

theorem bind {f : α → Parser β} {shape' : β → List Outline} (h : Lays done p shape)
    (h' : ∀ value, Lays (shape value) (f value) shape') : Lays done (p >>= f) shape' := by
  intro text low mode cursor found hcursor hdone hfound
  simp only [found_bind, Option.bind_eq_some_iff, Option.map_eq_some_iff] at hfound
  obtain ⟨first, hfirst, second, hsecond, rfl⟩ := hfound
  obtain ⟨hmiddle, hnodes⟩ := h hcursor hdone hfirst
  exact (h' first.value hmiddle hnodes hsecond :)

theorem nothing (p : Parser α) [Advances p] : Lays done p fun _ => done := by
  intro text low mode cursor found hcursor hdone hfound
  have hahead : cursor.Precedes found.next := Advances.precedes hfound
  exact ⟨hcursor.precedes hahead, hdone.mono hahead.offset_le⟩

theorem after [Advances p] {f : α → Parser β} {shape' : β → List Outline}
    (h : ∀ value, Lays done (f value) shape') : Lays done (p >>= f) shape' :=
  (nothing p).bind h

theorem behind (h : Lays [] p shape) : Lays done p fun value => done ++ shape value := by
  intro text low mode cursor found hcursor hdone hfound
  have hnone : InOrder text cursor.mark.offset [] cursor.mark.offset := Nat.le_refl _
  obtain ⟨hnext, hnodes⟩ := h hcursor hnone hfound
  exact ⟨hnext, hdone.append hnodes⟩

theorem next {f : α → Parser β} {shape' : β → List Outline} (h : Lays [] p shape)
    (h' : ∀ value, Lays (done ++ shape value) (f value) shape') : Lays done (p >>= f) shape' :=
  h.behind.bind h'

theorem orElse (hp : Lays done p shape) (hq : Lays done q shape) : Lays done (p <|> q) shape := by
  intro text low mode cursor found hcursor hdone hfound
  rw [found_orElse, Option.or_eq_some_iff] at hfound
  rcases hfound with hfound | ⟨-, hfound⟩
  · exact hp hcursor hdone hfound
  · exact hq hcursor hdone hfound

theorem map {f : α → β} {shape' : β → List Outline} (h : Lays done p shape)
    (heq : ∀ value, shape' (f value) = shape value) : Lays done (f <$> p) shape' := by
  intro text low mode cursor found hcursor hdone hfound
  rw [found_map, Option.map_eq_some_iff] at hfound
  obtain ⟨inner, hinner, rfl⟩ := hfound
  rw [heq]
  exact h hcursor hdone hinner

theorem rule {name : Rule} (h : Lays done p shape) : Lays done (p.rule name) shape := by
  intro text low mode cursor found hcursor hdone hfound
  rw [found_rule] at hfound
  exact h hcursor hdone hfound

theorem hidden (h : Lays done p shape) : Lays done p.hidden shape :=
  fun _ _ _ _ _ hcursor hdone hfound => h hcursor hdone hfound

theorem spanned [Advances p] (h : Lays [] p shape) (hspends : Spends p fun _ => 1) :
    Lays [] p.spanned fun read => [.node read.2 none (shape read.1)] := by
  intro text low mode cursor found hcursor hdone hfound
  rw [found_spanned, Option.map_eq_some_iff] at hfound
  obtain ⟨inner, hinner, rfl⟩ := hfound
  have hspent : 1 + inner.next.rest.length ≤ cursor.rest.length := hspends hinner
  have hnone : InOrder text cursor.mark.offset [] cursor.mark.offset := Nat.le_refl _
  obtain ⟨hnext, hnodes⟩ := h hcursor hnone hinner
  have hcuts := hcursor.cutsOut (Advances.precedes hinner) (by omega)
  exact ⟨hnext, hdone, ⟨⟨_, hcuts, nofun⟩, hnodes⟩, Nat.le_refl _⟩

theorem captured [Advances p] (hspends : Spends p fun _ => 1) (name : List Char → Option String)
    (hname : ∀ taken ident, name taken = some ident → String.ofList taken = ident) :
    Lays [] p.captured fun read => [.node read.2 (name read.1) []] := by
  intro text low mode cursor found hcursor hdone hfound
  rw [found_captured, Option.map_eq_some_iff] at hfound
  obtain ⟨inner, hinner, rfl⟩ := hfound
  have hspent : 1 + inner.next.rest.length ≤ cursor.rest.length := hspends hinner
  have hahead : cursor.Precedes inner.next := Advances.precedes hinner
  have hcuts := hcursor.cutsOut hahead (by omega)
  exact ⟨hcursor.precedes hahead, hdone,
    ⟨⟨_, hcuts, hname _⟩, hahead.offset_le⟩, Nat.le_refl _⟩

end Lays

/-! ## Values with outlines -/

variable [Outlined α] {p : Parser α}

theorem Lays.optional (h : Lays [] p outline) : Lays [] p.optional outline :=
  .orElse (.map h fun _ => rfl) (.pure rfl)

theorem Lays.repeatUpTo (h : Lays [] p outline) (bound : Nat) :
    Lays [] (p.repeatUpTo bound) outline := by
  induction bound with
  | zero => exact .pure rfl
  | succ bound ih =>
      refine .orElse (.next h fun value => .next ih fun values => .pure ?_) (.pure rfl)
      simp

theorem Lays.many (h : Lays [] p outline) : Lays [] p.many outline :=
  fun _ _ _ _ _ hcursor hdone hfound => h.repeatUpTo _ hcursor hdone hfound

end Parser

end GoTrace
