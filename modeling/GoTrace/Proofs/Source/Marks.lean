import GoTrace.Source.Span
import GoTrace.Proofs.Parser.Progress
import Mathlib.Data.List.Induction

/-!
# Where a part of a text stands

The offset, line and column of a part are counted in the text before it. The marks of a cursor keep these
counts, so the span from one cursor to another on the same text is that of the part between them.
-/

namespace GoTrace

/-- The line and column behind a text: line feeds end lines, and columns count characters. -/
def Place.behind (before : List Char) : Place :=
  ⟨before.count '\n' + 1, (before.reverse.takeWhile (· ≠ '\n')).length + 1⟩

/-- The span is that of `part`, as it stands between other parts of the text. -/
structure Span.CutsOut (span : Span) (text part : String) : Prop where
  ne_empty : part ≠ ""
  cuts : ∃ before after, text = before ++ part ++ after ∧
    span.start = before.utf8ByteSize ∧ span.stop = (before ++ part).utf8ByteSize ∧
    span.startPlace = some (Place.behind before.toList) ∧
    span.stopPlace = some (Place.behind (before ++ part).toList)

namespace Place

theorem behind_concat (before : List Char) (c : Char) :
    behind (before ++ [c]) = (behind before).after c := by
  rw [behind, behind, after, List.count_append, List.reverse_append, List.reverse_singleton,
    List.singleton_append]
  by_cases hc : c = '\n'
  · simp [hc]
  · simp [hc]

end Place

namespace Mark

theorem past_concat (mark : Mark) (text : List Char) (c : Char) :
    mark.past (text ++ [c]) = (mark.past text).after c := by
  rw [past, past, List.foldl_append]
  rfl

theorem offset_le_past (mark : Mark) (text : List Char) : mark.offset ≤ (mark.past text).offset := by
  induction text generalizing mark with
  | nil => exact Nat.le_refl _
  | cons c rest ih => exact Nat.le_trans (Nat.le_add_right _ _) (ih (mark.after c))

/-- A mark that has passed over a text has counted its bytes, lines and columns. -/
theorem past_start (before : List Char) :
    start.past before = ⟨(String.ofList before).utf8ByteSize, Place.behind before⟩ := by
  induction before using List.reverseRecOn with
  | nil => rfl
  | append_singleton before c ih =>
      rw [past_concat, ih, after, Place.behind_concat, String.ofList_append, String.utf8ByteSize_append]
      simp

end Mark

namespace Span.CutsOut

variable {span : Span} {text part : String}

theorem start_lt_stop (h : span.CutsOut text part) : span.start < span.stop := by
  obtain ⟨before, after, -, hstart, hstop, -, -⟩ := h.cuts
  have hpos : 0 < part.utf8ByteSize := by
    rw [Nat.pos_iff_ne_zero, ne_eq, String.utf8ByteSize_eq_zero_iff]
    exact h.ne_empty
  rw [hstart, hstop, String.utf8ByteSize_append]
  omega

theorem stop_le (h : span.CutsOut text part) : span.stop ≤ text.utf8ByteSize := by
  obtain ⟨before, after, rfl, -, hstop, -, -⟩ := h.cuts
  have hsize : (before ++ part ++ after).utf8ByteSize =
      (before ++ part).utf8ByteSize + after.utf8ByteSize := String.utf8ByteSize_append
  omega

theorem extract (h : span.CutsOut text part) :
    text.toByteArray.extract span.start span.stop = part.toByteArray := by
  obtain ⟨before, after, rfl, hstart, hstop, -, -⟩ := h.cuts
  rw [hstart, hstop, String.utf8ByteSize_append, String.toByteArray_append, String.toByteArray_append,
    ByteArray.append_assoc, ← String.size_toByteArray, ← String.size_toByteArray,
    ← Nat.add_zero before.toByteArray.size, Nat.add_assoc, Nat.zero_add,
    ByteArray.extract_append_size_add, ByteArray.extract_append_eq_left rfl]

end Span.CutsOut

end GoTrace
