import Mathlib.Data.List.Induction
import Mathlib.Data.List.Nodup

/-!
# Lists of first uses

A table that is filled from a list of uses has an entry for each value that is used, in the order in
which the values come up. `ListsUses` says so without the table; it is kept when one more use comes
at the end.
-/

namespace GoTrace

variable {α : Type} [BEq α] [LawfulBEq α]

omit [LawfulBEq α] in
/-- The values that are used, each once, in the order of their first uses. -/
structure ListsUses (uses listed : List α) : Prop where
  nodup : listed.Nodup
  mem_iff : ∀ value, value ∈ listed ↔ value ∈ uses
  order : listed.Pairwise fun first second => uses.idxOf first < uses.idxOf second

namespace ListsUses

variable {uses listed : List α} {value : α}

omit [LawfulBEq α] in
theorem nil : ListsUses ([] : List α) [] := ⟨List.nodup_nil, fun _ => Iff.rfl, .nil⟩

theorem pairwise_concat (h : ListsUses uses listed) (value : α) :
    listed.Pairwise fun first second =>
      (uses ++ [value]).idxOf first < (uses ++ [value]).idxOf second := by
  refine h.order.imp_of_mem fun {first second} hfirst hsecond hlt => ?_
  rw [List.idxOf_append_of_mem ((h.mem_iff first).mp hfirst),
    List.idxOf_append_of_mem ((h.mem_iff second).mp hsecond)]
  exact hlt

theorem concat_of_mem (h : ListsUses uses listed) (hused : value ∈ uses) :
    ListsUses (uses ++ [value]) listed where
  nodup := h.nodup
  mem_iff other := by
    rw [h.mem_iff, List.mem_append, List.mem_singleton]
    exact ⟨.inl, fun hmem => hmem.elim id fun heq => heq ▸ hused⟩
  order := h.pairwise_concat value

theorem concat_of_notMem (h : ListsUses uses listed) (hnew : value ∉ uses) :
    ListsUses (uses ++ [value]) (listed ++ [value]) where
  nodup := by
    rw [List.nodup_append]
    refine ⟨h.nodup, List.nodup_singleton value, fun first hfirst second hsecond heq => hnew ?_⟩
    rw [← List.mem_singleton.mp hsecond, ← heq]
    exact (h.mem_iff first).mp hfirst
  mem_iff other := by rw [List.mem_append, h.mem_iff, List.mem_append]
  order := by
    rw [List.pairwise_append]
    refine ⟨h.pairwise_concat value, List.pairwise_singleton _ _, fun first hfirst second hsecond => ?_⟩
    rw [List.mem_singleton.mp hsecond, List.idxOf_append_of_notMem hnew]
    have hused := (h.mem_iff first).mp hfirst
    rw [List.idxOf_append_of_mem hused]
    exact Nat.lt_of_lt_of_le (List.idxOf_lt_length_of_mem hused) (Nat.le_add_right _ _)

theorem eraseDups (uses : List α) : ListsUses uses uses.eraseDups := by
  induction uses using List.reverseRecOn with
  | nil => exact nil
  | append_singleton uses value ih =>
      rw [List.eraseDups_append, List.cons_removeAll]
      by_cases hused : value ∈ uses
      · simpa [hused] using ih.concat_of_mem hused
      · simpa [hused, List.eraseDups_cons] using ih.concat_of_notMem hused

end ListsUses

end GoTrace
