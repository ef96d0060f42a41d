import GoTrace.Proofs.Literal.Decimal
import GoTrace.Proofs.Text.Cut
import GoTrace.Resolve.Constant

/-!
# What an initialiser says

An initialiser is read without the white space and the pairs of parentheses around it. What is left may
be a reference: a name, or two names with a dot between them.
-/

namespace GoTrace

namespace Constant

/-! ## White space and parentheses -/

/-- The second text is the first without the white space and the pairs of parentheses around it. -/
inductive Strips : List Char → List Char → Prop
  | bare {text : List Char} : (∀ inner, Text.trim text ≠ '(' :: (inner ++ [')'])) →
      Strips text (Text.trim text)
  | pair {text inner stripped : List Char} : Text.trim text = '(' :: (inner ++ [')']) →
      Strips inner stripped → Strips text stripped

theorem strips_stripParensUpTo {bound : Nat} {text : List Char} (h : text.length ≤ bound) :
    Strips text (stripParensUpTo bound text) := by
  induction bound generalizing text with
  | zero =>
      obtain rfl := List.eq_nil_of_length_eq_zero (Nat.le_zero.mp h)
      exact .bare nofun
  | succ bound ih =>
      rw [stripParensUpTo]
      split
      · rename_i rest htrim
        cases hinner : Text.dropLast? ')' rest with
        | none =>
            rw [← htrim]
            refine .bare fun inner heq => ?_
            rw [htrim] at heq
            obtain rfl : rest = inner ++ [')'] := (List.cons.inj heq).2
            rw [Text.dropLast?_eq_some_iff.mpr rfl] at hinner
            cases hinner
        | some inner =>
            obtain rfl := Text.dropLast?_eq_some_iff.mp hinner
            refine .pair htrim (ih ?_)
            have hlength := Text.length_trim_le text
            rw [htrim] at hlength
            simp only [List.length_cons, List.length_append, List.length_nil] at hlength
            omega
      · rename_i hopen
        exact .bare fun inner heq => hopen _ heq

theorem Strips.unique {text first second : List Char} (h : Strips text first)
    (h' : Strips text second) : first = second := by
  induction h generalizing second with
  | bare hbare =>
      cases h' with
      | bare => rfl
      | pair htrim _ => exact absurd htrim (hbare _)
  | pair htrim _ ih =>
      cases h' with
      | bare hbare => exact absurd htrim (hbare _)
      | pair htrim' hinner =>
          rw [htrim] at htrim'
          obtain rfl := List.append_cancel_right (List.cons.inj htrim').2
          exact ih hinner

theorem strips_iff {text stripped : List Char} :
    Strips text stripped ↔ stripParens text = stripped := by
  have hstrips := strips_stripParensUpTo (Nat.le_refl text.length)
  exact ⟨hstrips.unique, fun h => h ▸ hstrips⟩

theorem Strips.mem {text stripped : List Char} (h : Strips text stripped) {c : Char}
    (hc : c ∈ stripped) : c ∈ text := by
  induction h with
  | bare _ => exact Text.mem_of_mem_trim hc
  | pair htrim _ ih =>
      refine Text.mem_of_mem_trim ?_
      rw [htrim]
      exact List.mem_cons_of_mem _ (List.mem_append_left _ (ih hc))

/-! ## References -/

/-- How references are written. -/
inductive Reference.Written : Reference → List Char → Prop
  | own {text : List Char} : isName text = true → Written (.own (String.ofList text)) text
  | imported {aliasName name : List Char} : isName aliasName = true → isName name = true →
      Written (.imported (String.ofList aliasName) (String.ofList name)) (aliasName ++ '.' :: name)

theorem not_dot_of_isName {text : List Char} (h : isName text = true) :
    ∀ c ∈ text, decide (c = '.') = false := by
  rintro c hc
  rw [decide_eq_false_iff_not]
  rintro rfl
  cases text with
  | nil => cases hc
  | cons first rest =>
      rw [isName, Bool.and_eq_true, List.all_eq_true] at h
      rcases List.mem_cons.mp hc with rfl | hrest
      · exact absurd h.1 (by decide)
      · exact absurd (h.2 _ hrest) (by decide)

theorem reference?_eq_some_iff {text : List Char} {reference : Reference} :
    reference? text = some reference ↔ reference.Written text := by
  unfold reference?
  constructor
  · intro h
    split at h
    · obtain ⟨hname, heq⟩ := Option.ite_none_right_eq_some.mp h
      cases heq
      exact .own hname
    · rename_i aliasName name hcut
      obtain ⟨hnames, heq⟩ := Option.ite_none_right_eq_some.mp h
      cases heq
      obtain ⟨halias, hname⟩ := Bool.and_eq_true_iff.mp hnames
      obtain ⟨c, hdot, rfl⟩ := Text.exists_of_cutBy? hcut
      obtain rfl := of_decide_eq_true hdot
      exact .imported halias hname
  · rintro (hname | ⟨halias, hname⟩)
    · rw [Text.cutBy?_eq_none_iff.mpr (not_dot_of_isName hname)]
      simp [hname]
    · rw [Text.cutBy?_append (not_dot_of_isName halias) rfl]
      simp [halias, hname]

end Constant

end GoTrace
