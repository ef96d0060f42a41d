import GoTrace.Proofs.Literal.Numeral
import Mathlib.Data.List.Chain

/-!
# What is read as an integer

Separators are taken out before digits are read, and a plus sign may stand in front of the digits, so more
texts are read as integers than there are integer literals. What is read is a literal exactly when it has
no sign and no two separators next to each other.
-/

namespace GoTrace.Literal

def SingleSeparators (text : List Char) : Prop :=
  text.IsChain fun c d => c ≠ '_' ∨ d ≠ '_'

instance (text : List Char) : Decidable (SingleSeparators text) :=
  inferInstanceAs (Decidable (List.IsChain _ _))

variable {base n : Nat} {c : Char} {text literal : List Char}

/-! ## Literals have single separators and no sign -/

namespace Numeral

theorem singleSeparators (hbase : base ≤ 16) (h : Numeral base text n) : SingleSeparators text := by
  induction h with
  | digit => exact List.isChain_singleton _
  | next _ hdigit ih =>
      refine List.isChain_append.mpr ⟨ih, List.isChain_singleton _, fun _ _ d hd => .inr ?_⟩
      cases hd
      exact (hdigit.ne hbase).1
  | separated hfront hdigit ih =>
      have hpair : SingleSeparators ['_', _] := List.isChain_pair.mpr (.inr (hdigit.ne hbase).1)
      refine List.isChain_append.mpr ⟨ih, hpair, fun last hlast d _ => .inl ?_⟩
      obtain ⟨digit, c, hc, hlastdigit⟩ := hfront.exists_digit_last
      cases hc.symm.trans hlast
      exact (hlastdigit.ne hbase).1

end Numeral

theorem IsNumeric.ne_plus (h : IsNumeric c) : c ≠ '+' := by
  rcases h with rfl | ⟨digit, hdigit⟩ | hmark
  · decide
  · exact (hdigit.ne (Nat.le_refl 16)).2
  · rintro rfl
    exact absurd hmark (by decide)

/-- Digits behind a base and perhaps a separator are separated as the digits are. -/
theorem SingleSeparators.behind {separator : List Char} (front : List Char)
    (hfront : SingleSeparators front ∧ front.getLast? ≠ some '_') (hseparator : separator ∈ [[], ['_']])
    (hbase : base ≤ 16) (h : Numeral base text n) : SingleSeparators (front ++ (separator ++ text)) := by
  obtain ⟨digit, c, rest, rfl, hdigit⟩ := h.exists_digit_head
  have hsingle := h.singleSeparators hbase
  have hne := (hdigit.ne hbase).1
  have hcases : separator = [] ∨ separator = ['_'] := by simpa using hseparator
  have hbehind : SingleSeparators (separator ++ c :: rest) := by
    rcases hcases with rfl | rfl
    · exact hsingle
    · exact List.isChain_cons_cons.mpr ⟨.inr hne, hsingle⟩
  refine List.isChain_append.mpr ⟨hfront.1, hbehind, fun last hlast _ _ => .inl ?_⟩
  rintro rfl
  exact hfront.2 hlast

theorem IntLiteral.singleSeparators (h : IntLiteral literal n) : SingleSeparators literal := by
  cases h with
  | zero => decide
  | decimal htext => exact htext.singleSeparators (by decide)
  | octal hseparator htext =>
      exact SingleSeparators.behind ['0'] (by decide) hseparator (by decide) htext
  | @marked mark _ _ _ _ hmark hseparator htext =>
      have hmarks : ∀ pair ∈ radixMarks,
          SingleSeparators ['0', pair.1] ∧ ['0', pair.1].getLast? ≠ some '_' := by decide
      exact SingleSeparators.behind ['0', mark] (hmarks _ hmark) hseparator
        (base_le_of_mem_radixMarks hmark) htext

theorem IntLiteral.plus_notMem (h : IntLiteral literal n) : '+' ∉ literal :=
  fun hmem => (h.isNumeric _ hmem).ne_plus rfl

/-! ## What the digits of a text come from -/

theorem Digits.exists_of_concat (h : Digits base (text ++ [c]) n) :
    ∃ value digit, Digits base text value ∧ IsDigit base digit c ∧ n = value * base + digit := by
  generalize hwhole : text ++ [c] = whole at h
  cases h with
  | nil => exact absurd hwhole (by simp)
  | concat hfront hdigit =>
      obtain ⟨rfl, hlast⟩ := List.append_inj' hwhole rfl
      cases hlast
      exact ⟨_, _, hfront, hdigit, rfl⟩

theorem exists_of_digits? (hbase : base ≤ 16) (h : digits? base text = some n) :
    ∃ digits, digits ≠ [] ∧ (text = digits ∨ text = '+' :: digits) ∧ Digits base digits n := by
  have hread {digits : List Char}
      (h : (if digits.isEmpty then none else digitsFrom? base 0 digits) = some n) :
      digits ≠ [] ∧ Digits base digits n := by
    split at h
    · cases h
    · rename_i hne
      exact ⟨fun heq => hne (by rw [heq]; rfl), (digitsFrom?_eq_some_iff hbase).mp h⟩
  unfold digits? at h
  dsimp only at h
  split at h
  · obtain ⟨hne, hdigits⟩ := hread h
    exact ⟨_, hne, .inr rfl, hdigits⟩
  · obtain ⟨hne, hdigits⟩ := hread h
    exact ⟨_, hne, .inl rfl, hdigits⟩

/-- A text whose digits are read is a numeral when its separators stand between digits, one by one. -/
theorem Numeral.of_digits_filter (hne : text ≠ []) (hhead : text.head? ≠ some '_')
    (hlast : text.getLast? ≠ some '_') (hsingle : SingleSeparators text)
    (h : Digits base (text.filter (· ≠ '_')) n) : Numeral base text n := by
  induction hlength : text.length using Nat.strongRecOn generalizing text n with
  | ind length ih =>
      obtain ⟨front, c, rfl⟩ := (List.eq_nil_or_concat' text).resolve_left hne
      have hc : c ≠ '_' := fun heq => hlast (by rw [heq, List.getLast?_concat])
      rw [List.filter_append, List.filter_singleton, decide_eq_true hc] at h
      obtain ⟨value, digit, hdigits, hdigit, rfl⟩ := Digits.exists_of_concat h
      obtain ⟨hfront, -, -⟩ := List.isChain_append.mp hsingle
      rcases List.eq_nil_or_concat' front with rfl | ⟨before, d, rfl⟩
      · obtain rfl : value = 0 := Nat.lt_one_iff.mp hdigits.lt
        rw [Nat.zero_mul, Nat.zero_add]
        exact .digit hdigit
      · by_cases hd : d = '_'
        · -- The separator stands behind a digit, for it is neither the first nor the second of two.
          subst hd
          have hbefore : before ≠ [] := by
            rintro rfl
            exact hhead rfl
          obtain ⟨hchain, -, hpair⟩ := List.isChain_append.mp hfront
          have hlastbefore : before.getLast? ≠ some '_' := fun heq =>
            (hpair '_' heq '_' rfl).elim (absurd rfl) (absurd rfl)
          have hheadbefore : before.head? ≠ some '_' := by
            obtain ⟨first, rest, rfl⟩ := List.exists_cons_of_ne_nil hbefore
            exact hhead
          have hdropped : (before ++ ['_']).filter (· ≠ '_') = before.filter (· ≠ '_') := by
            rw [List.filter_append]
            exact List.append_nil _
          rw [hdropped] at hdigits
          have hnumeral := ih before.length (by simp [← hlength]) hbefore hheadbefore hlastbefore
            hchain hdigits rfl
          rw [List.append_assoc]
          exact .separated hnumeral hdigit
        · have hheadfront : (before ++ [d]).head? ≠ some '_' := by
            rw [List.head?_append_of_ne_nil _ (by simp)] at hhead
            exact hhead
          have hlastfront : (before ++ [d]).getLast? ≠ some '_' := by
            rw [List.getLast?_concat]
            exact fun heq => hd (Option.some.inj heq)
          exact .next (ih (before ++ [d]).length (by simp [← hlength]) (by simp) hheadfront hlastfront
            hfront hdigits rfl) hdigit

theorem exists_numeral (hbase : base ≤ 16) (hlast : text.getLast? ≠ some '_') (hplus : '+' ∉ text)
    (hsingle : SingleSeparators text) (h : digits? base (text.filter (· ≠ '_')) = some n) :
    ∃ separator ∈ [[], ['_']], ∃ rest, text = separator ++ rest ∧ Numeral base rest n := by
  obtain ⟨digits, hne, hsign, hdigits⟩ := exists_of_digits? hbase h
  obtain rfl : text.filter (· ≠ '_') = digits := by
    refine hsign.resolve_right fun heq => hplus ?_
    exact (List.mem_filter.mp (heq ▸ List.mem_cons_self)).1
  by_cases hhead : text.head? = some '_'
  · obtain ⟨rest, rfl⟩ := List.head?_eq_some_iff.mp hhead
    have hrest : rest ≠ [] := by
      rintro rfl
      exact hne rfl
    refine ⟨['_'], by simp, rest, rfl, .of_digits_filter hrest ?_ ?_ ?_ hdigits⟩
    · intro heq
      obtain ⟨further, rfl⟩ := List.head?_eq_some_iff.mp heq
      exact (List.isChain_cons_cons.mp hsingle).1.elim (absurd rfl) (absurd rfl)
    · rwa [List.getLast?_cons_of_ne_nil hrest] at hlast
    · exact hsingle.tail
  · have htext : text ≠ [] := by
      rintro rfl
      exact hne rfl
    exact ⟨[], by simp, text, rfl, .of_digits_filter htext hhead hlast hsingle hdigits⟩

/-! ## What is read -/

theorem radix_cases (text : List Char) :
    (∃ mark base rest, (mark, base) ∈ radixMarks ∧ text = '0' :: mark :: rest ∧
        radix text = (base, rest)) ∨
      (∃ c rest, text = '0' :: c :: rest ∧ radix text = (8, c :: rest)) ∨
      text = ['0'] ∨ text.head? ≠ some '0' ∧ radix text = (10, text) := by
  cases text with
  | nil => exact .inr (.inr (.inr ⟨(Option.some_ne_none _).symm, rfl⟩))
  | cons c rest =>
      by_cases hzero : c = '0'
      · subst hzero
        cases rest with
        | nil => exact .inr (.inr (.inl rfl))
        | cons d rest =>
            by_cases hmark : d ∈ radixMarks.map (·.1)
            · obtain ⟨⟨mark, base⟩, hmem, rfl⟩ := List.mem_map.mp hmark
              exact .inl ⟨mark, base, rest, hmem, rfl, radix_marked hmem rest⟩
            · exact .inr (.inl ⟨d, rest, rfl, radix_unmarked hmark rest⟩)
      · refine .inr (.inr (.inr ⟨?_, radix_of_head hzero rest⟩))
        exact fun heq => hzero (Option.some.inj heq)

theorem IntLiteral.of_digits?_radix (hhead : text.head? ≠ some '_') (hlast : text.getLast? ≠ some '_')
    (hplus : '+' ∉ text) (hsingle : SingleSeparators text)
    (h : digits? (radix text).1 ((radix text).2.filter (· ≠ '_')) = some n) : IntLiteral text n := by
  have hends (front : List Char) {rest : List Char} (hne : rest ≠ [])
      (hlast : (front ++ rest).getLast? ≠ some '_') : rest.getLast? ≠ some '_' := by
    rwa [List.getLast?_append_of_ne_nil _ hne] at hlast
  rcases radix_cases text with ⟨mark, base, rest, hmark, rfl, hradix⟩ | ⟨c, rest, rfl, hradix⟩ |
      rfl | ⟨hzero, hradix⟩
  · rw [hradix] at h
    have hne : rest ≠ [] := by
      rintro rfl
      cases h
    obtain ⟨separator, hseparator, digits, rfl, hnumeral⟩ :=
      exists_numeral (base_le_of_mem_radixMarks hmark) (hends ['0', mark] hne hlast)
        (fun hmem => hplus (by simp [hmem])) hsingle.tail.tail h
    exact .marked hmark hseparator hnumeral
  · rw [hradix] at h
    obtain ⟨separator, hseparator, digits, heq, hnumeral⟩ :=
      exists_numeral (Nat.le_add_right 8 8) (hends ['0'] (List.cons_ne_nil c rest) hlast)
        (fun hmem => hplus (List.mem_cons_of_mem _ hmem)) hsingle.tail h
    rw [heq]
    exact .octal hseparator hnumeral
  · cases h
    exact .zero
  · rw [hradix] at h
    obtain ⟨separator, hseparator, digits, rfl, hnumeral⟩ :=
      exists_numeral (Nat.le_add_right 10 6) hlast hplus hsingle h
    have hcases : separator = [] ∨ separator = ['_'] := by simpa using hseparator
    rcases hcases with rfl | rfl
    · exact .decimal hnumeral hzero
    · exact absurd rfl hhead

theorem digits?_of_readInt (h : readInt text = .value n) :
    (Text.trim text).head? ≠ some '_' ∧ (Text.trim text).getLast? ≠ some '_' ∧
      digits? (radix (Text.trim text)).1 ((radix (Text.trim text)).2.filter (· ≠ '_')) = some n := by
  unfold readInt at h
  dsimp only at h
  split at h
  · cases h
  · rename_i hedges
    simp only [Bool.or_eq_true, decide_eq_true_eq, not_or] at hedges
    split at h
    · cases h
    · split at h
      · rename_i hdigits
        split at h <;> cases h
        exact ⟨hedges.1.2, hedges.2, hdigits⟩
      · cases h

/-- What is read as an integer is an integer literal between white space, but for two liberties: a plus
sign may stand in front of the digits, and separators may be repeated. -/
theorem isIntLiteral_iff_of_readInt (h : readInt text = .value n) :
    (∃ value, IntLiteral (Text.trim text) value) ↔
      '+' ∉ Text.trim text ∧ SingleSeparators (Text.trim text) := by
  constructor
  · rintro ⟨value, hliteral⟩
    exact ⟨hliteral.plus_notMem, hliteral.singleSeparators⟩
  · rintro ⟨hplus, hsingle⟩
    obtain ⟨hhead, hlast, hdigits⟩ := digits?_of_readInt h
    exact ⟨n, .of_digits?_radix hhead hlast hplus hsingle hdigits⟩

/-- A literal, and one with both liberties. -/
theorem isIntLiteral_iff_of_readInt_both :
    (readInt " 0b_1_0".toList = .value 2 ∧ ∃ value, IntLiteral (Text.trim " 0b_1_0".toList) value) ∧
      (readInt "0x+_F__f".toList = .value 255 ∧
        ¬ ∃ value, IntLiteral (Text.trim "0x+_F__f".toList) value) := by
  have hliteral : readInt " 0b_1_0".toList = .value 2 := by decide +kernel
  have hliberal : readInt "0x+_F__f".toList = .value 255 := by decide +kernel
  refine ⟨⟨hliteral, (isIntLiteral_iff_of_readInt hliteral).mpr (by decide +kernel)⟩, hliberal, ?_⟩
  rw [isIntLiteral_iff_of_readInt hliberal]
  decide +kernel

/-- Signed digits and repeated separators are read, though no literal has them. -/
theorem readInt_no_intLiteral :
    (readInt "+5".toList = .value 5 ∧ ¬ ∃ value, IntLiteral (Text.trim "+5".toList) value) ∧
      (readInt "1__0".toList = .value 10 ∧ ¬ ∃ value, IntLiteral (Text.trim "1__0".toList) value) := by
  refine ⟨⟨by decide +kernel, ?_⟩, by decide +kernel, ?_⟩
  · rintro ⟨value, hliteral⟩
    exact hliteral.plus_notMem (by decide +kernel)
  · rintro ⟨value, hliteral⟩
    exact absurd hliteral.singleSeparators (by decide +kernel)

end GoTrace.Literal
