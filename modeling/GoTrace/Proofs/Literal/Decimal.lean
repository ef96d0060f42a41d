import GoTrace.Literal.Integer
import GoTrace.Proofs.Text.Cut

/-!
# Decimal numbers read back

A number of at most 64 bits that is written in decimal digits is read as that number. What is read as
an integer has at most 64 bits, and reading breaks off only over a character of several bytes.
-/

namespace GoTrace

namespace Text

theorem toNat_of_isDigit {c : Char} (h : c.isDigit = true) : 48 ≤ c.toNat ∧ c.toNat ≤ 57 := by
  rw [Char.isDigit, Bool.and_eq_true, decide_eq_true_eq, decide_eq_true_eq] at h
  exact h

theorem isBlank_of_isDigit {c : Char} (h : c.isDigit = true) : isBlank c = false := by
  obtain ⟨hlow, hhigh⟩ := toNat_of_isDigit h
  have hspace : c ≠ ' ' := by
    rintro rfl
    exact absurd h (by decide)
  have htable : Ranges.contains
      [(0x85, 0x85), (0xA0, 0xA0), (0x1680, 0x1680), (0x2000, 0x200A), (0x2028, 0x2029),
       (0x202F, 0x202F), (0x205F, 0x205F), (0x3000, 0x3000)] c = false := by
    simp [Ranges.contains]
    omega
  rw [isBlank, htable]
  simp [hspace]
  omega

end Text

namespace Literal

theorem digitBelow?_digitChar {d : Nat} (h : d < 10) : digitBelow? 10 d.digitChar = some d := by
  have hcases : d = 0 ∨ d = 1 ∨ d = 2 ∨ d = 3 ∨ d = 4 ∨ d = 5 ∨ d = 6 ∨ d = 7 ∨ d = 8 ∨ d = 9 := by
    omega
  rcases hcases with rfl | rfl | rfl | rfl | rfl | rfl | rfl | rfl | rfl | rfl <;> decide

theorem digitsFrom?_append (base value : Nat) (first second : List Char) :
    digitsFrom? base value (first ++ second) =
      (digitsFrom? base value first).bind fun between => digitsFrom? base between second := by
  induction first generalizing value with
  | nil => rfl
  | cons c rest ih =>
      rw [List.cons_append, digitsFrom?, digitsFrom?]
      cases digitBelow? base c with
      | none => rfl
      | some d => exact ih _

theorem digitsFrom?_toDigits (n : Nat) : digitsFrom? 10 0 (Nat.toDigits 10 n) = some n := by
  induction n using Nat.strongRecOn with
  | ind n ih =>
      rw [Nat.toDigits_eq_if (by decide)]
      split
      · rename_i hlt
        simp [digitsFrom?, digitBelow?_digitChar hlt]
      · rename_i hle
        have hmod : n % 10 < 10 := Nat.mod_lt _ (by decide)
        rw [digitsFrom?_append, ih (n / 10) (by omega), Option.bind_some, digitsFrom?,
          digitBelow?_digitChar hmod, Option.bind_some, digitsFrom?]
        congr 1
        omega

theorem radix_of_head {c : Char} (h : c ≠ '0') (rest : List Char) :
    radix (c :: rest) = (10, c :: rest) := by
  unfold radix
  split <;> simp_all

theorem head_toDigits_ne_zero {n : Nat} (h : 0 < n) : (Nat.toDigits 10 n).head? ≠ some '0' := by
  induction n using Nat.strongRecOn with
  | ind n ih =>
      rw [Nat.toDigits_eq_if (by decide)]
      split
      · simp
        omega
      · have hdiv : 0 < n / 10 := by omega
        have hhead := ih (n / 10) (by omega) hdiv
        cases hdigits : Nat.toDigits 10 (n / 10) with
        | nil => exact absurd hdigits Nat.toDigits_ne_nil
        | cons c rest =>
            rw [hdigits] at hhead
            simpa using hhead

theorem radix_toDigits (n : Nat) : radix (Nat.toDigits 10 n) = (10, Nat.toDigits 10 n) := by
  rcases Nat.eq_zero_or_pos n with rfl | hpos
  · rfl
  · have hhead := head_toDigits_ne_zero hpos
    cases hdigits : Nat.toDigits 10 n with
    | nil => exact absurd hdigits Nat.toDigits_ne_nil
    | cons c rest =>
        refine radix_of_head ?_ rest
        rintro rfl
        rw [hdigits] at hhead
        exact hhead rfl

theorem exists_wide_of_splitsAtTwo {text : List Char} (h : splitsAtTwo text = true) :
    ∃ c ∈ text, 1 < c.utf8Size := by
  unfold splitsAtTwo at h
  split at h
  · cases h
  · exact ⟨_, List.mem_singleton_self _, Nat.lt_of_succ_lt (of_decide_eq_true h)⟩
  · split at h
    · exact ⟨_, List.mem_cons_of_mem _ List.mem_cons_self, of_decide_eq_true h⟩
    · exact ⟨_, List.mem_cons_self, Nat.lt_of_succ_lt (of_decide_eq_true h)⟩

theorem splitsAtTwo_of_isDigit {text : List Char} (h : ∀ c ∈ text, c.isDigit = true) :
    splitsAtTwo text = false := by
  refine Bool.eq_false_iff.mpr fun hsplits => ?_
  obtain ⟨c, hc, hwide⟩ := exists_wide_of_splitsAtTwo hsplits
  obtain ⟨-, hhigh⟩ := Text.toNat_of_isDigit (h c hc)
  have hsize : c.utf8Size = 1 :=
    Char.utf8Size_eq_one_iff.mpr (UInt32.le_iff_toNat_le.mpr (Nat.le_trans hhigh (by decide)))
  omega

theorem isDigit_of_mem_toDigits {n : Nat} {c : Char} (h : c ∈ Nat.toDigits 10 n) :
    c.isDigit = true :=
  Nat.isDigit_of_mem_toDigits (by decide) (by decide) h

theorem trim_toDigits (n : Nat) : Text.trim (Nat.toDigits 10 n) = Nat.toDigits 10 n :=
  Text.Unbroken.trim_eq fun _ hmem => Text.isBlank_of_isDigit (isDigit_of_mem_toDigits hmem)

theorem readInt_toDigits {n : Nat} (h : n < UInt64.size) :
    readInt (Nat.toDigits 10 n) = .value n := by
  have hdigit : ∀ c ∈ Nat.toDigits 10 n, c.isDigit = true := fun _ => isDigit_of_mem_toDigits
  have hunderscore : ∀ c ∈ Nat.toDigits 10 n, c ≠ '_' := by
    rintro c hmem rfl
    exact absurd (hdigit '_' hmem) (by decide)
  have hfilter : (Nat.toDigits 10 n).filter (· ≠ '_') = Nat.toDigits 10 n :=
    List.filter_eq_self.mpr fun c hmem => by simpa using hunderscore c hmem
  have hends : (Nat.toDigits 10 n).head? ≠ some '_' ∧ (Nat.toDigits 10 n).getLast? ≠ some '_' :=
    ⟨fun h => hunderscore '_' (List.mem_of_head? h) rfl,
      fun h => hunderscore '_' (List.mem_of_getLast? h) rfl⟩
  have hsplits : splitsAtTwo (Nat.toDigits 10 n) = false := splitsAtTwo_of_isDigit hdigit
  have hdigits : digits? 10 (Nat.toDigits 10 n) = some n := by
    have hunsigned : ∀ text : List Char, text ≠ [] → (∀ c ∈ text, c.isDigit = true) →
        digits? 10 text = digitsFrom? 10 0 text := by
      intro text hne hall
      unfold digits?
      split
      · exact absurd (hall '+' List.mem_cons_self) (by decide)
      · simp [hne]
    rw [hunsigned _ Nat.toDigits_ne_nil hdigit, digitsFrom?_toDigits]
  unfold readInt
  simp only [trim_toDigits, hsplits, radix_toDigits, hfilter, hdigits]
  simp [hends.1, hends.2, h]

theorem lt_of_readInt {text : List Char} {n : Nat} (h : readInt text = .value n) :
    n < UInt64.size := by
  unfold readInt at h
  dsimp only at h
  split at h
  · cases h
  · split at h
    · cases h
    · split at h
      · split at h
        · cases h
          assumption
        · cases h
      · cases h

theorem exists_wide_of_readInt {text : List Char} (h : readInt text = .splitCharacter) :
    ∃ c ∈ text, 1 < c.utf8Size := by
  unfold readInt at h
  dsimp only at h
  split at h
  · cases h
  · split at h
    · rename_i hsplits
      obtain ⟨c, hc, hwide⟩ := exists_wide_of_splitsAtTwo hsplits
      exact ⟨c, Text.mem_of_mem_trim hc, hwide⟩
    · split at h
      · split at h <;> cases h
      · cases h

end Literal

end GoTrace
