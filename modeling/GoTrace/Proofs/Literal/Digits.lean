import GoTrace.Literal.Unquote
import GoTrace.Proofs.Literal.Decimal
import GoTrace.Proofs.Literal.Quoted
import Mathlib.Algebra.Group.Nat.Defs
import Mathlib.Data.List.Induction

/-!
# Digits and their values

Which characters are digits of a base, and which number a sequence of digits stands for: a further digit
multiplies by the base and adds its value. Numbers in literals and in escapes are read so.
-/

namespace GoTrace.Literal

/-- The digit of value `digit` in a base up to 16, a letter in either case. -/
def IsDigit (base digit : Nat) (c : Char) : Prop :=
  digit < base ∧ (c = digit.digitChar ∨ c = digit.digitChar.toUpper)

instance (base digit : Nat) (c : Char) : Decidable (IsDigit base digit c) :=
  inferInstanceAs (Decidable (_ ∧ _))

/-- A sequence of digits and its value. -/
inductive Digits (base : Nat) : List Char → Nat → Prop
  | nil : Digits base [] 0
  | concat {text : List Char} {value digit : Nat} {c : Char} :
      Digits base text value → IsDigit base digit c → Digits base (text ++ [c]) (value * base + digit)

variable {base : Nat} {c : Char}

theorem digitValue?_eq_some_iff {digit : Nat} :
    digitValue? c = some digit ↔ IsDigit 16 digit c := by
  constructor
  · intro h
    have hascii : c.toNat < 128 := by
      unfold digitValue? at h
      split at h
      · rename_i hdigit
        obtain ⟨-, hhigh⟩ := Text.toNat_of_isDigit hdigit
        omega
      · split at h
        · rename_i hlower
          simp only [Bool.and_eq_true, decide_eq_true_eq] at hlower
          exact Nat.lt_of_le_of_lt hlower.2 (by decide)
        · split at h
          · rename_i hupper
            simp only [Bool.and_eq_true, decide_eq_true_eq] at hupper
            exact Nat.lt_of_le_of_lt hupper.2 (by decide)
          · cases h
    revert h
    refine Text.forall_ascii (p := fun c => digitValue? c = some digit → IsDigit 16 digit c) ?_ hascii
    intro n hn h
    have hbelow : ∀ n < 128, ∀ digit ∈ digitValue? (Char.ofNat n), IsDigit 16 digit (Char.ofNat n) := by
      decide +kernel
    exact hbelow n hn digit h
  · rintro ⟨hlt, heq⟩
    have hboth : ∀ digit < 16, digitValue? digit.digitChar = some digit ∧
        digitValue? digit.digitChar.toUpper = some digit := by
      decide
    rcases heq with rfl | rfl
    · exact (hboth digit hlt).1
    · exact (hboth digit hlt).2

theorem digitBelow?_eq_some_iff (hbase : base ≤ 16) {digit : Nat} :
    digitBelow? base c = some digit ↔ IsDigit base digit c := by
  rw [digitBelow?, Option.filter_eq_some_iff, digitValue?_eq_some_iff, decide_eq_true_eq]
  constructor
  · rintro ⟨⟨-, heq⟩, hlt⟩
    exact ⟨hlt, heq⟩
  · rintro ⟨hlt, heq⟩
    exact ⟨⟨Nat.lt_of_lt_of_le hlt hbase, heq⟩, hlt⟩

theorem digitsFrom?_eq_some_iff (hbase : base ≤ 16) {text : List Char} {value : Nat} :
    digitsFrom? base 0 text = some value ↔ Digits base text value := by
  constructor
  · intro h
    induction text using List.reverseRecOn generalizing value with
    | nil =>
        cases h
        exact .nil
    | append_singleton text c ih =>
        rw [digitsFrom?_append, Option.bind_eq_some_iff] at h
        obtain ⟨front, hfront, h⟩ := h
        rw [digitsFrom?, Option.bind_eq_some_iff] at h
        obtain ⟨digit, hdigit, h⟩ := h
        cases h
        exact .concat (ih hfront) ((digitBelow?_eq_some_iff hbase).mp hdigit)
  · intro h
    induction h with
    | nil => rfl
    | concat _ hdigit ih =>
        rw [digitsFrom?_append, ih, Option.bind_some, digitsFrom?,
          (digitBelow?_eq_some_iff hbase).mpr hdigit]
        rfl

theorem takeDigits?_go_eq_some_iff {value count result : Nat} {text rest : List Char} :
    takeDigits?.go base value count text = some (result, rest) ↔
      ∃ digits, text = digits ++ rest ∧ digits.length = count ∧
        digitsFrom? base value digits = some result := by
  induction count generalizing value text with
  | zero =>
      rw [takeDigits?.go, Option.some.injEq, Prod.mk.injEq]
      constructor
      · rintro ⟨rfl, rfl⟩
        exact ⟨[], rfl, rfl, rfl⟩
      · rintro ⟨digits, rfl, hlength, hvalue⟩
        obtain rfl := List.length_eq_zero_iff.mp hlength
        cases hvalue
        exact ⟨rfl, rfl⟩
  | succ count ih =>
      cases text with
      | nil =>
          rw [takeDigits?.go]
          refine iff_of_false nofun ?_
          rintro ⟨digits, heq, hlength, -⟩
          obtain ⟨rfl, -⟩ := List.append_eq_nil_iff.mp heq.symm
          cases hlength
      | cons c text =>
          rw [takeDigits?.go]
          cases hdigit : digitBelow? base c with
          | none =>
              refine iff_of_false nofun ?_
              rintro ⟨digits, heq, hlength, hvalue⟩
              obtain ⟨d, digits, rfl⟩ := List.exists_cons_of_length_eq_add_one hlength
              cases heq
              rw [digitsFrom?, hdigit] at hvalue
              cases hvalue
          | some digit =>
              dsimp only
              rw [ih]
              constructor
              · rintro ⟨digits, rfl, rfl, hvalue⟩
                exact ⟨c :: digits, rfl, rfl, by rw [digitsFrom?, hdigit]; exact hvalue⟩
              · rintro ⟨digits, heq, hlength, hvalue⟩
                obtain ⟨d, digits, rfl⟩ := List.exists_cons_of_length_eq_add_one hlength
                cases heq
                rw [digitsFrom?, hdigit] at hvalue
                exact ⟨digits, rfl, Nat.succ.inj hlength, hvalue⟩

theorem takeDigits?_eq_some_iff (hbase : base ≤ 16) {count value : Nat} {text rest : List Char} :
    takeDigits? base count text = some (value, rest) ↔
      ∃ digits, text = digits ++ rest ∧ digits.length = count ∧ Digits base digits value := by
  rw [takeDigits?, takeDigits?_go_eq_some_iff]
  simp only [digitsFrom?_eq_some_iff hbase]

theorem Digits.lt {text : List Char} {value : Nat} (h : Digits base text value) :
    value < base ^ text.length := by
  induction h with
  | nil => exact Nat.one_pos
  | @concat text value digit c _ hdigit ih =>
      rw [List.length_append, List.length_singleton, Nat.pow_succ]
      calc value * base + digit < value * base + base := Nat.add_lt_add_left hdigit.1 _
        _ = (value + 1) * base := (Nat.succ_mul value base).symm
        _ ≤ base ^ text.length * base := Nat.mul_le_mul_right base ih

end GoTrace.Literal
