import Mathlib.Tactic.SplitIfs

/-!
# The order of texts

Texts are compared by their characters. In UTF-8 that is the order of their bytes, since the first
bytes of a character tell how many there are, more of them for later characters, and characters of one
length differ in their digits in base 64.
-/

namespace GoTrace.Text

def bytes (text : String) : List UInt8 := text.toList.flatMap String.utf8EncodeChar

/-- Numbers are in the order of their digits in base 64, of which the last three stand alone. -/
theorem digits_lt {m n : Nat} (h : m < n) :
    m / 262144 < n / 262144 ∨ m / 262144 = n / 262144 ∧
      (m / 4096 % 64 < n / 4096 % 64 ∨ m / 4096 % 64 = n / 4096 % 64 ∧
        (m / 64 % 64 < n / 64 % 64 ∨ m / 64 % 64 = n / 64 % 64 ∧ m % 64 < n % 64)) := by
  have hlast {m n : Nat} (h : m < n) : m / 64 < n / 64 ∨ m / 64 = n / 64 ∧ m % 64 < n % 64 := by
    omega
  rw [← Nat.div_div_eq_div_mul m 4096 64, ← Nat.div_div_eq_div_mul n 4096 64,
    ← Nat.div_div_eq_div_mul m 64 64, ← Nat.div_div_eq_div_mul n 64 64]
  rcases hlast h with h | ⟨heq, h⟩
  · rcases hlast h with h | ⟨heq, h⟩
    · rcases hlast h with h | ⟨heq, h⟩
      · exact .inl h
      · exact .inr ⟨heq, .inl h⟩
    · rw [heq]
      exact .inr ⟨rfl, .inr ⟨rfl, .inl h⟩⟩
  · rw [heq]
    exact .inr ⟨rfl, .inr ⟨rfl, .inr ⟨rfl, h⟩⟩⟩

/-- The bytes of a character come before those of a later one, whatever stands behind them. -/
theorem utf8EncodeChar_lt {c d : Char} (h : c < d) (rest rest' : List UInt8) :
    String.utf8EncodeChar c ++ rest < String.utf8EncodeChar d ++ rest' := by
  have hlt : c.val.toNat < d.val.toNat := h
  have hbound : d.val.toNat < 0x110000 := by
    rcases d.valid with hd | ⟨-, hd⟩
    · exact Nat.lt_trans hd (by decide)
    · exact hd
  have hbyte {m n : Nat} (hm : m < 256) (hn : n < 256) :
      (UInt8.ofNat m < UInt8.ofNat n ↔ m < n) ∧ (UInt8.ofNat m = UInt8.ofNat n ↔ m = n) := by
    rw [UInt8.lt_iff_toNat_lt, ← UInt8.toNat_inj, UInt8.toNat_ofNat', UInt8.toNat_ofNat',
      Nat.mod_eq_of_lt hm, Nat.mod_eq_of_lt hn]
    exact ⟨.rfl, .rfl⟩
  have hlead {k : Nat} (hk : k < 0x110000) : k / 262144 % 8 = k / 262144 := by omega
  have hdigits := digits_lt hlt
  unfold String.utf8EncodeChar
  dsimp only
  generalize c.val.toNat = m at hlt hdigits
  generalize d.val.toNat = n at hlt hdigits hbound
  -- One case for each pair of lengths: the first bytes decide it when the lengths differ.
  split_ifs
  all_goals
    simp (disch := omega) only [List.cons_append, List.nil_append, List.cons_lt_cons_iff, hbyte,
      hlead, Nat.add_lt_add_iff_right, Nat.add_right_cancel_iff]
  case neg => grind
  all_goals omega

theorem bytes_lt_bytes {first second : String} (h : first < second) :
    bytes first < bytes second := by
  replace h : List.Lex (· < ·) first.toList second.toList := h
  unfold bytes
  generalize first.toList = chars at h ⊢
  generalize second.toList = chars' at h ⊢
  induction h with
  | @nil c rest =>
      obtain ⟨byte, others, heq⟩ := List.exists_cons_of_ne_nil (String.utf8EncodeChar_ne_nil (c := c))
      rw [List.flatMap_nil, List.flatMap_cons, heq, List.cons_append]
      exact List.Lex.nil
  | cons _ ih =>
      rw [List.flatMap_cons, List.flatMap_cons]
      exact List.append_left_lt ih
  | rel hlt =>
      rw [List.flatMap_cons, List.flatMap_cons]
      exact utf8EncodeChar_lt hlt _ _

end GoTrace.Text
