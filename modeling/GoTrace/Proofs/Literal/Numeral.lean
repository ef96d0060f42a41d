import GoTrace.Proofs.Literal.Digits

/-!
# Integer literals and their values

The grammar of integer literals: digits of one base with single separators between them, behind a zero
and a mark of the base where it is not ten. Every literal of the grammar is read as its value wherever 64
bits hold it, and as no integer elsewhere.
-/

namespace GoTrace.Literal

/-- Digits of a base with at most one `_` between two of them, and their value. -/
inductive Numeral (base : Nat) : List Char → Nat → Prop
  | digit {digit : Nat} {c : Char} : IsDigit base digit c → Numeral base [c] digit
  | next {text : List Char} {value digit : Nat} {c : Char} :
      Numeral base text value → IsDigit base digit c →
      Numeral base (text ++ [c]) (value * base + digit)
  | separated {text : List Char} {value digit : Nat} {c : Char} :
      Numeral base text value → IsDigit base digit c →
      Numeral base (text ++ ['_', c]) (value * base + digit)

def radixMarks : List (Char × Nat) :=
  [('x', 16), ('X', 16), ('o', 8), ('O', 8), ('b', 2), ('B', 2)]

/-- An integer literal and its value: zero, a number in base 10 without leading zeros, one in base 8
behind a zero, or one in the base of its mark. One separator may stand in front of the digits there. -/
inductive IntLiteral : List Char → Nat → Prop
  | zero : IntLiteral ['0'] 0
  | decimal {text : List Char} {n : Nat} :
      Numeral 10 text n → text.head? ≠ some '0' → IntLiteral text n
  | octal {separator text : List Char} {n : Nat} :
      separator ∈ [[], ['_']] → Numeral 8 text n → IntLiteral ('0' :: (separator ++ text)) n
  | marked {mark : Char} {base n : Nat} {separator text : List Char} :
      (mark, base) ∈ radixMarks → separator ∈ [[], ['_']] → Numeral base text n →
      IntLiteral ('0' :: mark :: (separator ++ text)) n

/-! ## The characters of a literal -/

def IsNumeric (c : Char) : Prop :=
  c = '_' ∨ (∃ digit, IsDigit 16 digit c) ∨ c ∈ radixMarks.map (·.1)

variable {base digit n : Nat} {c : Char} {text literal : List Char}

theorem IsDigit.mono {larger : Nat} (hle : base ≤ larger) (h : IsDigit base digit c) :
    IsDigit larger digit c :=
  ⟨Nat.lt_of_lt_of_le h.1 hle, h.2⟩

theorem IsDigit.ne (hbase : base ≤ 16) (h : IsDigit base digit c) : c ≠ '_' ∧ c ≠ '+' := by
  have hall : ∀ digit < 16, (digit.digitChar ≠ '_' ∧ digit.digitChar ≠ '+') ∧
      digit.digitChar.toUpper ≠ '_' ∧ digit.digitChar.toUpper ≠ '+' := by
    decide
  have hdigit := hall digit (Nat.lt_of_lt_of_le h.1 hbase)
  rcases h.2 with rfl | rfl
  · exact hdigit.1
  · exact hdigit.2

theorem IsDigit.notMem_radixMarks (h : IsDigit 8 digit c) : c ∉ radixMarks.map (·.1) := by
  have hall : ∀ digit < 8, digit.digitChar ∉ radixMarks.map (·.1) ∧
      digit.digitChar.toUpper ∉ radixMarks.map (·.1) := by
    decide
  have hdigit := hall digit h.1
  rcases h.2 with rfl | rfl
  · exact hdigit.1
  · exact hdigit.2

theorem IsNumeric.ascii (h : IsNumeric c) : Text.isBlank c = false ∧ c.utf8Size = 1 := by
  have hdigits : ∀ digit < 16,
      (Text.isBlank digit.digitChar = false ∧ digit.digitChar.utf8Size = 1) ∧
        Text.isBlank digit.digitChar.toUpper = false ∧ digit.digitChar.toUpper.utf8Size = 1 := by
    decide
  have hmarks : ∀ mark ∈ radixMarks.map (·.1), Text.isBlank mark = false ∧ mark.utf8Size = 1 :=
    List.forall_mem_map.mpr (by decide)
  rcases h with rfl | ⟨digit, hlt, rfl | rfl⟩ | hmark
  · decide
  · exact (hdigits digit hlt).1
  · exact (hdigits digit hlt).2
  · exact hmarks c hmark

theorem base_le_of_mem_radixMarks {mark : Char} (h : (mark, base) ∈ radixMarks) : base ≤ 16 := by
  have hmarks : ∀ pair ∈ radixMarks, pair.2 ≤ 16 := by decide
  exact hmarks _ h

namespace Numeral

theorem of_digits (hne : text ≠ []) (h : Digits base text n) : Numeral base text n := by
  induction h with
  | nil => exact absurd rfl hne
  | @concat text value digit c hdigits hdigit ih =>
      cases text with
      | nil =>
          have hlt : value < 1 := hdigits.lt
          obtain rfl : value = 0 := Nat.lt_one_iff.mp hlt
          rw [Nat.zero_mul, Nat.zero_add, List.nil_append]
          exact .digit hdigit
      | cons d text => exact .next (ih (List.cons_ne_nil _ _)) hdigit

theorem exists_digit_head (h : Numeral base text n) :
    ∃ digit c rest, text = c :: rest ∧ IsDigit base digit c := by
  induction h with
  | digit hdigit => exact ⟨_, _, [], rfl, hdigit⟩
  | next _ _ ih =>
      obtain ⟨digit, c, rest, rfl, hdigit⟩ := ih
      exact ⟨digit, c, _, rfl, hdigit⟩
  | separated _ _ ih =>
      obtain ⟨digit, c, rest, rfl, hdigit⟩ := ih
      exact ⟨digit, c, _, rfl, hdigit⟩

theorem exists_digit_last (h : Numeral base text n) :
    ∃ digit c, text.getLast? = some c ∧ IsDigit base digit c := by
  cases h with
  | digit hdigit => exact ⟨_, _, rfl, hdigit⟩
  | next _ hdigit => exact ⟨_, _, List.getLast?_concat, hdigit⟩
  | separated _ hdigit => exact ⟨_, _, by rw [List.getLast?_append]; rfl, hdigit⟩

theorem isNumeric (hbase : base ≤ 16) (h : Numeral base text n) : ∀ c ∈ text, IsNumeric c := by
  have hnumeric {digit : Nat} {c : Char} (h : IsDigit base digit c) : IsNumeric c :=
    .inr (.inl ⟨digit, h.mono hbase⟩)
  induction h with
  | digit hdigit => simpa using hnumeric hdigit
  | next _ hdigit ih =>
      rw [List.forall_mem_append]
      exact ⟨ih, by simpa using hnumeric hdigit⟩
  | separated _ hdigit ih =>
      rw [List.forall_mem_append]
      exact ⟨ih, by simpa using ⟨.inl rfl, hnumeric hdigit⟩⟩

theorem digits_filter (hbase : base ≤ 16) (h : Numeral base text n) :
    Digits base (text.filter (· ≠ '_')) n := by
  have hkept {digit : Nat} {c : Char} (h : IsDigit base digit c) : [c].filter (· ≠ '_') = [c] := by
    simp [(h.ne hbase).1]
  induction h with
  | @digit digit c hdigit =>
      have hdigits := Digits.nil.concat hdigit
      rwa [Nat.zero_mul, Nat.zero_add, List.nil_append, ← hkept hdigit] at hdigits
  | next _ hdigit ih =>
      rw [List.filter_append, hkept hdigit]
      exact .concat ih hdigit
  | @separated text _ _ c _ hdigit ih =>
      have hdropped : ['_', c].filter (· ≠ '_') = [c].filter (· ≠ '_') := rfl
      rw [List.filter_append, hdropped, hkept hdigit]
      exact .concat ih hdigit

/-- With one separator in front of them or none, the digits are read as their value. -/
theorem digits? (hbase : base ≤ 16) {separator : List Char} (hseparator : separator ∈ [[], ['_']])
    (h : Numeral base text n) :
    digits? base ((separator ++ text).filter (· ≠ '_')) = some n := by
  have hfilter : (separator ++ text).filter (· ≠ '_') = text.filter (· ≠ '_') := by
    have hcases : separator = [] ∨ separator = ['_'] := by simpa using hseparator
    rcases hcases with rfl | rfl <;> rfl
  obtain ⟨digit, c, rest, rfl, hdigit⟩ := h.exists_digit_head
  have hne := hdigit.ne hbase
  have hdigits := h.digits_filter hbase
  rw [hfilter]
  rw [List.filter_cons_of_pos (by simpa using hne.1)] at hdigits ⊢
  unfold Literal.digits?
  split
  · rename_i heq
    exact absurd (List.cons.inj heq).1 hne.2
  · exact (digitsFrom?_eq_some_iff hbase).mpr hdigits

end Numeral

/-! ## Reading a literal -/

theorem radix_marked {mark : Char} (h : (mark, base) ∈ radixMarks) (rest : List Char) :
    radix ('0' :: mark :: rest) = (base, rest) := by
  simp only [radixMarks, List.mem_cons, List.not_mem_nil, or_false, Prod.mk.injEq] at h
  rcases h with ⟨rfl, rfl⟩ | ⟨rfl, rfl⟩ | ⟨rfl, rfl⟩ | ⟨rfl, rfl⟩ | ⟨rfl, rfl⟩ | ⟨rfl, rfl⟩ <;> rfl

theorem radix_unmarked (h : c ∉ radixMarks.map (·.1)) (rest : List Char) :
    radix ('0' :: c :: rest) = (8, c :: rest) := by
  unfold radix
  split
  case h_7 heq =>
    cases heq
    rfl
  case h_8 hnot => exact absurd rfl (hnot c rest)
  all_goals
    rename_i heq
    cases heq
    exact absurd (by decide) h

namespace IntLiteral

theorem isNumeric (h : IntLiteral literal n) : ∀ c ∈ literal, IsNumeric c := by
  have hzero : IsNumeric '0' := .inr (.inl ⟨0, by decide⟩)
  have hseparator {separator : List Char} (h : separator ∈ [[], ['_']]) :
      ∀ c ∈ separator, IsNumeric c := by
    have hcases : separator = [] ∨ separator = ['_'] := by simpa using h
    rcases hcases with rfl | rfl
    · exact nofun
    · exact List.forall_mem_singleton.mpr (.inl rfl)
  cases h with
  | zero => exact List.forall_mem_singleton.mpr hzero
  | decimal htext => exact htext.isNumeric (by decide)
  | octal hmem htext =>
      rw [List.forall_mem_cons, List.forall_mem_append]
      exact ⟨hzero, hseparator hmem, htext.isNumeric (by decide)⟩
  | marked hmark hmem htext =>
      rw [List.forall_mem_cons, List.forall_mem_cons, List.forall_mem_append]
      exact ⟨hzero, .inr (.inr (List.mem_map_of_mem hmark)), hseparator hmem,
        htext.isNumeric (base_le_of_mem_radixMarks hmark)⟩

theorem ends (h : IntLiteral literal n) :
    literal ≠ [] ∧ literal.head? ≠ some '_' ∧ literal.getLast? ≠ some '_' := by
  have hlast {base n : Nat} {text : List Char} (front : List Char) (hbase : base ≤ 16)
      (h : Numeral base text n) : (front ++ text).getLast? ≠ some '_' := by
    obtain ⟨digit, c, hc, hdigit⟩ := h.exists_digit_last
    rw [List.getLast?_append, hc, Option.some_or]
    exact fun heq => (hdigit.ne hbase).1 (Option.some.inj heq)
  cases h with
  | zero => decide
  | decimal htext =>
      have hend := hlast [] (by decide) htext
      obtain ⟨digit, c, rest, rfl, hdigit⟩ := htext.exists_digit_head
      have hne := hdigit.ne (by decide)
      exact ⟨List.cons_ne_nil _ _, fun heq => hne.1 (Option.some.inj heq), hend⟩
  | @octal separator text _ _ htext =>
      exact ⟨List.cons_ne_nil _ _, by simp, hlast ('0' :: separator) (by decide) htext⟩
  | @marked mark _ _ separator text hmark _ htext =>
      exact ⟨List.cons_ne_nil _ _, by simp,
        hlast ('0' :: mark :: separator) (base_le_of_mem_radixMarks hmark) htext⟩

theorem digits?_radix (h : IntLiteral literal n) :
    digits? (radix literal).1 ((radix literal).2.filter (· ≠ '_')) = some n := by
  cases h with
  | zero => rfl
  | decimal htext hhead =>
      have hradix : radix literal = (10, literal) := by
        obtain ⟨digit, c, rest, rfl, -⟩ := htext.exists_digit_head
        exact radix_of_head (fun heq => hhead (congrArg some heq)) rest
      rw [hradix]
      exact htext.digits? (Nat.le_add_right 10 6) List.mem_cons_self
  | @octal separator text _ hseparator htext =>
      have hhead : ∃ c rest, separator ++ text = c :: rest ∧ c ∉ radixMarks.map (·.1) := by
        obtain ⟨digit, c, rest, rfl, hdigit⟩ := htext.exists_digit_head
        have hcases : separator = [] ∨ separator = ['_'] := by simpa using hseparator
        rcases hcases with rfl | rfl
        · exact ⟨c, rest, rfl, hdigit.notMem_radixMarks⟩
        · exact ⟨'_', _, rfl, by decide⟩
      obtain ⟨c, rest, heq, hunmarked⟩ := hhead
      rw [heq, radix_unmarked hunmarked, ← heq]
      exact htext.digits? (Nat.le_add_right 8 8) hseparator
  | marked hmark hseparator htext =>
      rw [radix_marked hmark]
      exact htext.digits? (base_le_of_mem_radixMarks hmark) hseparator

end IntLiteral

theorem trim_between {front back : List Char} (hliteral : Text.Unbroken literal)
    (hfront : ∀ c ∈ front, Text.isBlank c = true) (hback : ∀ c ∈ back, Text.isBlank c = true) :
    Text.trim (front ++ literal ++ back) = literal := by
  rw [Text.trim_append_blanks hback, Text.trim_blanks_append hfront, hliteral.trim_eq]

/-- An integer literal between white space is read as its value where 64 bits hold it, and is no integer
where they do not. -/
theorem readInt_intLiteral {front back : List Char} (h : IntLiteral literal n)
    (hfront : ∀ c ∈ front, Text.isBlank c = true) (hback : ∀ c ∈ back, Text.isBlank c = true) :
    readInt (front ++ literal ++ back) = if n < 2 ^ 64 then .value n else .notInteger := by
  obtain ⟨hne, hhead, hlast⟩ := h.ends
  have htrim : Text.trim (front ++ literal ++ back) = literal :=
    trim_between (fun c hc => (h.isNumeric c hc).ascii.1) hfront hback
  have hsplits : splitsAtTwo literal = false := by
    refine Bool.eq_false_iff.mpr fun hsplits => ?_
    obtain ⟨c, hc, hwide⟩ := exists_wide_of_splitsAtTwo hsplits
    exact Nat.ne_of_gt hwide (h.isNumeric c hc).ascii.2
  have hedges : (literal.isEmpty || literal.head? = some '_' || literal.getLast? = some '_') = false := by
    simp [hne, hhead, hlast]
  rw [readInt, htrim]
  dsimp only
  rw [hedges, hsplits, h.digits?_radix]
  rfl

/-- Literals on both sides of what 64 bits hold. -/
theorem readInt_intLiteral_limit :
    (IntLiteral "0X_FFFFFFFFFFFFFFF_f".toList (2 ^ 64 - 1) ∧
      readInt ("\t".toList ++ "0X_FFFFFFFFFFFFFFF_f".toList ++ "\n ".toList) = .value (2 ^ 64 - 1)) ∧
    (IntLiteral "02000000000000000000000".toList (2 ^ 64) ∧
      readInt ([] ++ "02000000000000000000000".toList ++ []) = .notInteger) := by
  have hdigits : Digits 16 "FFFFFFFFFFFFFFF".toList (16 ^ 15 - 1) :=
    (digitsFrom?_eq_some_iff (by decide)).mp (by decide)
  have hdigits' : Digits 8 "2000000000000000000000".toList (2 ^ 64) :=
    (digitsFrom?_eq_some_iff (by decide)).mp (by decide)
  have hnumeral : Numeral 16 ("FFFFFFFFFFFFFFF".toList ++ ['_', 'f']) (2 ^ 64 - 1) :=
    .separated (.of_digits (by decide) hdigits) (show IsDigit 16 15 'f' by decide)
  have hlargest : IntLiteral "0X_FFFFFFFFFFFFFFF_f".toList (2 ^ 64 - 1) :=
    .marked (show ('X', 16) ∈ radixMarks by decide) (show ['_'] ∈ [[], ['_']] by decide) hnumeral
  have hnext : IntLiteral "02000000000000000000000".toList (2 ^ 64) :=
    .octal (show [] ∈ [[], ['_']] by decide) (.of_digits (by decide) hdigits')
  have hblank : ∀ c ∈ "\t".toList, Text.isBlank c = true := List.all_eq_true.mp (by decide)
  have hblank' : ∀ c ∈ "\n ".toList, Text.isBlank c = true := List.all_eq_true.mp (by decide)
  refine ⟨⟨hlargest, ?_⟩, hnext, ?_⟩
  · exact (readInt_intLiteral hlargest hblank hblank').trans (if_pos (by decide))
  · exact (readInt_intLiteral hnext (List.forall_mem_nil _) (List.forall_mem_nil _)).trans
      (if_neg (by decide))

end GoTrace.Literal
