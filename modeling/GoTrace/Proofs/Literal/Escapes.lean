import GoTrace.Proofs.Literal.Digits
import GoTrace.Proofs.Literal.Reread

/-!
# Escapes between double quotes

What may stand between double quotes, and the bytes it stands for: characters by themselves, and escapes
for a character or for a single byte. Reading gives these bytes, and gives nothing just where a backslash
starts no escape.
-/

namespace GoTrace.Literal

/-- The letters and signs that stand for one byte behind a backslash. -/
def shortForms : List (Char × UInt8) :=
  [('a', 0x07), ('b', 0x08), ('f', 0x0C), ('n', 0x0A), ('r', 0x0D), ('t', 0x09), ('v', 0x0B),
   ('\\', 0x5C), ('"', 0x22)]

/-- The letters in front of a code point, and how many digits it takes. -/
def codeMarks : List (Char × Nat) := [('u', 4), ('U', 8)]

/-- An escape behind its backslash, and the bytes it stands for. A code point is that of a character, so
it is no surrogate and not above `0x10FFFF`. -/
inductive Escape : List Char → List UInt8 → Prop
  | short {letter : Char} {byte : UInt8} : (letter, byte) ∈ shortForms → Escape [letter] [byte]
  | hex {digits : List Char} {value : Nat} :
      digits.length = 2 → Digits 16 digits value → Escape ('x' :: digits) [value.toUInt8]
  | octal {digits : List Char} {value : Nat} :
      digits.length = 3 → Digits 8 digits value → value < 256 → Escape digits [value.toUInt8]
  | code {letter c : Char} {count : Nat} {digits : List Char} :
      (letter, count) ∈ codeMarks → digits.length = count → Digits 16 digits c.toNat →
      Escape (letter :: digits) (String.utf8EncodeChar c)

theorem simpleEscape?_eq_some_iff {letter : Char} {byte : UInt8} :
    simpleEscape? letter = some byte ↔ (letter, byte) ∈ shortForms := by
  constructor
  · intro h
    unfold simpleEscape? at h
    split at h <;> first | (cases h; decide) | cases h
  · intro h
    have hforms : ∀ form ∈ shortForms, simpleEscape? form.1 = some form.2 := by decide
    exact hforms _ h

theorem codePoint?_eq_some_iff {code : Nat} {bytes : List UInt8} :
    codePoint? code = some bytes ↔ ∃ c : Char, c.toNat = code ∧ String.utf8EncodeChar c = bytes := by
  unfold codePoint?
  constructor
  · intro h
    by_cases hvalid : code.isValidChar
    · rw [dif_pos hvalid] at h
      cases h
      exact ⟨Char.ofNatAux code hvalid, rfl, rfl⟩
    · rw [dif_neg hvalid] at h
      cases h
  · rintro ⟨c, rfl, rfl⟩
    have hvalid : c.toNat.isValidChar := c.valid
    rw [dif_pos hvalid]
    rfl

theorem simpleEscape?_of_isDigit {digit : Nat} {c : Char} (h : IsDigit 8 digit c) :
    simpleEscape? c = none ∧ c ∉ ['x', 'u', 'U'] := by
  obtain ⟨hlt, heq⟩ := h
  have hall : ∀ digit < 8, (simpleEscape? digit.digitChar = none ∧ digit.digitChar ∉ ['x', 'u', 'U']) ∧
      digit.digitChar.toUpper = digit.digitChar := by
    decide
  obtain ⟨hdigit, hupper⟩ := hall digit hlt
  rcases heq with rfl | rfl
  · exact hdigit
  · rw [hupper]
    exact hdigit

theorem Digits.isDigit_head {base value : Nat} {c : Char} {rest : List Char}
    (h : Digits base (c :: rest) value) : ∃ digit, IsDigit base digit c := by
  generalize htext : c :: rest = text at h
  induction h generalizing rest with
  | nil => cases htext
  | @concat text _ digit d _ hdigit ih =>
      cases text with
      | nil =>
          cases htext
          exact ⟨digit, hdigit⟩
      | cons e text =>
          cases htext
          exact ih rfl

theorem escape?_hex (rest : List Char) :
    escape? ('x' :: rest) = (takeDigits? 16 2 rest).map fun read => ([read.1.toUInt8], read.2) := by
  change (takeDigits? 16 2 rest).bind _ = _
  cases takeDigits? 16 2 rest <;> rfl

theorem escape?_code {letter : Char} {count : Nat} (h : (letter, count) ∈ codeMarks)
    (rest : List Char) :
    escape? (letter :: rest) = (takeDigits? 16 count rest).bind fun read =>
      (codePoint? read.1).map fun bytes => (bytes, read.2) := by
  have hcases : (letter = 'u' ∧ count = 4) ∨ (letter = 'U' ∧ count = 8) := by
    simpa [codeMarks] using h
  rcases hcases with ⟨rfl, rfl⟩ | ⟨rfl, rfl⟩
  · change (takeDigits? 16 4 rest).bind _ = _
    congr 1
    funext ⟨value, behind⟩
    dsimp only
    cases codePoint? value <;> rfl
  · change (takeDigits? 16 8 rest).bind _ = _
    congr 1
    funext ⟨value, behind⟩
    dsimp only
    cases codePoint? value <;> rfl

theorem escape?_octal {c : Char} (hsimple : simpleEscape? c = none) (hmark : c ∉ ['x', 'u', 'U'])
    (rest : List Char) :
    escape? (c :: rest) = (takeDigits? 8 3 (c :: rest)).bind fun read =>
      if read.1 < 256 then some ([read.1.toUInt8], read.2) else none := by
  simp only [List.mem_cons, List.not_mem_nil, or_false, not_or] at hmark
  unfold escape?
  split
  · rename_i heq
    cases heq
  · rename_i heq
    exact absurd (List.cons.inj heq).1 hmark.1
  · rename_i heq
    exact absurd (List.cons.inj heq).1 hmark.2.1
  · rename_i heq
    exact absurd (List.cons.inj heq).1 hmark.2.2
  · rename_i heq
    cases heq
    rw [hsimple]
    rfl

theorem exists_escape {text rest : List Char} {bytes : List UInt8}
    (h : escape? text = some (bytes, rest)) : ∃ word, text = word ++ rest ∧ Escape word bytes := by
  cases text with
  | nil => cases h
  | cons c text =>
      by_cases hmark : c ∈ ['x', 'u', 'U']
      · have hcases : c = 'x' ∨ ∃ count, (c, count) ∈ codeMarks := by
          simp only [List.mem_cons, List.not_mem_nil, or_false] at hmark
          rcases hmark with rfl | rfl | rfl
          · exact .inl rfl
          · exact .inr ⟨4, by decide⟩
          · exact .inr ⟨8, by decide⟩
        rcases hcases with rfl | ⟨count, hcode⟩
        · rw [escape?_hex, Option.map_eq_some_iff] at h
          obtain ⟨⟨value, behind⟩, htake, heq⟩ := h
          cases heq
          obtain ⟨digits, rfl, hlength, hdigits⟩ := (takeDigits?_eq_some_iff (by decide)).mp htake
          exact ⟨'x' :: digits, rfl, .hex hlength hdigits⟩
        · rw [escape?_code hcode, Option.bind_eq_some_iff] at h
          obtain ⟨⟨value, behind⟩, htake, hmap⟩ := h
          obtain ⟨encoded, hpoint, heq⟩ := Option.map_eq_some_iff.mp hmap
          cases heq
          obtain ⟨digits, rfl, hlength, hdigits⟩ := (takeDigits?_eq_some_iff (by decide)).mp htake
          obtain ⟨d, rfl, rfl⟩ := codePoint?_eq_some_iff.mp hpoint
          exact ⟨c :: digits, rfl, .code hcode hlength hdigits⟩
      · cases hsimple : simpleEscape? c with
        | some byte =>
            rw [escape?_simple hsimple] at h
            cases h
            exact ⟨[c], rfl, .short (simpleEscape?_eq_some_iff.mp hsimple)⟩
        | none =>
            rw [escape?_octal hsimple hmark, Option.bind_eq_some_iff] at h
            obtain ⟨⟨value, behind⟩, htake, hread⟩ := h
            obtain ⟨digits, heq, hlength, hdigits⟩ := (takeDigits?_eq_some_iff (by decide)).mp htake
            split at hread
            · rename_i hlt
              cases hread
              exact ⟨digits, heq, .octal hlength hdigits hlt⟩
            · cases hread

theorem Escape.escape?_append {word : List Char} {bytes : List UInt8} (h : Escape word bytes)
    (rest : List Char) : escape? (word ++ rest) = some (bytes, rest) := by
  cases h with
  | short hform => exact escape?_simple (simpleEscape?_eq_some_iff.mpr hform) rest
  | hex hlength hdigits =>
      rw [List.cons_append, escape?_hex,
        (takeDigits?_eq_some_iff (by decide)).mpr ⟨_, rfl, hlength, hdigits⟩]
      rfl
  | octal hlength hdigits hlt =>
      obtain ⟨c, digits, rfl⟩ := List.exists_cons_of_length_eq_add_one hlength
      obtain ⟨digit, hdigit⟩ := hdigits.isDigit_head
      obtain ⟨hsimple, hmark⟩ := simpleEscape?_of_isDigit hdigit
      rw [List.cons_append, escape?_octal hsimple hmark, ← List.cons_append,
        (takeDigits?_eq_some_iff (by decide)).mpr ⟨_, rfl, hlength, hdigits⟩, Option.bind_some,
        if_pos hlt]
  | code hmark hlength hdigits =>
      rw [List.cons_append, escape?_code hmark,
        (takeDigits?_eq_some_iff (by decide)).mpr ⟨_, rfl, hlength, hdigits⟩, Option.bind_some,
        codePoint?_eq_some_iff.mpr ⟨_, rfl, rfl⟩]
      rfl

theorem escape?_eq_none_iff {text : List Char} :
    escape? text = none ↔ ∀ word bytes, Escape word bytes → ¬ word <+: text := by
  constructor
  · rintro h word bytes hword ⟨rest, rfl⟩
    rw [hword.escape?_append] at h
    cases h
  · intro h
    refine Option.eq_none_iff_forall_ne_some.mpr ?_
    rintro ⟨bytes, rest⟩ hread
    obtain ⟨word, rfl, hword⟩ := exists_escape hread
    exact h word bytes hword (List.prefix_append word rest)

/-! ## What stands between the quotes -/

/-- What may stand between double quotes, and the bytes it stands for. -/
inductive Spells : List Char → List UInt8 → Prop
  | nil : Spells [] []
  | plain {c : Char} {rest : List Char} {bytes : List UInt8} :
      c ≠ '\\' → Spells rest bytes → Spells (c :: rest) (String.utf8EncodeChar c ++ bytes)
  | escape {word rest : List Char} {front bytes : List UInt8} :
      Escape word front → Spells rest bytes → Spells ('\\' :: (word ++ rest)) (front ++ bytes)

/-- A backslash behind spelled text that starts no escape. -/
def FaultyEscape (text : List Char) : Prop :=
  ∃ front rest bytes, text = front ++ '\\' :: rest ∧ Spells front bytes ∧
    ∀ word read, Escape word read → ¬ word <+: rest

theorem Spells.append {first second : List Char} {bytes bytes' : List UInt8} (h : Spells first bytes)
    (h' : Spells second bytes') : Spells (first ++ second) (bytes ++ bytes') := by
  induction h with
  | nil => exact h'
  | plain hne _ ih =>
      rw [List.append_assoc]
      exact .plain hne ih
  | @escape word rest front bytes hword _ ih =>
      rw [List.cons_append, List.append_assoc, List.append_assoc]
      exact .escape hword ih

theorem Escape.eq_of_append {word other rest rest' : List Char} {bytes bytes' : List UInt8}
    (h : Escape word bytes) (h' : Escape other bytes') (heq : word ++ rest = other ++ rest') :
    rest = rest' := by
  have hsecond := h'.escape?_append rest'
  rw [← heq, h.escape?_append rest] at hsecond
  cases hsecond
  rfl

theorem Spells.of_append {first second : List Char} {bytes bytes' : List UInt8}
    (h : Spells first bytes) (h' : Spells (first ++ second) bytes') : ∃ rest, Spells second rest := by
  induction h generalizing bytes' with
  | nil => exact ⟨bytes', h'⟩
  | @plain c rest _ hne _ ih =>
      rw [List.cons_append] at h'
      generalize htext : rest ++ second = text at h'
      cases h' with
      | plain _ h' => exact ih (htext ▸ h')
      | escape => exact absurd rfl hne
  | @escape word rest _ _ hword _ ih =>
      rw [List.cons_append, List.append_assoc] at h'
      generalize htext : word ++ (rest ++ second) = text at h'
      cases h' with
      | plain hne => exact absurd rfl hne
      | escape hother h' =>
          rw [← hword.eq_of_append hother htext] at h'
          exact ih h'

theorem unescape?_eq_some_iff {bound : Nat} {text : List Char} {bytes : List UInt8}
    (hbound : text.length ≤ bound) : unescape? bound text = some bytes ↔ Spells text bytes := by
  constructor
  · intro h
    induction bound generalizing text bytes with
    | zero =>
        obtain rfl := List.length_eq_zero_iff.mp (Nat.le_zero.mp hbound)
        cases h
        exact .nil
    | succ bound ih =>
        cases text with
        | nil =>
            cases h
            exact .nil
        | cons c text =>
            have hlength : text.length ≤ bound := Nat.le_of_succ_le_succ hbound
            by_cases hc : c = '\\'
            · rw [hc, unescape?_backslash, Option.bind_eq_some_iff] at h
              obtain ⟨⟨front, rest⟩, hescape, hmap⟩ := h
              obtain ⟨behind, hrest, rfl⟩ := Option.map_eq_some_iff.mp hmap
              obtain ⟨word, rfl, hword⟩ := exists_escape hescape
              rw [List.length_append] at hlength
              rw [hc]
              exact .escape hword (ih (by omega) hrest)
            · rw [unescape?_plain hc, Option.map_eq_some_iff] at h
              obtain ⟨behind, hrest, rfl⟩ := h
              exact .plain hc (ih hlength hrest)
  · intro h
    induction h generalizing bound with
    | nil => cases bound <;> rfl
    | plain hne _ ih =>
        obtain ⟨bound, rfl⟩ := Nat.exists_eq_succ_of_ne_zero (Nat.ne_zero_of_lt hbound)
        rw [unescape?_plain hne, ih (Nat.le_of_succ_le_succ hbound)]
        rfl
    | @escape word rest front bytes hword _ ih =>
        obtain ⟨bound, rfl⟩ := Nat.exists_eq_succ_of_ne_zero (Nat.ne_zero_of_lt hbound)
        rw [List.length_cons, List.length_append] at hbound
        rw [unescape?_backslash, hword.escape?_append, Option.bind_some,
          ih (by omega)]
        rfl

theorem unescape?_eq_none_iff {bound : Nat} {text : List Char} (hbound : text.length ≤ bound) :
    unescape? bound text = none ↔ FaultyEscape text := by
  constructor
  · intro h
    induction bound generalizing text with
    | zero =>
        obtain rfl := List.length_eq_zero_iff.mp (Nat.le_zero.mp hbound)
        cases h
    | succ bound ih =>
        cases text with
        | nil => cases h
        | cons c text =>
            have hlength : text.length ≤ bound := Nat.le_of_succ_le_succ hbound
            by_cases hc : c = '\\'
            · rw [hc] at h ⊢
              rw [unescape?_backslash] at h
              cases hescape : escape? text with
              | none => exact ⟨[], text, [], rfl, .nil, escape?_eq_none_iff.mp hescape⟩
              | some read =>
                  rw [hescape, Option.bind_some, Option.map_eq_none_iff] at h
                  obtain ⟨word, rfl, hword⟩ := exists_escape hescape
                  rw [List.length_append] at hlength
                  obtain ⟨front, rest, bytes, hrest, hfront, hfaulty⟩ := ih (by omega) h
                  refine ⟨'\\' :: (word ++ front), rest, _, ?_, .escape hword hfront, hfaulty⟩
                  rw [hrest, List.cons_append, List.append_assoc]
            · rw [unescape?_plain hc, Option.map_eq_none_iff] at h
              obtain ⟨front, rest, bytes, rfl, hfront, hfaulty⟩ := ih hlength h
              exact ⟨c :: front, rest, _, rfl, .plain hc hfront, hfaulty⟩
  · rintro ⟨front, rest, bytes, rfl, hfront, hfaulty⟩
    refine Option.eq_none_iff_forall_ne_some.mpr fun bytes' h => ?_
    obtain ⟨_, hrest⟩ := hfront.of_append ((unescape?_eq_some_iff hbound).mp h)
    generalize htext : '\\' :: rest = text at hrest
    cases hrest with
    | nil => cases htext
    | plain hne => exact absurd (List.cons.inj htext).1.symm hne
    | @escape word behind _ _ hword =>
        cases htext
        exact hfaulty word _ hword (List.prefix_append _ _)

end GoTrace.Literal
