import GoTrace.Literal.Unquote
import GoTrace.Proofs.Literal.Decimal
import GoTrace.Proofs.Literal.Quoted

/-!
# Quoted text that is read back

A text is written with escapes that are not all escapes of string literals. Here it is said what the
literal that is written stands for, which is the text just where all characters are written by
themselves or by escapes that both know.
-/

namespace GoTrace

namespace Literal

open Text

/-- The character that a zero and two further digits stand for behind a backslash. -/
def octal? (high low : Char) : Option Char :=
  (digitBelow? 8 high).bind fun high => (digitBelow? 8 low).map fun low => Char.ofNat (high * 8 + low)

/-- What the literal stands for that a text is written as: all characters are read back, but the one
that is written as a zero takes two digits behind it, and where it finds none, or where a code point is
written, there is no text. -/
def reread : List Char → Option (List Char)
  | [] => some []
  | '\x00' :: high :: low :: rest => (octal? high low).bind fun c => (reread rest).map (c :: ·)
  | c :: rest => if ReadsBack c then (reread rest).map (c :: ·) else none

theorem length_le_of_reread {chars read : List Char} (h : reread chars = some read) :
    read.length ≤ chars.length := by
  fun_induction reread chars generalizing read with
  | case1 =>
      cases h
      exact Nat.le_refl 0
  | case2 high low rest ih =>
      obtain ⟨c, -, hmap⟩ := Option.bind_eq_some_iff.mp h
      obtain ⟨tail, htail, rfl⟩ := Option.map_eq_some_iff.mp hmap
      have hle := ih htail
      simp only [List.length_cons]
      omega
  | case3 c rest _ hback ih =>
      obtain ⟨tail, htail, rfl⟩ := Option.map_eq_some_iff.mp h
      exact Nat.succ_le_succ (ih htail)
  | case4 => cases h

theorem reread_eq_self_iff {chars : List Char} :
    reread chars = some chars ↔ ∀ c ∈ chars, ReadsBack c := by
  fun_induction reread chars with
  | case1 => simp
  | case2 high low rest ih =>
      refine iff_of_false ?_ fun hall => (hall _ List.mem_cons_self).1 rfl
      intro h
      obtain ⟨c, -, hmap⟩ := Option.bind_eq_some_iff.mp h
      obtain ⟨tail, htail, heq⟩ := Option.map_eq_some_iff.mp hmap
      have hle := length_le_of_reread htail
      rw [(List.cons.inj heq).2] at hle
      simp only [List.length_cons] at hle
      omega
  | case3 c rest _ hback ih =>
      rw [List.forall_mem_cons, and_iff_right hback, ← ih]
      simp
  | case4 c rest _ hback => simp [hback]

/-! ## Escapes -/

theorem escape?_simple {letter : Char} {byte : UInt8} (h : simpleEscape? letter = some byte)
    (rest : List Char) : escape? (letter :: rest) = some ([byte], rest) := by
  unfold escape?
  split <;> rename_i heq <;> cases heq
  · cases h
  · cases h
  · cases h
  · rw [h]

theorem unescape?_backslash (bound : Nat) (rest : List Char) :
    unescape? (bound + 1) ('\\' :: rest) =
      (escape? rest).bind fun read => (unescape? bound read.2).map (read.1 ++ ·) := by
  rw [unescape?]
  cases escape? rest with
  | none => rfl
  | some read =>
      change (unescape? bound read.2).bind _ = _
      rw [Option.bind_some]
      cases unescape? bound read.2 <;> rfl

theorem unescape?_short {c letter : Char} (h : (c, letter) ∈ shortEscapes) (bound : Nat)
    (rest : List Char) :
    unescape? (bound + 1) ('\\' :: letter :: rest) =
      (unescape? bound rest).map (String.utf8EncodeChar c ++ ·) := by
  have hbytes : ∀ pair ∈ shortEscapes,
      (simpleEscape? pair.2).map (fun byte => [byte]) = some (String.utf8EncodeChar pair.1) := by
    decide
  obtain ⟨byte, hsimple, hencode⟩ := Option.map_eq_some_iff.mp (hbytes _ h)
  rw [unescape?_backslash, escape?_simple hsimple, Option.bind_some, ← hencode]

theorem unescape?_plain {c : Char} (h : c ≠ '\\') (bound : Nat) (rest : List Char) :
    unescape? (bound + 1) (c :: rest) =
      (unescape? bound rest).map (String.utf8EncodeChar c ++ ·) := by
  rw [unescape?]
  · cases unescape? bound rest <;> rfl
  · exact h

theorem unescape?_code (c : Char) (bound : Nat) (rest : List Char) :
    unescape? bound (escapeCodePoint c ++ rest) = none := by
  cases bound <;> rfl

theorem isPrintableAscii_of_digit {digit : Nat} {c : Char} (h : digitBelow? 8 c = some digit) :
    IsPrintableAscii c ∧ digit < 8 := by
  obtain ⟨hvalue, hlt⟩ := Option.filter_eq_some_iff.mp h
  replace hlt : digit < 8 := of_decide_eq_true hlt
  refine ⟨?_, hlt⟩
  unfold digitValue? at hvalue
  split at hvalue
  · rename_i hdigit
    obtain ⟨hlow, hhigh⟩ := toNat_of_isDigit hdigit
    constructor <;> omega
  · split at hvalue
    · cases hvalue
      omega
    · split at hvalue
      · cases hvalue
        omega
      · cases hvalue

theorem escape_of_digit {digit : Nat} {c : Char} (h : digitBelow? 8 c = some digit) :
    escape c = [c] := by
  have hshort : ∀ pair ∈ shortEscapes, digitBelow? 8 pair.1 = none := by decide
  have hescaped := escaped_escape c
  generalize escape c = form at hescaped
  cases hescaped with
  | nul => cases h
  | short hmem =>
      rw [hshort _ hmem] at h
      cases h
  | code _ hback => exact absurd (isPrintableAscii_of_digit h).1.readsBack hback
  | plain => rfl

theorem takeDigits?_escape (value count : Nat) (c : Char) (rest : List Char) :
    takeDigits?.go 8 value (count + 1) (escape c ++ rest) =
      (digitBelow? 8 c).bind fun digit => takeDigits?.go 8 (value * 8 + digit) count rest := by
  cases hdigit : digitBelow? 8 c with
  | some digit =>
      rw [escape_of_digit hdigit, List.singleton_append, takeDigits?.go, hdigit]
      rfl
  | none =>
      have hescaped := escaped_escape c
      generalize escape c = form at hescaped
      cases hescaped with
      | nul => rfl
      | short => rfl
      | code => rfl
      | plain =>
          rw [List.singleton_append, takeDigits?.go, hdigit]
          rfl

/-- Two digits behind a zero are taken, and no text is found where there are none. -/
theorem unescape?_nul (bound : Nat) (chars : List Char) :
    unescape? (bound + 1) ('\\' :: '0' :: chars.flatMap escape) =
      match chars with
      | high :: low :: rest => (octal? high low).bind fun c =>
          (unescape? bound (rest.flatMap escape)).map (String.utf8EncodeChar c ++ ·)
      | _ => none := by
  have hdigits : escape? ('0' :: chars.flatMap escape) =
      (takeDigits?.go 8 0 2 (chars.flatMap escape)).bind fun read =>
        if read.1 < 256 then some ([read.1.toUInt8], read.2) else none := rfl
  have hencode : ∀ n < 64, String.utf8EncodeChar (Char.ofNat n) = [n.toUInt8] := by decide
  rw [unescape?_backslash, hdigits]
  match chars with
  | [] => rfl
  | [high] =>
      rw [List.flatMap_cons, takeDigits?_escape]
      cases digitBelow? 8 high <;> rfl
  | high :: low :: rest =>
      rw [List.flatMap_cons, List.flatMap_cons, takeDigits?_escape]
      dsimp only
      unfold octal?
      cases hhigh : digitBelow? 8 high with
      | none => rfl
      | some first =>
          rw [Option.bind_some, takeDigits?_escape]
          cases hlow : digitBelow? 8 low with
          | none => rfl
          | some second =>
              obtain ⟨-, hfirst⟩ := isPrintableAscii_of_digit hhigh
              obtain ⟨-, hsecond⟩ := isPrintableAscii_of_digit hlow
              have hsmall : first * 8 + second < 64 := by omega
              simp only [Option.bind_some, Option.map_some, takeDigits?.go, Nat.zero_mul, Nat.zero_add,
                hencode _ hsmall]
              rw [if_pos (Nat.lt_trans hsmall (by decide)), Option.bind_some]

theorem unescape?_flatMap_escape {chars : List Char} {bound : Nat}
    (hbound : (chars.flatMap escape).length ≤ bound) :
    unescape? bound (chars.flatMap escape) =
      (reread chars).map fun read => read.flatMap String.utf8EncodeChar := by
  have hnul (rest : List Char) : ('\x00' :: rest).flatMap escape =
      ['\\', '0'] ++ rest.flatMap escape := rfl
  have hsmaller {bound : Nat} {form tail : List Char} (h : (form ++ tail).length ≤ bound)
      (hne : form ≠ []) : ∃ smaller, bound = smaller + 1 ∧ tail.length ≤ smaller := by
    have hpos := List.length_pos_iff.mpr hne
    rw [List.length_append] at h
    exact ⟨bound - 1, by omega, by omega⟩
  fun_induction reread chars generalizing bound with
  | case1 => cases bound <;> rfl
  | case2 high low rest ih =>
      rw [hnul] at hbound ⊢
      obtain ⟨bound, rfl, hdigits⟩ := hsmaller hbound (List.cons_ne_nil _ _)
      have hrest : (rest.flatMap escape).length ≤ bound := by
        simp only [List.flatMap_cons, List.length_append] at hdigits
        omega
      rw [List.cons_append, List.singleton_append, unescape?_nul]
      dsimp only
      rw [ih hrest]
      cases octal? high low <;> cases reread rest <;> rfl
  | case3 c rest _ hback ih =>
      rw [List.flatMap_cons] at hbound ⊢
      have hescaped := escaped_escape c
      generalize escape c = form at hescaped hbound ⊢
      cases hescaped with
      | nul => exact absurd rfl hback.1
      | short hmem =>
          obtain ⟨bound, rfl, hrest⟩ := hsmaller hbound (List.cons_ne_nil _ _)
          rw [List.cons_append, List.singleton_append, unescape?_short hmem, ih hrest]
          cases reread rest <;> rfl
      | code _ hnot => exact absurd hback hnot
      | plain _ hplain =>
          have hne : c ≠ '\\' := fun heq => hplain (heq ▸ by decide)
          obtain ⟨bound, rfl, hrest⟩ := hsmaller hbound (List.cons_ne_nil _ _)
          rw [List.singleton_append, unescape?_plain hne, ih hrest]
          cases reread rest <;> rfl
  | case4 c rest hshort hback =>
      by_cases hc : c = '\x00'
      · subst hc
        rw [hnul] at hbound ⊢
        obtain ⟨bound, rfl, -⟩ := hsmaller hbound (List.cons_ne_nil _ _)
        rw [List.cons_append, List.singleton_append, unescape?_nul]
        match rest with
        | [] => rfl
        | [_] => rfl
        | high :: low :: rest => exact absurd rfl (hshort high low rest rfl)
      · rw [List.flatMap_cons, escape_of_not_readsBack hc hback, unescape?_code]
        rfl

/-! ## Literals -/

theorem inside?_of_quoted (mark : Char) (body : List Char) :
    inside? mark (mark :: (body ++ [mark])) = some body := by
  rw [inside?, if_pos rfl, Text.dropLast?, List.getLast?_concat, if_pos rfl, List.dropLast_concat]

theorem unquote?_interpreted (body : List Char) :
    unquote? ('"' :: (body ++ ['"'])) =
      (unescape? body.length body).bind fun bytes => String.fromUTF8? bytes.toByteArray := by
  have hraw : inside? '\x60' ('"' :: (body ++ ['"'])) = none := by
    rw [inside?, if_neg (by decide)]
  rw [unquote?, hraw]
  dsimp only
  rw [inside?_of_quoted, Option.bind_some]

theorem unquote?_raw (body : List Char) :
    unquote? ('\x60' :: (body ++ ['\x60'])) = some (String.ofList (body.filter (· ≠ '\r'))) := by
  rw [unquote?, inside?_of_quoted]

theorem fromUTF8?_flatMap (chars : List Char) :
    String.fromUTF8? (chars.flatMap String.utf8EncodeChar).toByteArray = some (String.ofList chars) := by
  have hbytes : (chars.flatMap String.utf8EncodeChar).toByteArray =
      (String.ofList chars).toByteArray := by
    rw [← String.utf8Encode_toList, String.toList_ofList]
    rfl
  rw [hbytes, String.fromUTF8?, dif_pos (String.isValidUTF8 (String.ofList chars))]
  rfl

theorem unquote?_quote_eq (text : String) :
    unquote? (quote text).toList = (reread text.toList).map String.ofList := by
  rw [toList_quote, unquote?_interpreted, unescape?_flatMap_escape (Nat.le_refl _)]
  cases reread text.toList with
  | none => rfl
  | some read => rw [Option.map_some, Option.bind_some, fromUTF8?_flatMap, Option.map_some]

/-- A text is what its literal stands for just where all its characters are read back. -/
theorem unquote?_quote_iff {text : String} :
    unquote? (quote text).toList = some text ↔ ∀ c ∈ text.toList, ReadsBack c := by
  rw [unquote?_quote_eq, ← reread_eq_self_iff]
  constructor
  · intro h
    obtain ⟨read, hread, rfl⟩ := Option.map_eq_some_iff.mp h
    rw [hread, String.toList_ofList]
  · intro h
    rw [h, Option.map_some, String.ofList_toList]

theorem unquote?_quote {text : String} (h : ∀ c ∈ text.toList, IsPrintableAscii c) :
    unquote? (quote text).toList = some text :=
  unquote?_quote_iff.mpr fun c hc => (h c hc).readsBack

end Literal

end GoTrace
