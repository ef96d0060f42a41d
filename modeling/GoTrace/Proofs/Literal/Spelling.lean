import GoTrace.Proofs.Literal.Escapes
import GoTrace.Proofs.Literal.Inside
import GoTrace.Proofs.Parser.Found

/-!
# Spellings of a text

The ways to write a text as a literal. Every spelling is read as that text, whatever form is chosen for
each character and for each byte, and a literal of a source text has no text just where an escape is none
or the bytes are not UTF-8.
-/

namespace GoTrace.Literal

/-- The escapes of a single byte, as two digits in base 16 or three in base 8. -/
inductive ByteEscape : UInt8 → List Char → Prop
  | hex {byte : UInt8} {digits : List Char} :
      digits.length = 2 → Digits 16 digits byte.toNat → ByteEscape byte ('\\' :: 'x' :: digits)
  | octal {byte : UInt8} {digits : List Char} :
      digits.length = 3 → Digits 8 digits byte.toNat → ByteEscape byte ('\\' :: digits)

/-- The ways to write one character between double quotes. -/
inductive Spelling : Char → List Char → Prop
  | plain {c : Char} : c ∉ ['"', '\\', '\n', '\r'] → Spelling c [c]
  | short {letter : Char} {byte : UInt8} :
      (letter, byte) ∈ shortForms → Spelling (Char.ofNat byte.toNat) ['\\', letter]
  | code {letter c : Char} {count : Nat} {digits : List Char} :
      (letter, count) ∈ codeMarks → digits.length = count → Digits 16 digits c.toNat →
      Spelling c ('\\' :: letter :: digits)
  | bytes {c : Char} {pieces : List (List Char)} :
      List.Forall₂ ByteEscape (String.utf8EncodeChar c) pieces → Spelling c pieces.flatten

theorem ByteEscape.spells {byte : UInt8} {text : List Char} (h : ByteEscape byte text) :
    Spells text [byte] := by
  have hescape {word : List Char} (hword : Escape word [byte.toNat.toUInt8]) :
      Spells ('\\' :: word) [byte] := by
    have hspells := Spells.escape hword .nil
    rwa [List.append_nil, List.append_nil, show byte.toNat.toUInt8 = byte from UInt8.ofNat_toNat]
      at hspells
  cases h with
  | hex hlength hdigits => exact hescape (.hex hlength hdigits)
  | octal hlength hdigits => exact hescape (.octal hlength hdigits byte.toNat_lt)

theorem Spelling.spells {c : Char} {text : List Char} (h : Spelling c text) :
    Spells text (String.utf8EncodeChar c) := by
  have hescape {word : List Char} {bytes : List UInt8} (hword : Escape word bytes) :
      Spells ('\\' :: word) bytes := by
    simpa using Spells.escape hword .nil
  cases h with
  | plain hplain =>
      have hne : c ≠ '\\' := by
        rintro rfl
        exact hplain (by decide)
      simpa using Spells.plain hne .nil
  | @short letter byte hform =>
      have hforms : ∀ form ∈ shortForms,
          String.utf8EncodeChar (Char.ofNat form.2.toNat) = [form.2] := by
        decide
      rw [hforms _ hform]
      exact hescape (.short hform)
  | code hmark hlength hdigits => exact hescape (.code hmark hlength hdigits)
  | @bytes c pieces hbytes =>
      generalize String.utf8EncodeChar c = bytes at hbytes
      induction hbytes with
      | nil => exact .nil
      | cons hbyte _ ih => exact hbyte.spells.append ih

theorem spells_flatten {chars : List Char} {pieces : List (List Char)}
    (h : List.Forall₂ Spelling chars pieces) :
    Spells pieces.flatten (chars.flatMap String.utf8EncodeChar) := by
  induction h with
  | nil => exact .nil
  | cons hfirst _ ih => exact hfirst.spells.append ih

/-! ## Literals -/

theorem fromUTF8?_eq_none_iff {bytes : ByteArray} :
    String.fromUTF8? bytes = none ↔ ¬ bytes.IsValidUTF8 := by
  unfold String.fromUTF8?
  split <;> simp_all

theorem unquote?_interpreted_eq_none_iff {body : List Char} :
    unquote? ('"' :: (body ++ ['"'])) = none ↔
      FaultyEscape body ∨ ∃ bytes, Spells body bytes ∧ ¬ bytes.toByteArray.IsValidUTF8 := by
  rw [unquote?_interpreted, Option.bind_eq_none_iff]
  constructor
  · intro h
    cases hread : unescape? body.length body with
    | none => exact .inl ((unescape?_eq_none_iff (Nat.le_refl _)).mp hread)
    | some bytes =>
        exact .inr ⟨bytes, (unescape?_eq_some_iff (Nat.le_refl _)).mp hread,
          fromUTF8?_eq_none_iff.mp (h bytes hread)⟩
  · rintro (hfaulty | ⟨bytes, hspells, hinvalid⟩) bytes' hread
    · rw [(unescape?_eq_none_iff (Nat.le_refl _)).mpr hfaulty] at hread
      cases hread
    · rw [(unescape?_eq_some_iff (Nat.le_refl _)).mpr hspells] at hread
      cases hread
      exact fromUTF8?_eq_none_iff.mpr hinvalid

/-- What is found as a string literal in a source text stands between two double quotes or between two
backquotes. -/
theorem quoted_of_stringLiteral {mode : Mode} {cursor next : Cursor} {literal : List Char} {span : Span}
    {fault : Option Fault}
    (h : (Grammar.stringLiteral mode cursor).found = some ⟨(literal, span), next, fault⟩) :
    ∃ mark ∈ ['"', '\x60'], ∃ body, literal = mark :: (body ++ [mark]) := by
  have htextTo (count : Nat) : cursor.textTo (cursor.skip count) = cursor.rest.take count := by
    rw [Cursor.textTo, Cursor.skip, List.length_drop, List.take_eq_take_iff]
    omega
  rw [Grammar.stringLiteral, Parser.found_tight, Parser.found_rule, Parser.found_captured,
    Option.map_eq_some_iff] at h
  obtain ⟨found, hfound, heq⟩ := h
  cases heq
  rw [Parser.found_orElse, Parser.found_rule, Parser.found_rule, Parser.found_take, Parser.found_take,
    Option.or_eq_some_iff] at hfound
  have htaken : ∃ count, found.next = cursor.skip count ∧
      (Lexeme.quoted? '"' cursor.rest = some count ∨ Lexeme.raw? cursor.rest = some count) := by
    rcases hfound with hfound | ⟨-, hfound⟩
    · obtain ⟨count, hcount, rfl⟩ := Option.map_eq_some_iff.mp hfound
      exact ⟨count, rfl, .inl hcount⟩
    · obtain ⟨count, hcount, rfl⟩ := Option.map_eq_some_iff.mp hfound
      exact ⟨count, rfl, .inr hcount⟩
  obtain ⟨count, hnext, hcount⟩ := htaken
  rw [hnext, htextTo]
  rcases hcount with hcount | hcount
  · obtain ⟨body, rest, hrest, -, rfl⟩ := Lexeme.exists_inside_of_quoted? hcount
    exact ⟨'"', by decide, body, by rw [hrest, List.take_left]⟩
  · obtain ⟨body, rest, hrest, rfl⟩ := Lexeme.exists_raw_of_raw? hcount
    exact ⟨'\x60', by decide, body, by rw [hrest, List.take_left]⟩

/-- Every spelling of a text between double quotes stands for it, a text between backquotes for itself
without carriage returns, and a literal in a source text stands for no text just where one of its escapes
is faulty or its bytes are not UTF-8. -/
theorem unquote?_spelled :
    (∀ (text : String) (pieces : List (List Char)), List.Forall₂ Spelling text.toList pieces →
      unquote? ('"' :: (pieces.flatten ++ ['"'])) = some text) ∧
    (∀ text : String, '\x60' ∉ text.toList →
      unquote? ('\x60' :: (text.toList ++ ['\x60'])) =
        some (String.ofList (text.toList.filter (· ≠ '\r')))) ∧
    ∀ (mode : Mode) (cursor next : Cursor) (literal : List Char) (span : Span) (fault : Option Fault),
      (Grammar.stringLiteral mode cursor).found = some ⟨(literal, span), next, fault⟩ →
      (unquote? literal = none ↔ ∃ body, literal = '"' :: (body ++ ['"']) ∧
        (FaultyEscape body ∨ ∃ bytes, Spells body bytes ∧ ¬ bytes.toByteArray.IsValidUTF8)) := by
  refine ⟨fun text pieces hpieces => ?_, fun text _ => unquote?_raw text.toList,
    fun mode cursor next literal span fault hfound => ?_⟩
  · rw [unquote?_interpreted,
      (unescape?_eq_some_iff (Nat.le_refl _)).mpr (spells_flatten hpieces), Option.bind_some,
      fromUTF8?_flatMap, String.ofList_toList]
  · obtain ⟨mark, hmark, body, rfl⟩ := quoted_of_stringLiteral hfound
    have hmarks : mark = '"' ∨ mark = '\x60' := by simpa using hmark
    rcases hmarks with rfl | rfl
    · rw [unquote?_interpreted_eq_none_iff]
      simp
    · rw [unquote?_raw]
      simp

theorem unquote?_spelled_mixed :
    (List.Forall₂ Spelling "é\n".toList [['\\', 'x', 'c', '3', '\\', '2', '5', '1'], ['\\', 'n']] ∧
      unquote? ['"', '\\', 'x', 'c', '3', '\\', '2', '5', '1', '\\', 'n', '"'] = some "é\n") ∧
    ('\x60' ∉ "a\r\n".toList ∧ unquote? ['\x60', 'a', '\r', '\n', '\x60'] = some "a\n") ∧
    (∃ next span, (Grammar.stringLiteral .tight ⟨"\"\\ud800\" x".toList, ⟨0, 1, 1⟩⟩).found =
        some ⟨("\"\\ud800\"".toList, span), next, none⟩ ∧
      unquote? "\"\\ud800\"".toList = none) := by
  have hspelled : List.Forall₂ Spelling "é\n".toList
      [['\\', 'x', 'c', '3', '\\', '2', '5', '1'], ['\\', 'n']] := by
    have hfirst : ByteEscape 0xC3 ['\\', 'x', 'c', '3'] :=
      .hex rfl ((digitsFrom?_eq_some_iff (by decide)).mp (by decide))
    have hsecond : ByteEscape 0xA9 ['\\', '2', '5', '1'] :=
      .octal rfl ((digitsFrom?_eq_some_iff (by decide)).mp (by decide))
    have hbytes : List.Forall₂ ByteEscape (String.utf8EncodeChar 'é')
        [['\\', 'x', 'c', '3'], ['\\', '2', '5', '1']] := .cons hfirst (.cons hsecond .nil)
    have hfeed : Spelling '\n' ['\\', 'n'] :=
      .short (show ('n', (0x0A : UInt8)) ∈ shortForms by decide)
    rw [show "é\n".toList = ['é', '\n'] by decide]
    exact .cons (.bytes hbytes) (.cons hfeed .nil)
  have hfound : ∃ next span, (Grammar.stringLiteral .tight
      ⟨"\"\\ud800\" x".toList, ⟨0, 1, 1⟩⟩).found =
        some ⟨("\"\\ud800\"".toList, span), next, none⟩ := ⟨_, _, rfl⟩
  obtain ⟨next, span, hfound⟩ := hfound
  have hfaulty : FaultyEscape "\\ud800".toList :=
    ⟨[], "ud800".toList, [], rfl, .nil, escape?_eq_none_iff.mp (by decide)⟩
  exact ⟨⟨hspelled, unquote?_spelled.1 "é\n" _ hspelled⟩,
    ⟨by decide, unquote?_spelled.2.1 "a\r\n" (by decide)⟩,
    next, span, hfound,
    (unquote?_spelled.2.2 _ _ _ _ _ _ hfound).mpr ⟨_, rfl, .inl hfaulty⟩⟩

end GoTrace.Literal
