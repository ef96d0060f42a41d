import GoTrace.Grammar.Lexeme
import GoTrace.Text.Quoted

/-!
# Quoted text

A character stands between double quotes in one of four forms: as a zero behind a backslash, as a letter
or a sign behind one, as its code point, or by itself. However its characters are escaped, a quoted text
is one literal.
-/

namespace GoTrace

namespace Text

/-- A printable character in ASCII, the space included. -/
def IsPrintableAscii (c : Char) : Prop := 0x20 ≤ c.toNat ∧ c.toNat < 0x7F

instance (c : Char) : Decidable (IsPrintableAscii c) :=
  inferInstanceAs (Decidable (_ ∧ _))

-- Named for this property, so that it is not decided over all characters there are.
instance (text : List Char) : Decidable (∀ c ∈ text, IsPrintableAscii c) :=
  List.decidableBAll IsPrintableAscii text

theorem toList_quote (text : String) :
    (quote text).toList = '"' :: (text.toList.flatMap escape ++ ['"']) := by
  rw [quote, String.toList_ofList, List.cons_append]

theorem forall_ascii {p : Char → Prop} (h : ∀ n < 128, p (Char.ofNat n)) {c : Char}
    (hc : c.toNat < 128) : p c := by
  have hvalue := h c.toNat hc
  rwa [Char.ofNat_toNat] at hvalue

/-- A character that is written by itself, or by an escape that stands for it in literals too. -/
def ReadsBack (c : Char) : Prop :=
  c ≠ '\x00' ∧ (c ∈ ['\t', '\n', '\r'] ∨ (isExtender c || !isPrintable c) = false)

instance (c : Char) : Decidable (ReadsBack c) := inferInstanceAs (Decidable (_ ∧ _))

instance (text : List Char) : Decidable (∀ c ∈ text, ReadsBack c) :=
  List.decidableBAll ReadsBack text

theorem IsPrintableAscii.readsBack {c : Char} (h : IsPrintableAscii c) : ReadsBack c := by
  have hascii : c.toNat < 128 := Nat.lt_trans h.2 (by decide)
  revert h
  refine forall_ascii (p := fun c => IsPrintableAscii c → ReadsBack c) ?_ hascii
  decide +kernel

/-- The characters that are written by a letter or a sign behind a backslash. -/
def shortEscapes : List (Char × Char) :=
  [('\t', 't'), ('\n', 'n'), ('\r', 'r'), ('"', '"'), ('\\', '\\')]

/-- The forms in which characters stand inside quotes. -/
inductive Escaped : Char → List Char → Prop
  | nul : Escaped '\x00' ['\\', '0']
  | short {c letter : Char} : (c, letter) ∈ shortEscapes → Escaped c ['\\', letter]
  | code {c : Char} : c ≠ '\x00' → ¬ ReadsBack c → Escaped c (escapeCodePoint c)
  | plain {c : Char} : ReadsBack c → c ∉ shortEscapes.map (·.1) → Escaped c [c]

theorem escaped_escape (c : Char) : Escaped c (escape c) := by
  unfold escape
  split
  · exact .nul
  · exact .short (by decide)
  · exact .short (by decide)
  · exact .short (by decide)
  · exact .short (by decide)
  · exact .short (by decide)
  · rename_i hnul htab hreturn hfeed hquote hbackslash
    split
    · rename_i hshown
      refine .code hnul ?_
      rintro ⟨-, hmem | hglyph⟩
      · simp [show c ≠ '\t' from htab, show c ≠ '\n' from hfeed, show c ≠ '\r' from hreturn] at hmem
      · rw [hglyph] at hshown
        cases hshown
    · rename_i hshown
      refine .plain ⟨hnul, .inr (Bool.not_eq_true _ ▸ hshown)⟩ ?_
      simp only [shortEscapes, List.map_cons, List.map_nil, List.mem_cons, List.not_mem_nil, or_false,
        not_or]
      exact ⟨htab, hfeed, hreturn, hquote, hbackslash⟩

theorem escape_of_not_readsBack {c : Char} (hnul : c ≠ '\x00') (h : ¬ ReadsBack c) :
    escape c = escapeCodePoint c := by
  have hshort : ∀ pair ∈ shortEscapes, ReadsBack pair.1 := by decide +kernel
  have hescaped := escaped_escape c
  generalize escape c = form at hescaped ⊢
  cases hescaped with
  | nul => exact absurd rfl hnul
  | short hmem => exact absurd (hshort _ hmem) h
  | code => rfl
  | plain hback => exact absurd hback h

end Text

namespace Lexeme

/-- A character that stands for itself between double quotes. -/
def isQuotable (c : Char) : Bool :=
  !(c = '"' || c = '\\' || isLineEnd c)

theorem quotedTail?_cons {c : Char} (h : isQuotable c = true) (rest : List Char) :
    quotedTail? '"' (c :: rest) = (quotedTail? '"' rest).map (· + 1) := by
  simp only [isQuotable, Bool.not_eq_true', Bool.or_eq_false_iff, decide_eq_false_iff_not] at h
  obtain ⟨⟨hquote, hbackslash⟩, hline⟩ := h
  rw [quotedTail?]
  · rw [if_neg hquote, if_neg (by simp [hbackslash, hline])]
  · intro d tail heq
    exact absurd heq hbackslash

theorem quotedTail?_append {word : List Char} (h : ∀ c ∈ word, isQuotable c = true)
    (rest : List Char) :
    quotedTail? '"' (word ++ rest) = (quotedTail? '"' rest).map (· + word.length) := by
  induction word with
  | nil => simp
  | cons c word ih =>
      have hword : ∀ d ∈ word, isQuotable d = true := fun d hd => h d (List.mem_cons_of_mem _ hd)
      rw [List.cons_append, quotedTail?_cons (h c List.mem_cons_self), ih hword, Option.map_map,
        List.length_cons]
      rfl

theorem isQuotable_of_mem_toDigits {n : Nat} {c : Char} (h : c ∈ Nat.toDigits 16 n) :
    isQuotable c = true := by
  induction n using Nat.strongRecOn with
  | ind n ih =>
      have hdigit : ∀ d < 16, isQuotable d.digitChar = true := by decide
      rw [Nat.toDigits_eq_if (by decide)] at h
      split at h
      · rename_i hlt
        rw [List.mem_singleton.mp h]
        exact hdigit n hlt
      · rename_i hle
        rcases List.mem_append.mp h with hmem | hmem
        · exact ih (n / 16) (by omega) hmem
        · rw [List.mem_singleton.mp hmem]
          exact hdigit (n % 16) (Nat.mod_lt _ (by decide))

theorem quotedTail?_escape (c : Char) (rest : List Char) :
    quotedTail? '"' (Text.escape c ++ rest) =
      (quotedTail? '"' rest).map (· + (Text.escape c).length) := by
  have hescaped := Text.escaped_escape c
  generalize Text.escape c = form at hescaped ⊢
  cases hescaped with
  | nul => rfl
  | short => rfl
  | code =>
      have hword : ∀ d ∈ '\x7b' :: (Nat.toDigits 16 c.toNat ++ ['\x7d']), isQuotable d = true := by
        intro d hmem
        rcases List.mem_cons.mp hmem with rfl | hmem
        · decide
        · rcases List.mem_append.mp hmem with hmem | hmem
          · exact isQuotable_of_mem_toDigits hmem
          · rw [List.mem_singleton.mp hmem]
            decide
      have hcode : Text.escapeCodePoint c =
          ['\\', 'u'] ++ '\x7b' :: (Nat.toDigits 16 c.toNat ++ ['\x7d']) := by
        simp [Text.escapeCodePoint]
      rw [hcode, List.append_assoc]
      change (quotedTail? '"' (_ ++ rest)).map (· + 2) = _
      rw [quotedTail?_append hword, Option.map_map]
      congr 1
  | plain _ hplain =>
      refine quotedTail?_cons ?_ rest
      simp only [Text.shortEscapes, List.map_cons, List.map_nil, List.mem_cons, List.not_mem_nil,
        or_false, not_or] at hplain
      obtain ⟨-, hfeed, hreturn, hquote, hbackslash⟩ := hplain
      simp [isQuotable, isLineEnd, hfeed, hreturn, hquote, hbackslash]

theorem quoted?_quote (text : String) (rest : List Char) :
    quoted? '"' ((Text.quote text).toList ++ rest) = some (Text.quote text).toList.length := by
  have htail (chars : List Char) : quotedTail? '"' (chars.flatMap Text.escape ++ '"' :: rest) =
      some ((chars.flatMap Text.escape).length + 1) := by
    induction chars with
    | nil => rfl
    | cons c chars ih =>
        rw [List.flatMap_cons, List.append_assoc, quotedTail?_escape, ih, Option.map_some,
          List.length_append]
        congr 1
        omega
  rw [Text.toList_quote, List.cons_append, List.append_assoc, quoted?, if_pos rfl,
    List.singleton_append, htail]
  simp

end Lexeme

end GoTrace
