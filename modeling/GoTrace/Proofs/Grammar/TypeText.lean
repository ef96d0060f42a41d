import GoTrace.Proofs.Grammar.TypeRefusal
import GoTrace.Proofs.Literal.Decimal

/-!
# Where types are read

Each rule for types reads the text that begins as the rule does. Behind a type there may be blanks,
which some rules take along, so a type is read down to a rest that differs from the text behind the
type in blanks at most.
-/

namespace GoTrace.Grammar

open GoTrace.Lexeme GoTrace.Parser

/-- A text that can follow a type: the end, a mark that closes a list, the end of a line or the start
of a body. -/
def Closes : List Char → Prop
  | [] => True
  | ' ' :: '\x7b' :: _ => True
  | c :: _ => c = ',' ∨ c = ')' ∨ c = ']' ∨ c = '\n'

theorem closes_cons {c : Char} (h : c = ',' ∨ c = ')' ∨ c = ']' ∨ c = '\n') (rest : List Char) :
    Closes (c :: rest) := by
  rcases h with rfl | rfl | rfl | rfl <;> simp [Closes]

namespace Closes

variable {rest : List Char} (h : Closes rest)

include h

theorem exists_skipBlanks :
    skipBlanks rest = [] ∨
      ∃ c tail, skipBlanks rest = c :: tail ∧
        (c = ',' ∨ c = ')' ∨ c = ']' ∨ c = '\n' ∨ c = '\x7b') := by
  unfold Closes at h
  split at h
  · exact .inl skipBlanks_nil
  · rename_i tail
    rw [skipBlanks_space]
    exact .inr ⟨'\x7b', tail, skipBlanks_of_isSolid (by decide) tail, by simp⟩
  · rename_i c tail _
    refine .inr ⟨c, tail, ?_, by rcases h with h | h | h | h <;> simp [h]⟩
    exact skipBlanks_of_isSolid (by rcases h with rfl | rfl | rfl | rfl <;> decide) tail

theorem noType : NoType (skipBlanks rest) := by
  rcases h.exists_skipBlanks with heq | ⟨c, tail, heq, hc⟩
  · rw [heq]
    trivial
  · rw [heq]
    change startsNoType c = true
    rcases hc with rfl | rfl | rfl | rfl | rfl <;> decide

theorem head?_skipBlanks_ne : (skipBlanks rest).head? ≠ some '[' :=
  head?_of_noType h.noType (by decide)

theorem stopsWord : StopsWord rest := by
  unfold Closes at h
  split at h
  · trivial
  · exact (by decide : isIdentChar ' ' = false)
  · rename_i c tail _
    change isIdentChar c = false
    rcases h with rfl | rfl | rfl | rfl <;> decide

theorem head?_ne_dot : rest.head? ≠ some '.' := by
  unfold Closes at h
  split at h
  · nofun
  · simp
  · rcases h with rfl | rfl | rfl | rfl <;> simp

end Closes

variable {mode : Mode} {text rest : List Char} {accept : TypeExpr → Prop}

/-! ## Names -/

theorem reads_qualifiedIdent_bare {name : String} (h : IsIdentifier name) (hrest : StopsWord rest)
    (hdot : rest.head? ≠ some '.') :
    Reads qualifiedIdent mode (name.toList ++ rest) rest (· = (none, name)) := by
  refine Reads.tight (Reads.rule ((reads_identifier h hrest).bind fun first hfirst => ?_))
  refine (Reads.optional_none (refuses_mark rfl hdot).bind_left).bind fun second hsecond => ?_
  rw [hsecond]
  exact (Reads.pure _).weaken fun value hvalue => by rw [hvalue, hfirst]

theorem reads_qualifiedIdent_dotted {aliasName name : String} (halias : IsIdentifier aliasName)
    (hname : IsIdentifier name) (hrest : StopsWord rest) :
    Reads qualifiedIdent mode (aliasName.toList ++ '.' :: (name.toList ++ rest)) rest
      (· = (some aliasName, name)) := by
  have hdot : StopsWord ('.' :: (name.toList ++ rest)) := by
    exact (by decide : isIdentChar '.' = false)
  refine Reads.tight (Reads.rule ((reads_identifier halias hdot).bind fun first hfirst => ?_))
  have hsecond : Reads (do mark "."; identifier) .tight _ rest (·.name = name) :=
    (reads_mark rfl (name.toList ++ rest)).bind fun _ _ => reads_identifier hname hrest
  refine hsecond.optional_some.bind fun second hsecond => ?_
  obtain ⟨found, rfl, hfound⟩ := hsecond
  exact (Reads.pure _).weaken fun value hvalue => by rw [hvalue, hfirst, hfound]

variable (type : Parser TypeExpr)

theorem reads_typeName {package : Option String} {name : String}
    (h : Reads qualifiedIdent .spaced text rest (· = (package, name)))
    (hbracket : (skipBlanks rest).head? ≠ some '[') :
    Reads (typeName type) .spaced text (skipBlanks rest) (· = .name package name []) := by
  refine Reads.rule (h.bind fun value hvalue => ?_)
  rw [hvalue]
  refine (reads_gap rest).bind fun _ _ => ?_
  have hargs : Refuses (Parser.rule .typeArgs (listed "[" "]" type)) .spaced (skipBlanks rest) :=
    ((refuses_mark rfl hbracket).bind_left).rule
  refine (Reads.optional_none hargs).bind fun args hargs => ?_
  rw [hargs]
  exact Reads.pure _

theorem wordAhead_ne {word other : String} (hword : word.toList.all isIdentChar = true)
    (hrest : StopsWord rest) (hne : word.toList ≠ other.toList) :
    wordAhead (word.toList ++ rest) ≠ other.toList := by
  rwa [wordAhead_append hword hrest]

theorem typeWith_of_identifier {count : Nat} (h : Reads (typeName type) mode text rest accept)
    (hword : identifier? text = some count) : Reads (typeWith type) mode text rest accept := by
  obtain ⟨c, tail, hahead, hstart, hkeyword, -⟩ := exists_of_identifier? hword
  have hne {word : String} (hmem : word ∈ keywords) : wordAhead text ≠ word.toList := by
    intro heq
    rw [heq, String.ofList_toList] at hkeyword
    exact hkeyword hmem
  have hhead {d : Char} (hd : isIdentStart d = false) : text.head? ≠ some d := by
    cases text with
    | nil => nofun
    | cons first others =>
        intro heq
        cases heq
        rw [wordAhead, List.takeWhile_cons] at hahead
        split at hahead
        · cases hahead
          exact absurd (hd.symm.trans hstart) (by decide)
        · cases hahead
  exact Reads.rule <| .orElse_right (refuses_pointerType type (hhead (by decide))) <|
    .orElse_right (refuses_sliceType type (hhead (by decide))) <|
    .orElse_right (refuses_arrayType type (hhead (by decide))) <|
    .orElse_right (refuses_mapType type (hne (by decide))) <|
    .orElse_right (refuses_chanType type (hne (by decide)) (hhead (by decide))) <|
    .orElse_right (refuses_funcType type (hne (by decide))) <|
    .orElse_right (refuses_interfaceType type (hne (by decide))) <|
    .orElse_right (refuses_structType type (hne (by decide))) <|
    .orElse_right (refuses_parenType type (hhead (by decide))) h

/-! ## Types that begin with a mark -/

variable {type}

theorem typeWith_pointer (h : Reads type .spaced text rest accept)
    (htext : skipBlanks text = text) :
    Reads (typeWith type) .spaced ('*' :: text) rest
      fun found => ∃ target, found = .pointer target ∧ accept target := by
  refine Reads.rule (.orElse_left (Reads.rule ?_))
  refine (reads_mark rfl text).bind fun _ _ => (reads_gap_none htext).bind fun _ _ => ?_
  refine h.bind fun target htarget => ?_
  exact (Reads.pure _).weaken fun found hfound => ⟨target, hfound, htarget⟩

theorem typeWith_slice (h : Reads type .spaced text rest accept) (htext : skipBlanks text = text) :
    Reads (typeWith type) .spaced ('[' :: ']' :: text) rest
      fun found => ∃ element, found = .slice element ∧ accept element := by
  have hclose : skipBlanks (']' :: text) = ']' :: text := skipBlanks_of_isSolid (by decide) text
  have hstar : ('[' :: ']' :: text).head? ≠ some '*' := head?_ne rfl (by decide)
  refine Reads.rule (.orElse_right (refuses_pointerType type hstar) (.orElse_left (Reads.rule ?_)))
  refine (reads_mark rfl (']' :: text)).bind fun _ _ => (reads_gap_none hclose).bind fun _ _ => ?_
  refine (reads_mark rfl text).bind fun _ _ => (reads_gap_none htext).bind fun _ _ => ?_
  refine h.bind fun element helement => ?_
  exact (Reads.pure _).weaken fun found hfound => ⟨element, hfound, helement⟩

/-! ## Array lengths -/

theorem isIdentStart_of_isDigit {c : Char} (h : c.isDigit = true) : isIdentStart c = false := by
  obtain ⟨hlow, hhigh⟩ := Text.toNat_of_isDigit h
  have hupper : c.isUpper = false :=
    decide_eq_false fun hle => absurd (Nat.le_trans hle.1 hhigh) (by decide)
  have hlower : c.isLower = false :=
    Bool.and_eq_false_iff.mpr
      (.inl (decide_eq_false fun hle => absurd (Nat.le_trans hle hhigh) (by decide)))
  have halpha : c.isAlpha = false := Bool.or_eq_false_iff.mpr ⟨hupper, hlower⟩
  have hunderscore : c ≠ '_' := by
    rintro rfl
    exact absurd h (by decide)
  have hascii : c.toNat < 0x80 := by omega
  simp [isIdentStart, Text.isLetter, hascii, halpha, hunderscore]

theorem ne_of_isDigit {c d : Char} (h : c.isDigit = true) (hd : d.isDigit = false) : c ≠ d := by
  rintro rfl
  exact absurd (h.symm.trans hd) (by decide)

def lengthChar : Parser Unit :=
  bracketed groupInside "(" ")" <|> bracketed groupInside "[" "]" <|>
    one fun c => !(c = ']' || isLineEnd c)

theorem reads_lengthChar {c : Char} (h : c.isDigit = true) (rest : List Char) :
    Reads lengthChar mode (c :: rest) rest fun _ => True := by
  have hparen : (c :: rest).head? ≠ some '(' := head?_ne rfl (ne_of_isDigit h (by decide))
  have hbracket : (c :: rest).head? ≠ some '[' := head?_ne rfl (ne_of_isDigit h (by decide))
  have hone : Lexeme.one? (fun c => !(c = ']' || isLineEnd c)) (c :: rest) = some 1 := by
    have hclose : c ≠ ']' := ne_of_isDigit h (by decide)
    have hfeed : c ≠ '\n' := ne_of_isDigit h (by decide)
    have hreturn : c ≠ '\r' := ne_of_isDigit h (by decide)
    simp [Lexeme.one?, isLineEnd, hclose, hfeed, hreturn]
  refine .orElse_right ((refuses_mark rfl hparen).bind_left) ?_
  exact .orElse_right ((refuses_mark rfl hbracket).bind_left) (Reads.take hone)

theorem refuses_lengthChar (rest : List Char) : Refuses lengthChar mode (']' :: rest) := by
  have hparen : (']' :: rest).head? ≠ some '(' := head?_ne rfl (by decide)
  have hbracket : (']' :: rest).head? ≠ some '[' := head?_ne rfl (by decide)
  exact .orElse ((refuses_mark rfl hparen).bind_left)
    (.orElse ((refuses_mark rfl hbracket).bind_left) (Refuses.take rfl))

theorem rounds_lengthChar {digits : List Char} (h : ∀ c ∈ digits, c.isDigit = true)
    (rest : List Char) :
    ∃ accepts, Rounds lengthChar mode (digits ++ ']' :: rest) accepts (']' :: rest) := by
  induction digits with
  | nil => exact ⟨[], .stop (refuses_lengthChar rest)⟩
  | cons c digits ih =>
      obtain ⟨accepts, hrounds⟩ := ih fun d hmem => h d (List.mem_cons_of_mem _ hmem)
      exact ⟨_, .step (reads_lengthChar (h c List.mem_cons_self) _) (by simp) hrounds⟩

theorem reads_lengthText {digits : List Char} (h : ∀ c ∈ digits, c.isDigit = true)
    (hne : digits ≠ []) (rest : List Char) :
    Reads (textOf lengthChar) mode (digits ++ ']' :: rest) (']' :: rest)
      fun value => value.1 = digits := by
  cases digits with
  | nil => exact absurd rfl hne
  | cons c digits =>
      obtain ⟨accepts, hrounds⟩ := rounds_lengthChar
        (fun d hmem => h d (List.mem_cons_of_mem _ hmem)) rest
      have hread : Reads (do lengthChar; skipMany lengthChar) .hidden
          (c :: digits ++ ']' :: rest) (']' :: rest) fun _ => True :=
        (reads_lengthChar (h c List.mem_cons_self) _).bind fun _ _ => hrounds.skipMany
      exact Reads.hidden hread.captured

theorem reads_arrayLength {n : Nat} (h : n < UInt64.size) (rest : List Char) :
    Reads arrayLength .spaced (Nat.toDigits 10 n ++ ']' :: rest) (']' :: rest)
      (· = .literal n) := by
  have hdigit : ∀ c ∈ Nat.toDigits 10 n, c.isDigit = true :=
    fun _ => Literal.isDigit_of_mem_toDigits
  have hlength : Reads lengthExpr .spaced (Nat.toDigits 10 n ++ ']' :: rest) (']' :: rest)
      (· = .literal n) := by
    refine (reads_lengthText hdigit Nat.toDigits_ne_nil rest).rule.bind fun value hvalue => ?_
    obtain ⟨digits, span⟩ := value
    obtain rfl : digits = Nat.toDigits 10 n := hvalue
    simp only [lengthOfText]
    rw [Literal.trim_toDigits, Literal.readInt_toDigits h]
    exact Reads.pure _
  cases hdigits : Nat.toDigits 10 n with
  | nil => exact absurd hdigits Nat.toDigits_ne_nil
  | cons c digits =>
      rw [hdigits] at hlength hdigit
      have hc := hdigit c List.mem_cons_self
      have hdots := head?_ne (show (c :: digits ++ ']' :: rest).head? = some c from rfl)
        (ne_of_isDigit hc (show '.'.isDigit = false by decide))
      have hname := identifier?_cons (isIdentStart_of_isDigit hc) (digits ++ ']' :: rest)
      refine Reads.rule (.orElse_right ((refuses_mark rfl hdots).rule.bind_left) ?_)
      exact .orElse_right ((refuses_qualifiedIdent hname).bind_left) hlength

theorem typeWith_array {n : Nat} (hn : n < UInt64.size) (h : Reads type .spaced text rest accept)
    (htext : skipBlanks text = text) :
    Reads (typeWith type) .spaced ('[' :: (Nat.toDigits 10 n ++ ']' :: text)) rest
      fun found => ∃ element, found = .array (.literal n) element ∧ accept element := by
  have hclose : skipBlanks (']' :: text) = ']' :: text := skipBlanks_of_isSolid (by decide) text
  have hdigits : skipBlanks (Nat.toDigits 10 n ++ ']' :: text) = Nat.toDigits 10 n ++ ']' :: text ∧
      (Nat.toDigits 10 n ++ ']' :: text).head? ≠ some ']' := by
    cases hdigits : Nat.toDigits 10 n with
    | nil => exact absurd hdigits Nat.toDigits_ne_nil
    | cons c digits =>
        have hc : c.isDigit = true := Literal.isDigit_of_mem_toDigits (hdigits ▸ List.mem_cons_self)
        refine ⟨skipBlanks_of_isSolid ?_ _, head?_ne rfl (ne_of_isDigit hc (by decide))⟩
        simp [isSolid, ne_of_isDigit hc (show ' '.isDigit = false by decide),
          ne_of_isDigit hc (show '\t'.isDigit = false by decide),
          ne_of_isDigit hc (show '\uFEFF'.isDigit = false by decide),
          ne_of_isDigit hc (show '/'.isDigit = false by decide)]
  have hstar : ('[' :: (Nat.toDigits 10 n ++ ']' :: text)).head? ≠ some '*' :=
    head?_ne rfl (by decide)
  refine Reads.rule (.orElse_right (refuses_pointerType type hstar) (.orElse_right ?_ ?_))
  · exact refuses_sliceType_of_length type (by rw [hdigits.1]; exact hdigits.2)
  · refine .orElse_left (Reads.rule ?_)
    refine (reads_mark rfl _).bind fun _ _ => (reads_gap_none hdigits.1).bind fun _ _ => ?_
    refine (reads_arrayLength hn text).bind fun length hlength => ?_
    refine (reads_gap_none hclose).bind fun _ _ => (reads_mark rfl text).bind fun _ _ => ?_
    refine (reads_gap_none htext).bind fun _ _ => h.bind fun element helement => ?_
    rw [hlength]
    exact (Reads.pure _).weaken fun found hfound => ⟨element, hfound, helement⟩

/-! ## Types that begin with a keyword -/

theorem reads_word {name : Rule} {word : String} {c : Char} (rest : List Char)
    (hword : word.toList.all isIdentChar = true := by decide)
    (hc : isIdentChar c = false := by decide) :
    Reads (keyword name word) mode (word.toList ++ c :: rest) (c :: rest) fun _ => True :=
  reads_keyword hword hc

theorem typeWith_map {middle : List Char} {accept' : TypeExpr → Prop}
    (hkey : Reads type .spaced text middle accept) (htext : skipBlanks text = text)
    {text' : List Char} (hmiddle : skipBlanks middle = ']' :: text')
    (hvalue : Reads type .spaced text' rest accept') (htext' : skipBlanks text' = text') :
    Reads (typeWith type) .spaced ("map".toList ++ '[' :: text) rest
      fun found => ∃ key value, found = .map key value ∧ accept key ∧ accept' value := by
  have hopen : skipBlanks ('[' :: text) = '[' :: text := skipBlanks_of_isSolid (by decide) text
  have hgap := reads_gap middle
  rw [hmiddle] at hgap
  refine Reads.rule (.orElse_right (refuses_pointerType type (head?_ne rfl (by decide))) ?_)
  refine .orElse_right (refuses_sliceType type (head?_ne rfl (by decide))) ?_
  refine .orElse_right (refuses_arrayType type (head?_ne rfl (by decide))) ?_
  refine .orElse_left (Reads.rule ?_)
  refine (reads_word text).bind fun _ _ => (reads_gap_none hopen).bind fun _ _ => ?_
  refine (reads_mark rfl text).bind fun _ _ => (reads_gap_none htext).bind fun _ _ => ?_
  refine hkey.bind fun key hkey => hgap.bind fun _ _ => ?_
  refine (reads_mark rfl text').bind fun _ _ => (reads_gap_none htext').bind fun _ _ => ?_
  refine hvalue.bind fun value hvalue => ?_
  exact (Reads.pure _).weaken fun found hfound => ⟨key, value, hfound, hkey, hvalue⟩

theorem typeWith_of_chanType (h : Reads (chanType type) mode text rest accept)
    (hstar : text.head? ≠ some '*') (hbracket : text.head? ≠ some '[')
    (hmap : wordAhead text ≠ "map".toList) : Reads (typeWith type) mode text rest accept :=
  Reads.rule <| .orElse_right (refuses_pointerType type hstar) <|
    .orElse_right (refuses_sliceType type hbracket) <|
    .orElse_right (refuses_arrayType type hbracket) <|
    .orElse_right (refuses_mapType type hmap) <| .orElse_left h

theorem typeWith_receive (h : Reads type .spaced text rest accept)
    (htext : skipBlanks text = text) :
    Reads (typeWith type) .spaced ("<-chan ".toList ++ text) rest
      fun found => ∃ element, found = .chan .receive element ∧ accept element := by
  have hword : skipBlanks ("chan".toList ++ ' ' :: text) = "chan".toList ++ ' ' :: text :=
    skipBlanks_of_isSolid (by decide) _
  have hgap := reads_gap (' ' :: text)
  rw [skipBlanks_space, htext] at hgap
  refine typeWith_of_chanType (Reads.rule (.orElse_left (Reads.rule ?_)))
    (head?_ne rfl (by decide)) (head?_ne rfl (by decide)) ?_
  · refine (Reads.literal "<-" ("chan".toList ++ ' ' :: text)).bind fun _ _ => ?_
    refine (reads_gap_none hword).bind fun _ _ => (reads_word text).bind fun _ _ => ?_
    refine hgap.bind fun _ _ => h.bind fun element helement => ?_
    exact (Reads.pure _).weaken fun found hfound => ⟨element, hfound, helement⟩
  · exact (by decide : ([] : List Char) ≠ "map".toList)

theorem refuses_receiveChan (h : text.head? ≠ some '<') :
    Refuses (Parser.rule .receiveChan (do
      mark "<-"; gap; keyword .chanWord "chan"; gap; return .chan .receive (← type)) :
        Parser TypeExpr) mode text :=
  ((refuses_mark rfl h).bind_left).rule

theorem typeWith_send (h : Reads type .spaced text rest accept) (htext : skipBlanks text = text) :
    Reads (typeWith type) .spaced ("chan<- ".toList ++ text) rest
      fun found => ∃ element, found = .chan .send element ∧ accept element := by
  have harrow : skipBlanks ('<' :: '-' :: ' ' :: text) = '<' :: '-' :: ' ' :: text :=
    skipBlanks_of_isSolid (by decide) _
  have hgap := reads_gap (' ' :: text)
  rw [skipBlanks_space, htext] at hgap
  refine typeWith_of_chanType (Reads.rule (.orElse_right ?_ (.orElse_left (Reads.rule ?_))))
    (head?_ne rfl (by decide)) (head?_ne rfl (by decide)) ?_
  · exact refuses_receiveChan (head?_ne rfl (by decide))
  · refine (reads_word ('-' :: ' ' :: text)).bind fun _ _ => (reads_gap_none harrow).bind fun _ _ => ?_
    refine (Reads.literal "<-" (' ' :: text)).bind fun _ _ => hgap.bind fun _ _ => ?_
    refine h.bind fun element helement => ?_
    exact (Reads.pure _).weaken fun found hfound => ⟨element, hfound, helement⟩
  · have hword : wordAhead ("chan".toList ++ '<' :: '-' :: ' ' :: text) ≠ "map".toList :=
      wordAhead_ne (by decide) (by decide : isIdentChar '<' = false) (by decide)
    exact hword

theorem typeWith_both (h : Reads type .spaced text rest accept) (htext : skipBlanks text = text)
    (harrow : text.head? ≠ some '<') :
    Reads (typeWith type) .spaced ("chan ".toList ++ text) rest
      fun found => ∃ element, found = .chan .both element ∧ accept element := by
  have hgap := reads_gap (' ' :: text)
  rw [skipBlanks_space, htext] at hgap
  refine typeWith_of_chanType (Reads.rule (.orElse_right ?_ (.orElse_right ?_ (Reads.rule ?_))))
    (head?_ne rfl (by decide)) (head?_ne rfl (by decide)) ?_
  · exact refuses_receiveChan (head?_ne rfl (by decide))
  · refine Refuses.rule (Refuses.bind (reads_word text) fun _ _ => ?_)
    exact Refuses.bind hgap fun _ _ => (refuses_mark rfl harrow).bind_left
  · refine (reads_word text).bind fun _ _ => hgap.bind fun _ _ => ?_
    refine h.bind fun element helement => ?_
    exact (Reads.pure _).weaken fun found hfound => ⟨element, hfound, helement⟩
  · have hword : wordAhead ("chan".toList ++ ' ' :: text) ≠ "map".toList :=
      wordAhead_ne (by decide) (by decide : isIdentChar ' ' = false) (by decide)
    exact hword

theorem typeWith_paren {middle : List Char} (h : Reads type .spaced text middle accept)
    (htext : skipBlanks text = text) (hmiddle : skipBlanks middle = ')' :: rest) :
    Reads (typeWith type) .spaced ('(' :: text) rest
      fun found => ∃ inner, found = .paren inner ∧ accept inner := by
  have hword : wordAhead ('(' :: text) = [] := by
    simp [wordAhead, show isIdentChar '(' = false by decide]
  have hne {word : String} (h : word.toList ≠ []) : wordAhead ('(' :: text) ≠ word.toList := by
    rw [hword]
    exact h.symm
  have hgap := reads_gap middle
  rw [hmiddle] at hgap
  refine Reads.rule (.orElse_right (refuses_pointerType type (head?_ne rfl (by decide))) ?_)
  refine .orElse_right (refuses_sliceType type (head?_ne rfl (by decide))) ?_
  refine .orElse_right (refuses_arrayType type (head?_ne rfl (by decide))) ?_
  refine .orElse_right (refuses_mapType type (hne (by decide))) ?_
  refine .orElse_right (refuses_chanType type (hne (by decide)) (head?_ne rfl (by decide))) ?_
  refine .orElse_right (refuses_funcType type (hne (by decide))) ?_
  refine .orElse_right (refuses_interfaceType type (hne (by decide))) ?_
  refine .orElse_right (refuses_structType type (hne (by decide))) ?_
  refine .orElse_left (Reads.rule ?_)
  refine (reads_mark rfl text).bind fun _ _ => (reads_gap_none htext).bind fun _ _ => ?_
  refine h.bind fun inner hinner => hgap.bind fun _ _ => (reads_mark rfl rest).bind fun _ _ => ?_
  exact (Reads.pure _).weaken fun found hfound => ⟨inner, hfound, hinner⟩

end GoTrace.Grammar
