import GoTrace.Grammar.Lexeme

/-!
# What stands between two marks

Literals and comments reach from a mark to the next one that ends them. What may stand between the two
is said here without looking for the end, and the end that is looked for is the one behind it.
-/

namespace GoTrace.Lexeme

variable {mark : Char} {text rest : List Char}

/-- What may stand between two marks `mark` on one line: any character but the mark, and behind a
backslash any character at all. -/
inductive Inside (mark : Char) : List Char → Prop
  | nil : Inside mark []
  | plain {c : Char} {rest : List Char} :
      c ≠ mark → c ≠ '\\' → isLineEnd c = false → Inside mark rest → Inside mark (c :: rest)
  | escaped (c : Char) {rest : List Char} : Inside mark rest → Inside mark ('\\' :: c :: rest)

theorem quotedTail?_of_ne {c : Char} (hslash : c ≠ '\\') (rest : List Char) :
    quotedTail? mark (c :: rest) =
      if c = mark then some 1
      else if isLineEnd c then none
      else (quotedTail? mark rest).map (· + 1) := by
  rw [quotedTail?]
  · simp only [hslash, decide_false, Bool.false_or]
  · exact fun d tail heq _ => hslash heq

theorem quotedTail?_of_inside (hmark : mark ≠ '\\') (h : Inside mark text) (rest : List Char) :
    quotedTail? mark (text ++ mark :: rest) = some (text.length + 1) := by
  induction h with
  | nil => rw [List.nil_append, quotedTail?_of_ne hmark, if_pos rfl, List.length_nil]
  | plain hne hslash hline _ ih =>
      rw [List.cons_append, quotedTail?_of_ne hslash, if_neg hne, if_neg (by simp [hline]), ih]
      rfl
  | escaped c _ ih =>
      rw [List.cons_append, List.cons_append, quotedTail?, ih]
      rfl

/-- Wherever a text in quotes ends, what stands in front of the mark may stand there. -/
theorem exists_inside_of_quotedTail? {count : Nat} (h : quotedTail? mark text = some count) :
    ∃ inside rest, text = inside ++ mark :: rest ∧ Inside mark inside ∧ count = inside.length + 1 := by
  fun_induction quotedTail? mark text generalizing count with
  | case1 c rest ih =>
      obtain ⟨inner, hinner, rfl⟩ := Option.map_eq_some_iff.mp h
      obtain ⟨inside, behind, rfl, hinside, rfl⟩ := ih hinner
      exact ⟨_, behind, rfl, .escaped c hinside, rfl⟩
  | case2 rest =>
      cases h
      exact ⟨[], rest, rfl, .nil, rfl⟩
  | case3 => cases h
  | case4 c rest _ hne hplain ih =>
      obtain ⟨inner, hinner, rfl⟩ := Option.map_eq_some_iff.mp h
      obtain ⟨inside, behind, rfl, hinside, rfl⟩ := ih hinner
      simp only [Bool.or_eq_true, decide_eq_true_eq, not_or] at hplain
      exact ⟨_, behind, rfl, .plain hne hplain.1 (by simpa using hplain.2) hinside, rfl⟩
  | case5 => cases h

/-- Literals from their first mark to their last: strings and characters on one line, raw strings up to
the next backquote. -/
inductive IsLiteral : List Char → Prop
  | string {inside : List Char} : Inside '"' inside → IsLiteral ('"' :: (inside ++ ['"']))
  | character {inside : List Char} : Inside '\'' inside → IsLiteral ('\'' :: (inside ++ ['\'']))
  | raw {inside : List Char} : '\x60' ∉ inside → IsLiteral ('\x60' :: (inside ++ ['\x60']))

theorem IsLiteral.length_pos (h : IsLiteral text) : 0 < text.length := by
  cases h <;> exact Nat.succ_pos _

theorem quoted?_of_inside (hmark : mark ≠ '\\') (h : Inside mark text) (rest : List Char) :
    quoted? mark (mark :: (text ++ [mark]) ++ rest) = some (mark :: (text ++ [mark])).length := by
  rw [List.cons_append, List.append_assoc, List.singleton_append, quoted?, if_pos rfl,
    quotedTail?_of_inside hmark h]
  simp

theorem exists_inside_of_quoted? {count : Nat} (h : quoted? mark text = some count) :
    ∃ inside rest, text = mark :: (inside ++ [mark]) ++ rest ∧ Inside mark inside ∧
      count = (mark :: (inside ++ [mark])).length := by
  cases text with
  | nil => cases h
  | cons c text =>
      rw [quoted?] at h
      split at h
      · rename_i hc
        obtain ⟨count, hcount, rfl⟩ := Option.map_eq_some_iff.mp h
        obtain ⟨inside, rest, rfl, hinside, rfl⟩ := exists_inside_of_quotedTail? hcount
        exact ⟨inside, rest, by simp [hc], hinside, by simp⟩
      · cases h

theorem isLiteral_of_quoted? (h : quoted? '"' text = some text.length) : IsLiteral text := by
  obtain ⟨inside, rest, rfl, hinside, hlength⟩ := exists_inside_of_quoted? h
  rw [List.length_append, Nat.add_eq_left, List.length_eq_zero_iff] at hlength
  rw [hlength, List.append_nil]
  exact .string hinside

theorem raw?_of_notMem (h : '\x60' ∉ text) (rest : List Char) :
    raw? ('\x60' :: (text ++ ['\x60']) ++ rest) = some ('\x60' :: (text ++ ['\x60'])).length := by
  have htail : rawTail? (text ++ '\x60' :: rest) = some (text.length + 1) := by
    induction text with
    | nil => rfl
    | cons c text ih =>
        rw [List.mem_cons, not_or] at h
        rw [List.cons_append, rawTail?, ih h.2]
        · rfl
        · exact fun heq => h.1 heq.symm
  rw [List.cons_append, List.append_assoc, List.singleton_append, raw?, htail]
  simp

theorem exists_raw_of_raw? {count : Nat} (h : raw? text = some count) :
    ∃ raw rest, text = '\x60' :: (raw ++ ['\x60']) ++ rest ∧
      count = ('\x60' :: (raw ++ ['\x60'])).length := by
  have htail {text : List Char} {count : Nat} (h : rawTail? text = some count) :
      ∃ raw rest, text = raw ++ '\x60' :: rest ∧ count = raw.length + 1 := by
    fun_induction rawTail? text generalizing count with
    | case1 rest =>
        cases h
        exact ⟨[], rest, rfl, rfl⟩
    | case2 c rest _ ih =>
        obtain ⟨inner, hinner, rfl⟩ := Option.map_eq_some_iff.mp h
        obtain ⟨raw, behind, rfl, rfl⟩ := ih hinner
        exact ⟨c :: raw, behind, rfl, rfl⟩
    | case3 => cases h
  unfold raw? at h
  split at h
  · obtain ⟨inner, hinner, rfl⟩ := Option.map_eq_some_iff.mp h
    obtain ⟨raw, rest, rfl, rfl⟩ := htail hinner
    exact ⟨raw, rest, by simp, by simp⟩
  · cases h

theorem blockTail?_of_not_infix (h : ¬ ['*', '/'] <:+: text) (rest : List Char) :
    blockTail? (text ++ '*' :: '/' :: rest) = some (text.length + 2) := by
  induction text with
  | nil => rfl
  | cons c text ih =>
      have htext : ¬ ['*', '/'] <:+: text := fun hinfix => h (List.infix_cons hinfix)
      rw [List.cons_append, blockTail?, ih htext]
      · rfl
      · -- no end mark starts at `c`: its second half would be the next character of the text
        intro tail hc heq
        cases text with
        | nil => cases heq
        | cons d text =>
            cases heq
            exact h ⟨[], text, by rw [hc]; rfl⟩

end GoTrace.Lexeme
