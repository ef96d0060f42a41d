import GoTrace.Proofs.Grammar.Nested

/-!
# What stands behind a keyword

A keyword stands in front of one spec, or of several in parentheses, each on lines of its own. Where the
text of a spec ends by itself and the spec is found behind its keyword, it is read from its text whatever
stands behind the end of its line, and so it is one more line of the specs in parentheses.
-/

namespace GoTrace.Parser

/-- What has been found in a part with nothing behind it is read in the part whatever stands behind it. -/
theorem Finds.reads_append {α : Type} [Placed α] {p : Parser α} {mode : Mode} {text : List Char}
    {start : Mark} {value : α} {next : Cursor} {whole left : List Char → Prop}
    (h : Finds p mode ⟨text, start⟩ value next) (hlocal : Local anyText text.length whole left p p)
    (htext : whole text) :
    left next.rest ∧ ∀ more, Reads p mode (text ++ more) (next.rest ++ more) (Like value) := by
  have hsame (more : List Char) (start' : Mark) : left next.rest ∧ ∃ found,
      (p mode ⟨text ++ more, start'⟩).found = some found ∧ found.next.rest = next.rest ++ more ∧
        found.fault = none ∧ Like value found.value := by
    have hrel := hlocal text htext (Nat.le_refl _) [] more trivial trivial mode start start'
    rw [List.append_nil, h] at hrel
    generalize (p mode ⟨text ++ more, start'⟩).found = other at hrel ⊢
    cases hrel with
    | some hparted =>
        obtain ⟨rest, hleft, -, hrest, hrest'⟩ := hparted.rest
        rw [List.append_nil] at hrest
        refine ⟨by rwa [hrest], _, rfl, by rw [hrest', hrest], ?_, hparted.value.symm⟩
        simpa using hparted.fault.symm
  exact ⟨(hsame [] start).1, fun more start' => (hsame more start').2⟩

end GoTrace.Parser

namespace GoTrace.Grammar

open GoTrace.Lexeme GoTrace.Parser

/-! ## The end of a spec -/

def AtLineEnd (text : List Char) : Prop :=
  ∀ c rest, skipBlanks text = c :: rest → (c = ';' || isLineEnd c) = true

theorem atLineEnd_of_behindBreaks {text : List Char} (h : behindBreaks text = []) : AtLineEnd text := by
  intro c rest hskip
  cases hc : (c = ';' || isLineEnd c : Bool) with
  | true => rfl
  | false =>
      rw [behindBreaks_of_cons hskip, hc] at h
      cases h

theorem AtLineEnd.of_blanks {text : List Char} (h : AtLineEnd (skipBlanks text)) : AtLineEnd text := by
  intro c rest hskip
  exact h c rest (by rw [skipBlanks_skipBlanks, hskip])

section

variable {α : Type} {spec : Parser α} {accept : α → Prop} {accepts : List (α → Prop)}
  {text rest last : List Char}

theorem atLineEnd_of_rounds (h : Rounds (do gap; onNewLine spec) .spaced text accepts last)
    (hlast : AtLineEnd last) : AtLineEnd text := by
  cases h with
  | stop => exact hlast
  | step hfirst =>
      obtain ⟨c, rest, hskip, hc⟩ | ⟨hrefuses, -⟩ := behindBreaks_cases text
      · intro d tail hd
        rw [hskip] at hd
        obtain ⟨rfl, rfl⟩ := List.cons.inj hd
        exact hc
      · obtain ⟨_, _, hfound, -⟩ := hfirst.finds default
        have hnone : Refuses (do gap; onNewLine spec) .spaced text :=
          Refuses.bind (reads_gap text) fun _ _ => (hrefuses .spaced).bind_left.bind_left
        rw [Finds, hnone default] at hfound
        cases hfound

theorem EndsLine.exists_finds (h : EndsLine text rest)
    (hspec : Reads (do gap; onNewLine spec) .spaced text last accept) :
    ∃ start value next, Finds spec .spaced ⟨behindBreaks rest, start⟩ value next ∧ next.rest = last ∧
      accept value := by
  obtain ⟨c, tail, hskip, hc⟩ := h.exists_break
  obtain ⟨middle, hseparator, hmiddle⟩ := exists_reads_separator hc tail
  rw [← hskip] at hseparator
  rw [← hskip, behindBreaks_skipBlanks, h.first] at hmiddle
  obtain ⟨value, next, hfound, hnext, hvalue⟩ := hspec.finds default
  obtain ⟨_, ⟨first, start⟩, hgap, hfound⟩ := hfound.of_bind
  obtain ⟨rfl, -⟩ := hgap.of_reads (reads_gap text)
  obtain ⟨_, ⟨first, start⟩, hbreaks, hfound⟩ := hfound.of_bind
  obtain ⟨rfl, -⟩ := hbreaks.of_reads hseparator
  obtain ⟨_, ⟨first, start⟩, hgap, hfound⟩ := hfound.of_bind
  obtain ⟨rfl, -⟩ := hgap.of_reads (reads_gap _)
  exact ⟨start, value, next, by rwa [← hmiddle], hnext, hvalue⟩

end

def startsSpec (c : Char) : Bool :=
  isSolid c && !([';', '\n', '\r', '('].contains c)

theorem lineStart_of_startsSpec {c : Char} (h : startsSpec c = true) (rest : List Char) :
    LineStart (c :: rest) := by
  simp only [startsSpec, Bool.and_eq_true, Bool.not_eq_true', List.contains_eq_mem, List.mem_cons,
    List.not_mem_nil, or_false, decide_eq_false_iff_not, not_or] at h
  exact lineStart_cons h.1 (by simp [h.2]) rest

/-- The text of a spec up to the end of its line, at which it starts and ends by itself. -/
structure SpecText (zone : Zone) (text : List Char) : Prop where
  starts : ∃ c rest, text = c :: rest ∧ startsSpec c = true
  nested : Nested zone [] (text ++ ['\n'])

theorem SpecText.lineStart {zone : Zone} {text : List Char} (h : SpecText zone text) (more : List Char) :
    LineStart (text ++ more) := by
  obtain ⟨c, rest, rfl, hc⟩ := h.starts
  exact lineStart_of_startsSpec hc _

theorem SpecText.head?_ne {zone : Zone} {text : List Char} (h : SpecText zone text) (more : List Char) :
    (text ++ more).head? ≠ some '(' := by
  obtain ⟨c, rest, rfl, hc⟩ := h.starts
  refine Grammar.head?_ne rfl ?_
  rintro rfl
  exact absurd hc (by decide)

/-- Where a line ends outside of all brackets, the first word behind it is that of what is appended. -/
theorem Nested.endsLine {zone : Zone} {text : List Char} (h : Nested zone [] text)
    (hend : AtLineEnd text) (more : List Char) : EndsLine (text ++ more) more := by
  obtain ⟨front, rest, rfl, hrest, hblanks⟩ := h.exists_blanks
  have hskip (more : List Char) : skipBlanks (front ++ rest ++ more) = rest ++ more := by
    rw [skipBlanks, hblanks, List.append_assoc, List.drop_left]
  obtain ⟨c, tail, rfl⟩ := hrest.exists_cons
  have hc : (c = ';' || isLineEnd c) = true := by
    have hnone := hskip []
    rw [List.append_nil, List.append_nil] at hnone
    exact hend c tail hnone
  refine ⟨⟨c, tail ++ more, hskip more, hc⟩, ?_⟩
  rw [behindBreaks_of_cons (hskip more), if_pos hc]
  exact hrest.of_break hc more

/-- A spec that has been found in front of the end of the text is read in front of any other text. -/
theorem SpecText.line {α : Type} [Placed α] {spec : Parser α} {zone left : Zone}
    (hlocal : ∀ size, Local anyText size (Nested zone []) (Nested left []) spec spec) {text : List Char}
    (htext : SpecText zone text) {start : Mark} {value : α} {next : Cursor}
    (hfound : Finds spec .spaced ⟨text ++ ['\n'], start⟩ value next) (hnext : AtLineEnd next.rest) :
    Line spec (text ++ ['\n']) (Like value) := by
  obtain ⟨hleft, hreads⟩ := hfound.reads_append (hlocal _) htext.nested
  intro more
  refine ⟨next.rest ++ more, ?_, hleft.endsLine hnext more⟩
  have hfirst := (htext.lineStart (['\n'] ++ more)).behindBreaks_eq
  rw [← List.append_assoc] at hfirst
  rw [hfirst]
  exact hreads more

/-! ## Behind a keyword -/

section

variable {α β : Type} [Placed α] [Placed β] {declRule wordRule : Rule} {word : String} {spec : Parser α}
  {decl : Parser (List β)} {wrap : α → β} {zone left : Zone}

/-- What is declared behind a keyword: `wrap` of one spec, or of several in parentheses. -/
structure Groups (declRule wordRule : Rule) (word : String) (spec : Parser α) (decl : Parser (List β))
    (wrap : α → β) (zone left : Zone) : Prop where
  isWord : word.toList.all isIdentChar = true
  exists_cons : ∃ c rest, word.toList = c :: rest ∧ startsSpec c = true
  bare_wrap : ∀ value, bare (wrap value) = wrap (bare value)
  reads : ∀ {text rest accept},
    Reads (specs declRule wordRule word spec) .spaced (word.toList ++ ' ' :: text) rest accept →
      Reads decl .spaced (word.toList ++ ' ' :: text) rest
        fun values => ∃ specs, values = specs.map wrap ∧ accept specs
  finds : ∀ {text start values next},
    Finds decl .spaced ⟨word.toList ++ ' ' :: text, start⟩ values next →
      ∃ specs, values = specs.map wrap ∧
        Finds (Grammar.specs declRule wordRule word spec) .spaced ⟨word.toList ++ ' ' :: text, start⟩ specs
          next
  refuses_close : ∀ rest, Refuses spec .spaced (')' :: rest)
  isLocal : ∀ size, Local anyText size (Nested zone []) (Nested left []) spec spec

omit [Placed α] in
theorem finds_specs_one {text : List Char} {start : Mark} {values : List α} {next : Cursor}
    (hword : word.toList.all isIdentChar = true) (htext : skipBlanks text = text)
    (hparen : text.head? ≠ some '(')
    (h : Finds (specs declRule wordRule word spec) .spaced ⟨word.toList ++ ' ' :: text, start⟩ values
      next) :
    ∃ start value, values = [value] ∧ Finds spec .spaced ⟨text, start⟩ value next := by
  have hgap := reads_gap (' ' :: text)
  rw [skipBlanks_space, htext] at hgap
  have hblock : Refuses (block "(" ")" spec) .spaced text := (refuses_mark rfl hparen).bind_left
  obtain ⟨_, ⟨behind, start⟩, hkeyword, hbehind⟩ := h.of_rule.of_bind
  obtain ⟨rfl, -⟩ := hkeyword.of_reads (reads_word text hword)
  obtain ⟨_, ⟨first, start⟩, hblanks, hfirst⟩ := hbehind.of_bind
  obtain ⟨rfl, -⟩ := hblanks.of_reads hgap
  obtain ⟨value, last, hspec, hlast⟩ := (hfirst.of_orElse_right hblock).of_bind
  obtain ⟨rfl, rfl⟩ := hlast.of_pure
  exact ⟨start, value, rfl, hspec⟩

namespace Groups

variable (h : Groups declRule wordRule word spec decl wrap zone left)

include h

theorem lineStart (text : List Char) : LineStart (word.toList ++ text) := by
  obtain ⟨c, rest, hword, hc⟩ := h.exists_cons
  rw [hword]
  exact lineStart_of_startsSpec hc _

theorem single {text : List Char} (htext : SpecText zone text) {value : α}
    (hline : Line spec (text ++ ['\n']) (Like value)) :
    Line decl (word.toList ++ ' ' :: (text ++ ['\n'])) (Like [wrap value]) := by
  intro more
  obtain ⟨rest, hspec, hrest⟩ := hline more
  refine ⟨rest, ?_, hrest⟩
  rw [List.append_assoc, (htext.lineStart _).behindBreaks_eq] at hspec
  rw [List.append_assoc, List.cons_append, (h.lineStart _).behindBreaks_eq, List.append_assoc]
  have hdecl := h.reads (reads_specs_one h.isWord hspec (htext.lineStart _).solid (htext.head?_ne _))
  refine hdecl.weaken fun values hvalues => ?_
  obtain ⟨_, rfl, found, rfl, hfound⟩ := hvalues
  exact bare_map_congr wrap h.bare_wrap (bare_cons_congr hfound rfl)

theorem block [Advances spec] {lines : List (List Char)} {values : List α} (hne : lines ≠ [])
    (hlines : List.Forall₂ (Line spec) lines (values.map Like)) :
    Line decl (word.toList ++ ' ' :: '(' :: '\n' :: (lines.flatten ++ [')', '\n']))
      (Like (values.map wrap)) := by
  intro more
  have hdecl := h.reads (reads_specs_block h.isWord hlines hne ('\n' :: more) (h.refuses_close _))
  refine ⟨'\n' :: more, ?_, endsLine_newline more⟩
  rw [List.append_assoc, (h.lineStart _).behindBreaks_eq]
  simp only [List.cons_append, List.append_assoc, List.nil_append]
  refine hdecl.weaken fun found hfound => ?_
  obtain ⟨specs, rfl, hspecs⟩ := hfound
  exact bare_map_congr wrap h.bare_wrap (bare_of_meets hspecs)

/-- What is found behind the keyword is one spec, which is read in front of any other text. -/
theorem exists_line {text : List Char} (htext : SpecText zone text) {start : Mark} {values : List β}
    {next : Cursor}
    (hfound : Finds decl .spaced ⟨word.toList ++ ' ' :: (text ++ ['\n']), start⟩ values next)
    (hnext : AtLineEnd next.rest) :
    ∃ value, values = [wrap value] ∧ Line spec (text ++ ['\n']) (Like value) := by
  obtain ⟨specs, rfl, hspecs⟩ := h.finds hfound
  obtain ⟨start, value, rfl, hspec⟩ :=
    finds_specs_one h.isWord (htext.lineStart _).solid (htext.head?_ne _) hspecs
  exact ⟨value, rfl, htext.line h.isLocal hspec hnext⟩

end Groups

end

/-! ## The four keywords -/

theorem refuses_typeSpec {text : List Char} (h : identifier? text = none) :
    Refuses typeSpec .spaced text :=
  (refuses_identifier h).bind_left.rule.spanned.bind_left

theorem refuses_constSpec {text : List Char} (h : identifier? text = none) :
    Refuses constSpec .spaced text :=
  (refuses_identifier h).bind_left.rule.bind_left.rule.spanned.bind_left

theorem groups_imports :
    Groups .importDecl .importWord "import" importSpec importDecl id .free .free where
  isWord := by decide
  exists_cons := ⟨'i', _, rfl, by decide⟩
  bare_wrap _ := rfl
  reads h := h.weaken fun values hvalues => ⟨values, by rw [List.map_id], hvalues⟩
  finds h := ⟨_, by rw [List.map_id], h⟩
  refuses_close := refuses_importSpec_close
  isLocal _ := nested.importSpec_local

theorem groups_topLevel {α : Type} [Placed α] {declRule wordRule : Rule} {word : String} {spec : Parser α}
    {wrap : α → Declaration} {zone left : Zone} (isWord : word.toList.all isIdentChar = true)
    (exists_cons : ∃ c rest, word.toList = c :: rest ∧ startsSpec c = true)
    (bare_wrap : ∀ value, bare (wrap value) = wrap (bare value))
    (hfound : ∀ {text}, wordAhead text = word.toList → ∀ start, (topLevelDecl .spaced ⟨text, start⟩).found =
      (keywordDecl declRule wordRule word spec wrap .spaced ⟨text, start⟩).found)
    (refuses_close : ∀ rest, Refuses spec .spaced (')' :: rest))
    (isLocal : ∀ size, Local anyText size (Nested zone []) (Nested left []) spec spec) :
    Groups declRule wordRule word spec topLevelDecl wrap zone left where
  isWord := isWord
  exists_cons := exists_cons
  bare_wrap := bare_wrap
  reads := reads_topLevelDecl isWord hfound
  finds := finds_topLevelDecl isWord hfound
  refuses_close := refuses_close
  isLocal := isLocal

theorem groups_types :
    Groups .typeDecl .typeWord "type" typeSpec topLevelDecl Declaration.type .typed .typed :=
  groups_topLevel (by decide) ⟨'t', _, rfl, by decide⟩ (fun _ => rfl) found_topLevelDecl_type
    (fun _ => refuses_typeSpec (identifier?_cons (by decide) _)) fun _ => nested.typeSpec_local

theorem groups_constants :
    Groups .constDecl .constWord "const" constSpec topLevelDecl Declaration.const .constant .free :=
  groups_topLevel (by decide) ⟨'c', _, rfl, by decide⟩ (fun _ => rfl) found_topLevelDecl_const
    (fun _ => refuses_constSpec (identifier?_cons (by decide) _)) fun _ => nested.constSpec_local

theorem groups_variables :
    Groups .varDecl .varWord "var" varSpec topLevelDecl Declaration.var .free .free :=
  groups_topLevel (by decide) ⟨'v', _, rfl, by decide⟩ (fun _ => rfl) found_topLevelDecl_var
    refuses_varSpec_close fun _ => nested.varSpec_local

end GoTrace.Grammar
