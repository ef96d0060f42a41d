import GoTrace.Module.Definition
import GoTrace.Proofs.Literal.Escapes
import GoTrace.Proofs.Text.Cut

/-!
# The layout of module files

A module file may be laid out in many ways: tokens bare or in quotes, directives on lines of their own
or in blocks, indented or not, with empty lines and comments between them. Here the layouts are said
without reading them, and every one of them is read as the directives it lays out, in their order.
-/

namespace GoTrace.GoModule

open Text

variable {said line text gap : List Char}

/-! ## Tokens -/

/-- A text that a token can stand for: it is not empty, and holds no white space, quotes, backslashes,
comment marks or arrows. -/
structure IsToken (text : List Char) : Prop where
  ne_nil : text ≠ []
  unbroken : Unbroken text
  no_quotes : '"' ∉ text ∧ '\x60' ∉ text
  no_backslash : '\\' ∉ text
  no_slashes : ¬ ['/', '/'] <:+: text
  no_arrow : ¬ ['=', '>'] <:+: text

instance (text : List Char) : Decidable (IsToken text) :=
  decidable_of_iff
    (text ≠ [] ∧ Unbroken text ∧ ('"' ∉ text ∧ '\x60' ∉ text) ∧ '\\' ∉ text ∧
      cutAt? ['/', '/'] text = none ∧ cutAt? ['=', '>'] text = none)
    (by
      rw [cutAt?_eq_none_iff (by decide), cutAt?_eq_none_iff (by decide)]
      exact ⟨fun ⟨hne, hunbroken, hquotes, hbackslash, hslashes, harrow⟩ =>
          ⟨hne, hunbroken, hquotes, hbackslash, hslashes, harrow⟩,
        fun h => ⟨h.ne_nil, h.unbroken, h.no_quotes, h.no_backslash, h.no_slashes, h.no_arrow⟩⟩)

/-- How a line may write a token: bare, between double quotes or between backquotes. -/
inductive Spelled (text : List Char) : List Char → Prop
  | bare : Spelled text text
  | quoted : Spelled text ('"' :: (text ++ ['"']))
  | raw : Spelled text ('\x60' :: (text ++ ['\x60']))

/-- Tokens on a line, with white space between them, and what they stand for. -/
inductive Tokens : List String → List Char → Prop
  | last {text spelled : List Char} :
      IsToken text → Spelled text spelled → Tokens [String.ofList text] spelled
  | cons {text spelled gap rest : List Char} {values : List String} :
      IsToken text → Spelled text spelled → Blank gap → gap ≠ [] → Tokens values rest →
        Tokens (String.ofList text :: values) (spelled ++ gap ++ rest)

/-! ## Directives and lines -/

namespace Directive

def verb : Directive → List Char
  | requires _ => "require".toList
  | replaces _ => "replace".toList

def verbs : List (List Char) :=
  ["require".toList, "replace".toList]

theorem verb_mem (directive : Directive) : directive.verb ∈ verbs := by
  cases directive
  · exact List.mem_cons_self
  · exact List.mem_cons_of_mem _ List.mem_cons_self

/-- No directive begins like a module line, and no verb holds white space or a slash. -/
theorem plain_of_mem_verbs : ∀ verb ∈ verbs, verb ≠ [] ∧ verb ≠ "module".toList ∧ Unbroken verb ∧
    '/' ∉ verb := by
  decide

/-- What is required, if the directive requires a module. -/
def requirement? : Directive → Option Requirement
  | requires requirement => some requirement
  | replaces _ => none

/-- What is replaced, if the directive replaces a module. -/
def replacement? : Directive → Option Replacement
  | requires _ => none
  | replaces replacement => some replacement

end Directive

/-- The tokens that name what takes the place of a module. -/
inductive Names : ReplacementTarget → List String → Prop
  | directory (directory : String) : Names (.directory (.ofText directory)) [directory]
  | module (path version : String) : Names (.module path version) [path, version]

/-- The arguments of a directive as a line may write them. A replaced module may have a version. -/
inductive Written : Directive → List Char → Prop
  | requires {path version : String} {text : List Char} :
      Tokens [path, version] text → Written (.requires ⟨path, version⟩) text
  | replaces {path : String} {version : Option String} {target : ReplacementTarget}
      {values : List String} {left front back right : List Char} :
      Tokens (path :: version.toList) left → Blank front → Blank back → Tokens values right →
        Names target values →
        Written (.replaces ⟨path, target⟩) (left ++ front ++ ['=', '>'] ++ (back ++ right))

/-- The lines that say `said`: indented or not, and with a comment behind it or not. A comment begins at
the first two slashes of its line: a slash right in front of it would be its first. -/
inductive Line (said : List Char) : List Char → Prop
  | plain {front back : List Char} :
      Blank front → Blank back → Line said (front ++ said ++ back)
  | commented {front back comment : List Char} :
      Blank front → Blank back → (back = [] → said.getLast? ≠ some '/') → '\n' ∉ comment →
        Line said (front ++ said ++ back ++ '/' :: '/' :: comment)

/-- The lines between those that open and close a block of directives with one verb. -/
inductive Inside (verb : List Char) : List Directive → List (List Char) → Prop
  | nil : Inside verb [] []
  | empty {line : List Char} {directives : List Directive} {lines : List (List Char)} :
      Line [] line → Inside verb directives lines → Inside verb directives (line :: lines)
  | cons {directive : Directive} {arguments line : List Char} {directives : List Directive}
      {lines : List (List Char)} :
      directive.verb = verb → Written directive arguments → Line arguments line →
        Inside verb directives lines → Inside verb (directive :: directives) (line :: lines)

/-- Lines that lay out directives. -/
inductive Layout : List Directive → List (List Char) → Prop
  | nil : Layout [] []
  | empty {line : List Char} {directives : List Directive} {lines : List (List Char)} :
      Line [] line → Layout directives lines → Layout directives (line :: lines)
  | single {directive : Directive} {gap arguments line : List Char} {directives : List Directive}
      {lines : List (List Char)} :
      Written directive arguments → Blank gap → gap ≠ [] →
        Line (directive.verb ++ gap ++ arguments) line →
        Layout directives lines → Layout (directive :: directives) (line :: lines)
  | block {verb gap opening closing : List Char} {grouped directives : List Directive}
      {inside lines : List (List Char)} :
      verb ∈ Directive.verbs → Blank gap → gap ≠ [] →
        Line (verb ++ gap ++ ['(']) opening → Inside verb grouped inside → Line [')'] closing →
        Layout directives lines →
        Layout (grouped ++ directives) (opening :: (inside ++ closing :: lines))

/-- The text of a module file names the module and then lays out directives. -/
def LaidOut (path : String) (directives : List Directive) (text : List Char) : Prop :=
  ∃ (before lines : List (List Char)) (gap spelled line : List Char),
    (∀ other ∈ before, Line [] other) ∧ Tokens [path] spelled ∧ Blank gap ∧ gap ≠ [] ∧
      Line ("module".toList ++ gap ++ spelled) line ∧ Layout directives lines ∧
      text = ['\n'].intercalate (before ++ line :: lines)

/-! ## Reading tokens -/

theorem inside?_of_notMem {mark : Char} (h : mark ∉ text) : Literal.inside? mark text = none := by
  cases text with
  | nil => rfl
  | cons c rest =>
      rw [Literal.inside?, if_neg]
      rintro rfl
      exact h List.mem_cons_self

theorem spells_of_notMem (h : '\\' ∉ text) :
    Literal.Spells text (text.flatMap String.utf8EncodeChar) := by
  induction text with
  | nil => exact .nil
  | cons c rest ih =>
      rw [List.mem_cons, not_or] at h
      exact .plain (Ne.symm h.1) (ih h.2)

namespace Spelled

variable {spelled : List Char}

theorem token_eq (h : Spelled text spelled) (htoken : IsToken text) :
    token spelled = String.ofList text := by
  cases h with
  | bare =>
      rw [token, Literal.unquote?, inside?_of_notMem htoken.no_quotes.1,
        inside?_of_notMem htoken.no_quotes.2]
      rfl
  | quoted =>
      have hspells := spells_of_notMem htoken.no_backslash
      rw [token, Literal.unquote?_interpreted,
        (Literal.unescape?_eq_some_iff (Nat.le_refl _)).mpr hspells,
        Option.bind_some, Literal.fromUTF8?_flatMap]
      rfl
  | raw =>
      have hfilter : text.filter (· ≠ '\r') = text := by
        rw [List.filter_eq_self]
        intro c hc
        rw [decide_eq_true_eq]
        rintro rfl
        exact absurd (htoken.unbroken '\r' hc) (by decide)
      rw [token, Literal.unquote?_raw, hfilter]
      rfl

theorem ne_nil (h : Spelled text spelled) (htoken : IsToken text) : spelled ≠ [] := by
  cases h with
  | bare => exact htoken.ne_nil
  | quoted => nofun
  | raw => nofun

theorem unbroken (h : Spelled text spelled) (htoken : IsToken text) : Unbroken spelled := by
  have hquoted {mark : Char} (hmark : isBlank mark = false) :
      Unbroken (mark :: (text ++ [mark])) :=
    List.forall_mem_cons.mpr ⟨hmark,
      List.forall_mem_append.mpr ⟨htoken.unbroken, List.forall_mem_singleton.mpr hmark⟩⟩
  cases h with
  | bare => exact htoken.unbroken
  | quoted => exact hquoted (by decide)
  | raw => exact hquoted (by decide)

/-- A mark of two characters that stands in no token stands in none that is quoted. -/
theorem avoids (h : Spelled text spelled) {a b : Char} (ha : a ∉ ['"', '\x60'])
    (hb : b ∉ ['"', '\x60']) (htext : ¬ [a, b] <:+: text) : ¬ [a, b] <:+: spelled := by
  have hquoted {mark : Char} (hmark : mark ∈ ['"', '\x60']) :
      ¬ [a, b] <:+: [mark] ++ (text ++ [mark]) := by
    have hne : ∀ {c}, c ∉ ['"', '\x60'] → mark ≠ c := by
      rintro c hc rfl
      exact hc hmark
    have hsingle : ¬ [a, b] <:+: [mark] := not_infix_of_notMem (by simpa using (hne ha).symm)
    refine not_infix_append hsingle ?_ (.inl (by simpa using hne ha))
    exact not_infix_append htext hsingle (.inr (by simpa using hne hb))
  cases h with
  | bare => exact htext
  | quoted => exact hquoted (by decide)
  | raw => exact hquoted (by decide)

end Spelled

namespace Tokens

variable {values : List String}

theorem tokens_eq (h : Tokens values text) {front back : List Char} (hfront : Blank front)
    (hback : Blank back) : tokens (front ++ (text ++ back)) = values := by
  rw [tokens, words_blanks_append hfront.isBlank]
  induction h with
  | @last text spelled htoken hspelled =>
      rw [words_append_blanks (hspelled.ne_nil htoken) (hspelled.unbroken htoken) hback.isBlank,
        List.map_singleton, hspelled.token_eq htoken]
  | @cons text spelled gap rest values htoken hspelled hgap hne _ ih =>
      obtain ⟨c, gap, rfl⟩ := List.exists_cons_of_ne_nil hne
      obtain ⟨hc, hgap⟩ := List.forall_mem_cons.mp hgap.isBlank
      have htext : spelled ++ c :: gap ++ rest ++ back = spelled ++ c :: (gap ++ (rest ++ back)) := by
        simp
      rw [htext, words_append_cons (hspelled.ne_nil htoken) (hspelled.unbroken htoken) hc,
        words_blanks_append hgap, List.map_cons, hspelled.token_eq htoken, ih]

theorem ends (h : Tokens values text) : text ≠ [] ∧ IsTrimmed text ∧ '\n' ∉ text := by
  induction h with
  | last htoken hspelled =>
      refine ⟨hspelled.ne_nil htoken, (hspelled.unbroken htoken).isTrimmed, fun hend => ?_⟩
      exact absurd (hspelled.unbroken htoken _ hend) (by decide)
  | @cons text spelled gap rest values htoken hspelled hgap _ _ ih =>
      obtain ⟨hne, htrimmed, hend⟩ := ih
      have hspelledNe := hspelled.ne_nil htoken
      have hplain := hspelled.unbroken htoken
      refine ⟨by simp [hne], hplain.isTrimmed.between hspelledNe htrimmed hne gap, ?_⟩
      simp only [List.mem_append, not_or]
      exact ⟨⟨fun hmem => absurd (hplain _ hmem) (by decide), hgap.no_lineFeed⟩, hend⟩

theorem avoids (h : Tokens values text) {a b : Char} (ha : a ∉ ['"', '\x60'])
    (hb : b ∉ ['"', '\x60']) (hblank : Text.isBlank a = false) (hblank' : Text.isBlank b = false)
    (htokens : ∀ text, IsToken text → ¬ [a, b] <:+: text) : ¬ [a, b] <:+: text := by
  induction h with
  | last htoken hspelled => exact hspelled.avoids ha hb (htokens _ htoken)
  | @cons text spelled gap rest values htoken hspelled hgap hne _ ih =>
      have hspelledNot := hspelled.avoids ha hb (htokens _ htoken)
      have hlast : (spelled ++ gap).getLast? ≠ some a :=
        getLast?_append_ne (getLast?_ne_of_notMem (hgap.notMem hblank)) fun hnil => absurd hnil hne
      exact not_infix_append (not_infix_append_blank hspelledNot hgap hblank hblank') ih (.inl hlast)

end Tokens

/-! ## Reading lines -/

/-- What a line can say: no white space stands at its ends, and no comment and no line end in it. -/
structure Sayable (said : List Char) : Prop where
  trimmed : IsTrimmed said
  no_slashes : ¬ ['/', '/'] <:+: said
  no_lineFeed : '\n' ∉ said

theorem Tokens.sayable {values : List String} (h : Tokens values text) : Sayable text where
  trimmed := h.ends.2.1
  no_slashes := h.avoids (by decide) (by decide) (by decide) (by decide) fun _ htoken => htoken.no_slashes
  no_lineFeed := h.ends.2.2

theorem Sayable.behind (h : Sayable said) (hne : said ≠ []) {word : List Char} (hword : word ≠ [])
    (hunbroken : Unbroken word) (hslash : '/' ∉ word) (hgap : Blank gap) :
    Sayable (word ++ gap ++ said) where
  trimmed := hunbroken.isTrimmed.between hword h.trimmed hne gap
  no_slashes := by
    have hslash : '/' ∉ word ++ gap := by
      rw [List.mem_append, not_or]
      exact ⟨hslash, hgap.notMem (by decide)⟩
    refine not_infix_append (not_infix_of_notMem hslash) h.no_slashes (.inl fun hlast => ?_)
    exact hslash (List.mem_of_mem_getLast? hlast)
  no_lineFeed := by
    simp only [List.mem_append, not_or]
    exact ⟨⟨fun hmem => absurd (hunbroken _ hmem) (by decide), hgap.no_lineFeed⟩, h.no_lineFeed⟩

theorem Sayable.behind_verb (h : Sayable said) (hne : said ≠ []) {verb : List Char}
    (hverb : verb ∈ Directive.verbs) (hgap : Blank gap) : Sayable (verb ++ gap ++ said) := by
  obtain ⟨hverbNe, -, hunbroken, hslash⟩ := Directive.plain_of_mem_verbs verb hverb
  exact h.behind hne hverbNe hunbroken hslash hgap

theorem sayable_opening : Sayable ['('] :=
  ⟨by decide, not_infix_of_notMem (by decide), by decide⟩

theorem sayable_closing : Sayable [')'] :=
  ⟨by decide, not_infix_of_notMem (by decide), by decide⟩

/-- What a line says is read without the white space and the comment around it. -/
theorem Line.content_eq (h : Line said line) (hsaid : Sayable said) : content line = said := by
  have hslashes {front back : List Char} (hfront : Blank front) (hback : Blank back) :
      ¬ ['/', '/'] <:+: front ++ said ++ back :=
    not_infix_append_blank (not_infix_blank_append hsaid.no_slashes hfront (by decide)) hback
      (by decide) (by decide)
  have htrim {front back : List Char} (hfront : Blank front) (hback : Blank back) :
      trim (front ++ said ++ back) = said := by
    rw [trim_append_blanks hback.isBlank, trim_blanks_append hfront.isBlank, hsaid.trimmed.trim_eq]
  cases h with
  | plain hfront hback =>
      rw [content, show "//".toList = ['/', '/'] from rfl,
        (cutAt?_eq_none_iff (by decide)).mpr (hslashes hfront hback)]
      exact htrim hfront hback
  | @commented front back comment hfront hback hslash _ =>
      have hlast : (front ++ said ++ back).getLast? ≠ some '/' :=
        getLast?_append_ne (getLast?_ne_of_notMem (hback.notMem (by decide))) fun hnil =>
          getLast?_append_ne (hslash hnil) fun _ => getLast?_ne_of_notMem (hfront.notMem (by decide))
      have hbefore : ¬ ['/'] ++ ['/'] <:+: front ++ said ++ back ++ ['/'] :=
        not_infix_append (hslashes hfront hback) (by decide) (.inl hlast)
      have hcut := cutAt?_append hbefore comment
      simp only [List.cons_append, List.nil_append] at hcut
      rw [content, show "//".toList = ['/', '/'] from rfl, hcut]
      exact htrim hfront hback

theorem content_dropReturn (line : List Char) : content (dropReturn line) = content line := by
  unfold dropReturn
  split
  · rename_i hlast
    obtain ⟨before, rfl⟩ := List.getLast?_eq_some_iff.mp hlast
    rw [List.dropLast_concat, content, content, cutAt?_concat (by decide) (by decide)]
    cases cutAt? "//".toList before with
    | none => exact (trim_append_blanks (List.forall_mem_singleton.mpr rfl) before).symm
    | some parts => rfl
  · rfl

/-! ## Reading directives -/

theorem Names.target?_eq {target : ReplacementTarget} {values : List String} (h : Names target values) :
    target? values = some target := by
  cases h <;> rfl

namespace Written

variable {directive : Directive} {arguments : List Char}

theorem sayable (h : Written directive arguments) : arguments ≠ [] ∧ Sayable arguments := by
  cases h with
  | requires h => exact ⟨h.ends.1, h.sayable⟩
  | @replaces path version target values left front back right hleft hfront hback hright _ =>
      have hbefore : ¬ ['/', '/'] <:+: left ++ front ++ ['=', '>'] :=
        not_infix_append
          (not_infix_append_blank hleft.sayable.no_slashes hfront (by decide) (by decide))
          (by decide) (.inr (by decide))
      have hbehind : ¬ ['/', '/'] <:+: back ++ right :=
        not_infix_blank_append hright.sayable.no_slashes hback (by decide)
      refine ⟨by simp, ⟨?_, not_infix_append hbefore hbehind (.inl ?_), ?_⟩⟩
      · have h := hleft.sayable.trimmed.between hleft.ends.1 hright.sayable.trimmed hright.ends.1
          (front ++ ['=', '>'] ++ back)
        simpa using h
      · exact getLast?_append_ne (by decide) nofun
      · simp [hleft.sayable.no_lineFeed, hright.sayable.no_lineFeed, hfront.no_lineFeed,
          hback.no_lineFeed]

theorem read?_eq (h : Written directive arguments) :
    Directive.read? directive.verb arguments = some directive := by
  cases h with
  | requires h =>
      have htokens : tokens ([] ++ (arguments ++ [])) = _ := h.tokens_eq nofun nofun
      rw [List.nil_append, List.append_nil] at htokens
      change Directive.read? "require".toList arguments = _
      rw [Directive.read?, if_pos rfl, htokens]
  | @replaces path version target values left front back right hleft hfront hback hright hnames =>
      have hleftNot : ¬ ['=', '>'] <:+: left :=
        hleft.avoids (by decide) (by decide) (by decide) (by decide) fun _ htoken => htoken.no_arrow
      have harrow : ¬ ['='] ++ ['>'] <:+: left ++ front ++ ['='] :=
        not_infix_append (not_infix_append_blank hleftNot hfront (by decide) (by decide)) (by decide)
          (.inr (by decide))
      have hcut := cutAt?_append harrow (back ++ right)
      have hleftTokens : tokens ([] ++ (left ++ front)) = _ := hleft.tokens_eq nofun hfront
      have hrightTokens : tokens (back ++ (right ++ [])) = _ := hright.tokens_eq hback nofun
      rw [List.nil_append] at hleftTokens
      rw [List.append_nil] at hrightTokens
      have htext : left ++ front ++ ['=', '>'] ++ (back ++ right) =
          left ++ front ++ (['='] ++ '>' :: (back ++ right)) := by
        simp
      change Directive.read? "replace".toList _ = _
      rw [Directive.read?, if_neg (by decide), if_pos rfl, htext,
        show "=>".toList = ['='] ++ ['>'] from rfl, hcut]
      simp only [Option.bind_eq_bind, Option.bind_some, hleftTokens, hrightTokens, List.head?_cons,
        hnames.target?_eq]

/-- The arguments of a directive are no parenthesis that opens or closes a block. -/
theorem ne_parenthesis (h : Written directive arguments) :
    arguments ≠ ['('] ∧ arguments ≠ [')'] := by
  have hnone : ∀ verb ∈ Directive.verbs,
      Directive.read? verb ['('] = none ∧ Directive.read? verb [')'] = none := by
    decide
  obtain ⟨hopening, hclosing⟩ := hnone directive.verb directive.verb_mem
  constructor
  · rintro rfl
    exact nomatch hopening.symm.trans h.read?_eq
  · rintro rfl
    exact nomatch hclosing.symm.trans h.read?_eq

end Written

/-! ## Reading files -/

namespace Draft

variable {path : Option String} {held : List Directive} {word : List Char}
  {lines : List (List Char)}

def readLines (draft : Draft) (lines : List (List Char)) : Draft :=
  ((lines.map content).filter fun line => !line.isEmpty).foldl readLine draft

theorem readLines_of_empty (h : Line [] line) (draft : Draft) :
    draft.readLines (line :: lines) = draft.readLines lines := by
  have hsaid := h.content_eq ⟨⟨nofun, nofun⟩, by decide, nofun⟩
  rw [readLines, List.map_cons, hsaid]
  rfl

theorem readLines_of_said (h : Line said line) (hsaid : Sayable said) (hne : said ≠ [])
    (draft : Draft) : draft.readLines (line :: lines) = (draft.readLine said).readLines lines := by
  rw [readLines, List.map_cons, h.content_eq hsaid, List.filter_cons, if_pos (by simpa using hne)]
  rfl

theorem readLine_word (hword : Unbroken word) (hgap : Blank gap) (hne : gap ≠ [])
    (hsaid : IsTrimmed said) : (⟨path, none, held⟩ : Draft).readLine (word ++ gap ++ said) =
      if word = "module".toList then ⟨some (token said), none, held⟩
      else if said = ['('] then ⟨path, some word, held⟩
      else ⟨path, none, held ++ (Directive.read? word said).toList⟩ := by
  obtain ⟨c, gap, rfl⟩ := List.exists_cons_of_ne_nil hne
  obtain ⟨hc, hgap⟩ := List.forall_mem_cons.mp hgap.isBlank
  have hcut : cutBy? Text.isBlank (word ++ c :: gap ++ said) = some (word, gap ++ said) := by
    rw [List.append_assoc, List.cons_append, cutBy?_append hword hc]
  have htrim : trim (gap ++ said) = said := (trim_blanks_append hgap said).trans hsaid.trim_eq
  simp only [readLine, hcut, Option.getD_some, htrim, add]

theorem readLine_module (hgap : Blank gap) (hne : gap ≠ []) {path : String} {spelled : List Char}
    (h : Tokens [path] spelled) :
    empty.readLine ("module".toList ++ gap ++ spelled) = ⟨some path, none, []⟩ := by
  have htoken : token spelled = path := by
    cases h with
    | last htoken hspelled => exact hspelled.token_eq htoken
    | cons _ _ _ _ hnone => cases hnone
  rw [empty, readLine_word (by decide) hgap hne h.sayable.trimmed, if_pos rfl, htoken]

variable {verb arguments : List Char} {directive : Directive} {directives : List Directive}

theorem readLine_opening (hverb : verb ∈ Directive.verbs) (hgap : Blank gap) (hne : gap ≠ []) :
    (⟨path, none, held⟩ : Draft).readLine (verb ++ gap ++ ['(']) = ⟨path, some verb, held⟩ := by
  obtain ⟨-, hmodule, hunbroken, -⟩ := Directive.plain_of_mem_verbs verb hverb
  rw [readLine_word hunbroken hgap hne (by decide), if_neg hmodule, if_pos rfl]

theorem readLine_single (h : Written directive arguments) (hgap : Blank gap) (hne : gap ≠ []) :
    (⟨path, none, held⟩ : Draft).readLine (directive.verb ++ gap ++ arguments) =
      ⟨path, none, held ++ [directive]⟩ := by
  obtain ⟨-, hmodule, hunbroken, -⟩ := Directive.plain_of_mem_verbs _ directive.verb_mem
  rw [readLine_word hunbroken hgap hne h.sayable.2.trimmed, if_neg hmodule, if_neg h.ne_parenthesis.1,
    h.read?_eq]
  rfl

theorem readLine_inside (h : Written directive arguments) :
    (⟨path, some directive.verb, held⟩ : Draft).readLine arguments =
      ⟨path, some directive.verb, held ++ [directive]⟩ := by
  simp only [readLine, if_neg h.ne_parenthesis.2, h.read?_eq, add, Option.toList_some]

theorem readLines_inside (h : Inside verb directives lines) (behind : List (List Char)) :
    (⟨path, some verb, held⟩ : Draft).readLines (lines ++ behind) =
      (⟨path, some verb, held ++ directives⟩ : Draft).readLines behind := by
  induction h generalizing held with
  | nil => rw [List.append_nil, List.nil_append]
  | empty hline _ ih => rw [List.cons_append, readLines_of_empty hline, ih]
  | cons hverb hwritten hline _ ih =>
      obtain ⟨hne, hsaid⟩ := hwritten.sayable
      subst hverb
      rw [List.cons_append, readLines_of_said hline hsaid hne, readLine_inside hwritten, ih,
        List.append_assoc, List.singleton_append]

theorem readLines_layout (h : Layout directives lines) :
    (⟨path, none, held⟩ : Draft).readLines lines = ⟨path, none, held ++ directives⟩ := by
  induction h generalizing held with
  | nil => rw [List.append_nil]; rfl
  | empty hline _ ih => rw [readLines_of_empty hline, ih]
  | @single directive gap _ _ _ _ hwritten hgap hgapNe hline _ ih =>
      obtain ⟨hne, hsaid⟩ := hwritten.sayable
      rw [readLines_of_said hline (hsaid.behind_verb hne directive.verb_mem hgap) (by simp [hne]),
        readLine_single hwritten hgap hgapNe, ih, List.append_assoc, List.singleton_append]
  | @block verb gap _ _ _ _ _ _ hverb hgap hgapNe hopening hinside hclosing _ ih =>
      rw [readLines_of_said hopening (sayable_opening.behind_verb nofun hverb hgap) (by simp),
        readLine_opening hverb hgap hgapNe, readLines_inside hinside,
        readLines_of_said hclosing sayable_closing nofun]
      exact ih.trans (by rw [List.append_assoc])

end Draft

/-! ## Whole files -/

theorem Line.notMem (h : Line said line) (hsaid : '\n' ∉ said) : '\n' ∉ line := by
  cases h with
  | plain hfront hback => simp [hfront.no_lineFeed, hback.no_lineFeed, hsaid]
  | commented hfront hback _ hcomment =>
      simp [hfront.no_lineFeed, hback.no_lineFeed, hsaid, hcomment]

theorem Inside.notMem {verb : List Char} {directives : List Directive} {lines : List (List Char)}
    (h : Inside verb directives lines) : ∀ line ∈ lines, '\n' ∉ line := by
  induction h with
  | nil => nofun
  | empty hline _ ih => exact List.forall_mem_cons.mpr ⟨hline.notMem nofun, ih⟩
  | cons _ hwritten hline _ ih =>
      exact List.forall_mem_cons.mpr ⟨hline.notMem hwritten.sayable.2.no_lineFeed, ih⟩

theorem Layout.notMem {directives : List Directive} {lines : List (List Char)}
    (h : Layout directives lines) : ∀ line ∈ lines, '\n' ∉ line := by
  induction h with
  | nil => nofun
  | empty hline _ ih => exact List.forall_mem_cons.mpr ⟨hline.notMem nofun, ih⟩
  | @single directive gap _ _ _ _ hwritten hgap _ hline _ ih =>
      obtain ⟨hne, hsaid⟩ := hwritten.sayable
      refine List.forall_mem_cons.mpr ⟨hline.notMem ?_, ih⟩
      exact (hsaid.behind_verb hne directive.verb_mem hgap).no_lineFeed
  | @block verb gap _ _ _ _ _ _ hverb hgap _ hopening hinside hclosing _ ih =>
      have hsaid := sayable_opening.behind_verb nofun hverb hgap
      refine List.forall_mem_cons.mpr ⟨hopening.notMem hsaid.no_lineFeed, ?_⟩
      refine List.forall_mem_append.mpr ⟨hinside.notMem, ?_⟩
      exact List.forall_mem_cons.mpr ⟨hclosing.notMem sayable_closing.no_lineFeed, ih⟩

theorem Draft.readLines_lines (draft : Draft) (text : List Char) :
    draft.readLines (Text.lines text) = draft.readLines (fieldsBy (· = '\n') text) := by
  have hfilter (lines : List (List Char)) : (lines.map content).filter (fun line => !line.isEmpty) =
      lines.filterMap (Option.guard (fun line => !line.isEmpty) ∘ content) := by
    rw [← List.filterMap_map, List.filterMap_eq_filter]
  have hreturn (line : List Char) : (Option.guard (fun line => !line.isEmpty) ∘ content)
      (dropReturn line) = (Option.guard (fun line => !line.isEmpty) ∘ content) line := by
    rw [Function.comp_apply, content_dropReturn, Function.comp_apply]
  rw [readLines, hfilter, filterMap_lines rfl hreturn, ← hfilter, ← readLines]

theorem Draft.readLines_before {before : List (List Char)} (h : ∀ line ∈ before, Line [] line)
    (draft : Draft) (lines : List (List Char)) :
    draft.readLines (before ++ lines) = draft.readLines lines := by
  induction before with
  | nil => rfl
  | cons line before ih =>
      obtain ⟨hline, hbefore⟩ := List.forall_mem_cons.mp h
      rw [List.cons_append, readLines_of_empty hline, ih hbefore]

/-- A module file is read as the module path and the directives that it lays out, in their order,
however they are laid out. -/
theorem parse_of_laidOut {path : String} {directives : List Directive} {text : String} (root : Path)
    (h : LaidOut path directives text.toList) :
    parse root text = some
      { path := path
        root := root
        requires := directives.filterMap Directive.requirement?
        replaces := directives.filterMap Directive.replacement? } := by
  obtain ⟨before, lines, gap, spelled, line, hbefore, hpath, hgap, hne, hline, hlayout, htext⟩ := h
  have hsaid : Sayable ("module".toList ++ gap ++ spelled) :=
    hpath.sayable.behind hpath.ends.1 (by decide) (by decide) (by decide) hgap
  have hplain : ∀ other ∈ before ++ line :: lines, '\n' ∉ other :=
    List.forall_mem_append.mpr ⟨fun other hmem => (hbefore other hmem).notMem nofun,
      List.forall_mem_cons.mpr ⟨hline.notMem hsaid.no_lineFeed, hlayout.notMem⟩⟩
  have hdraft : Draft.empty.readLines (Text.lines text.toList) = ⟨some path, none, directives⟩ := by
    rw [Draft.readLines_lines, htext, fieldsBy_intercalate (by simp) hplain,
      Draft.readLines_before hbefore, Draft.readLines_of_said hline hsaid (by simp),
      Draft.readLine_module hgap hne hpath, Draft.readLines_layout hlayout, List.nil_append]
  rw [Draft.readLines] at hdraft
  rw [parse]
  simp only [hdraft, Option.map_some]
  rfl

theorem parse_of_laidOut_block :
    parse (.ofText "/m")
        "// top\n\nmodule\t\"m\" \nrequire ( // block\n\ta v1 // why\n)\nreplace a v1=>./b" =
      some ⟨"m", .ofText "/m", [⟨"a", "v1"⟩], [⟨"a", .directory (.ofText "./b")⟩]⟩ := by
  have hmodule : Tokens ["m"] ('"' :: (['m'] ++ ['"'])) := .last (by decide) .quoted
  have htokens : Tokens ["a", "v1"] (['a'] ++ [' '] ++ ['v', '1']) :=
    .cons (by decide) .bare (by decide) nofun (.last (by decide) .bare)
  have hreplaces : Written (.replaces ⟨"a", .directory (.ofText "./b")⟩)
      (['a'] ++ [' '] ++ ['v', '1'] ++ [] ++ ['=', '>'] ++ ([] ++ ['.', '/', 'b'])) :=
    @Written.replaces _ (some "v1") _ _ _ _ _ _ htokens nofun nofun (.last (by decide) .bare)
      (.directory "./b")
  have hcomment : Line [] ([] ++ [] ++ [] ++ '/' :: '/' :: " top".toList) :=
    .commented nofun nofun nofun (by decide)
  have hempty : Line [] ([] ++ [] ++ []) := .plain nofun nofun
  have hopening : Line ("require".toList ++ [' '] ++ ['('])
      ([] ++ ("require".toList ++ [' '] ++ ['(']) ++ [' '] ++ '/' :: '/' :: " block".toList) :=
    .commented nofun (by decide) nofun (by decide)
  have hrequires : Line (['a'] ++ [' '] ++ ['v', '1'])
      (['\t'] ++ (['a'] ++ [' '] ++ ['v', '1']) ++ [' '] ++ '/' :: '/' :: " why".toList) :=
    .commented (by decide) (by decide) nofun (by decide)
  have hclosing : Line [')'] ([] ++ [')'] ++ []) := .plain nofun nofun
  have hlast : Layout [_] [_] := @Layout.single _ [' '] _ _ _ _ hreplaces (by decide) nofun
    (@Line.plain _ [] [] nofun nofun) .nil
  have hblock : Layout [_, _] [_, _, _, _] := @Layout.block "require".toList [' '] _ _ _ _ _ _
    (by decide) (by decide) nofun hopening (.cons rfl (.requires htokens) hrequires .nil) hclosing hlast
  have hline : Line ("module".toList ++ ['\t'] ++ ('"' :: (['m'] ++ ['"'])))
      ([] ++ ("module".toList ++ ['\t'] ++ ('"' :: (['m'] ++ ['"']))) ++ [' ']) :=
    .plain nofun (by decide)
  exact parse_of_laidOut _ ⟨_, _, ['\t'], _, _, List.forall_mem_cons.mpr ⟨hcomment,
    List.forall_mem_singleton.mpr hempty⟩, hmodule, by decide, nofun, hline, hblock, rfl⟩

end GoTrace.GoModule
