import GoTrace.Proofs.Grammar.Delimited
import GoTrace.Proofs.Parser.Locality

/-!
# The grammar on a part of a text

Every rule below reads the same of a part of a text whatever stands behind the part, when its words,
marks and literals do. What a rule meets is told by the brackets that are open in front of it: an opening
mark opens one more, a closing mark closes the last, and lines end only where one is open.
-/

namespace GoTrace.Grammar

open GoTrace.Lexeme GoTrace.Parser

/-- What a part of a text stands for. -/
inductive Zone where
  | typed
  | constant
  | free
deriving DecidableEq

def Zone.value : Zone → Zone
  | typed => typed
  | constant => free
  | free => free

/-- The marks of the grammar that neither open nor close a bracket. -/
def signs : List String := ["*", "...", "<-", ",", "~", "|", "."]

def lengthPiece : Parser Unit :=
  bracketed groupInside "(" ")"
  <|> bracketed groupInside "[" "]"
  <|> one fun c => !(c = ']' || isLineEnd c)

instance : Advances lengthPiece := by unfold lengthPiece; infer_instance

/-- Parts of a text in which all words, marks and literals are read the same whatever stands behind
them. A part is known by what it stands for and by the marks of the brackets that are open in front of
it, the last one first. -/
structure Landscape where
  behind : List Char → Prop
  part : Zone → List Char → List Char → Prop
  /-- What the length of an array leaves in a bracket: the part in front of the closing mark, or one in
  front of which no closing mark is read. -/
  stopped : Zone → List Char → List Char → Prop
  part_free : ∀ {zone marks text}, part zone marks text → part .free marks text
  stopped_of_part : ∀ {zone marks text}, part zone ('[' :: marks) text → stopped zone marks text
  blanks : ∀ {size zone marks}, Local behind size (part zone marks) (part zone marks) gap gap
  sign : ∀ {size zone marks word}, word ∈ signs →
    Local behind size (part zone marks) (part zone marks) (mark word) (mark word)
  equals : ∀ {size zone},
    Local behind size (part zone []) (part zone.value []) (mark "=") (mark "=")
  opening : ∀ {size zone marks word first last}, word.toList = [first] → (first, last) ∈ groupMarks →
    Local behind size (part zone marks) (part zone (first :: marks)) (mark word) (mark word)
  closing : ∀ {size zone marks word first last}, word.toList = [last] → (first, last) ∈ groupMarks →
    Local behind size (part zone (first :: marks)) (part zone marks) (mark word) (mark word)
  ident : ∀ {size zone marks},
    Local behind size (part zone marks) (part zone marks) (take identifier?) (take identifier?)
  word : ∀ {size zone marks} (word : String),
    Local behind size (part zone marks) (part zone marks) (take (word? word)) (take (word? word))
  lineEnd : ∀ {size zone first marks},
    Local behind size (part zone (first :: marks)) (part zone (first :: marks)) newline newline
  semicolon : ∀ {size zone first marks},
    Local behind size (part zone (first :: marks)) (part zone (first :: marks)) (literal ";") (literal ";")
  quoted : ∀ {size zone marks},
    Local behind size (part zone marks) (part zone marks) (take (quoted? '"')) (take (quoted? '"'))
  raw : ∀ {size zone marks}, Local behind size (part zone marks) (part zone marks) (take raw?) (take raw?)
  closes : ∀ {size zone marks}, Local behind size (part zone marks) (part zone marks)
    (ahead (one? (· = ']'))) (ahead (one? (· = ']')))
  length : ∀ {size zone marks}, zone ≠ .free → Local behind size (part zone ('[' :: marks))
    (stopped zone marks) (textOf lengthPiece) (textOf lengthPiece)
  stopped_blanks : ∀ {size zone marks},
    Local behind size (stopped zone marks) (stopped zone marks) gap gap
  stopped_closing : ∀ {size zone marks},
    Local behind size (stopped zone marks) (part zone marks) (mark "]") (mark "]")
  piece : ∀ {size stops}, ';' ∈ stops → Local behind size (part .free []) (part .free [])
    (textOf (enclosed <|> plainExcept stops)) (textOf (enclosed <|> plainExcept stops))

namespace Landscape

variable (land : Landscape) {size : Nat} {zone : Zone} {marks : List Char}

/-- Two parsers find the same in parts with one kind of open brackets, and open and close none of
them. -/
abbrev Keeps {α : Type} [Placed α] (size : Nat) (zone : Zone) (marks : List Char) (p q : Parser α) : Prop :=
  Local land.behind size (land.part zone marks) (land.part zone marks) p q

end Landscape

/-! ## What is paid for -/

theorem name_eq_of_bare {ident ident' : Ident} (h : bare ident = bare ident') :
    ident.name = ident'.name :=
  (Ident.mk.inj h).1

theorem mark_spends {word : String} (h : word ≠ "") : Spends (mark word) fun _ => 1 := by
  refine .take fun text count hcount => ?_
  rw [Option.ite_none_right_eq_some] at hcount
  obtain ⟨hstarts, heq⟩ := hcount
  cases heq
  refine ⟨List.length_pos_of_ne_nil fun hnil => h ?_, (List.isPrefixOf_iff_prefix.mp hstarts).length_le⟩
  exact String.toList_eq_nil_iff.mp hnil

theorem keyword_spends {name : Rule} {word : String} (h : word ≠ "") :
    Spends (keyword name word) fun _ => 1 := by
  refine .rule (.take fun text count hcount => ?_)
  rw [word?, Option.ite_none_right_eq_some] at hcount
  obtain ⟨hahead, heq⟩ := hcount
  cases heq
  refine ⟨List.length_pos_of_ne_nil fun hnil => h (String.toList_eq_nil_iff.mp hnil), ?_⟩
  rw [← hahead]
  exact (List.takeWhile_sublist _).length_le

theorem newline_spends : Spends newline fun _ => 1 := by
  refine .take fun text count h => ?_
  unfold newline? at h
  split at h <;> cases h <;> simp

theorem separator_spends : Spends separator fun _ => 1 :=
  .before (.orElse (mark_spends (by decide)) newline_spends)

theorem qualifiedIdent_spends : Spends qualifiedIdent fun _ => 1 := by
  refine .tight (.rule (identifier_spends.bind fun first => .after fun second => ?_))
  cases second <;> exact .pure rfl

namespace Landscape

variable (land : Landscape) {α : Type} [Placed α] {size : Nat} {zone : Zone} {marks : List Char}

/-! ## Words, literals and lists -/

section

variable {whole : List Char → Prop} {p q : Parser α}

theorem repeated_local (hgap : Local land.behind size whole whole gap gap)
    (h : Local land.behind size whole whole p q) (hspends : Spends p fun _ => 1) :
    Local land.behind size whole whole (repeated p) (repeated q) := by
  refine .orElse (h.bind fun value value' heq => ?_) (.pure rfl)
  refine (Local.many (hgap.after fun _ _ => h) (.after fun _ => hspends)).bind fun values values' heqs => ?_
  exact .pure (bare_cons_congr heq heqs)

theorem atLeastOnce_local {p : Parser Unit} (hgap : Local land.behind size whole whole gap gap)
    (h : Local land.behind size whole whole p p) (hspends : Spends p fun _ => 1) :
    Local land.behind size whole whole (atLeastOnce p) (atLeastOnce p) := by
  have hmore : Local land.behind size whole whole (do p; skipMany do gap; p) (do p; skipMany do gap; p) :=
    h.after fun _ _ => .skipMany (hgap.after fun _ _ => h) (.after fun _ => hspends)
  exact h.after fun _ _ => hgap.after fun _ _ => hmore.optional.after fun _ _ => .pure rfl

end

theorem newlines_local {first : Char} : land.Keeps size zone (first :: marks) newlines newlines :=
  land.atLeastOnce_local land.blanks land.lineEnd newline_spends

theorem separator_local {first : Char} : land.Keeps size zone (first :: marks) separator separator :=
  land.atLeastOnce_local land.blanks (.orElse land.semicolon land.lineEnd)
    (.orElse (mark_spends (by decide)) newline_spends)

theorem keyword_local (name : Rule) (word : String) :
    land.Keeps size zone marks (keyword name word) (keyword name word) :=
  .rule (land.word word)

theorem identifier_local : land.Keeps size zone marks identifier identifier :=
  .rule (land.ident.captured.bindText fun _ _ _ => .pure rfl)

theorem identifierList_local : land.Keeps size zone marks identifierList identifierList := by
  refine .rule (land.identifier_local.bind fun first first' heq => land.blanks.after fun _ _ => ?_)
  have hnext : land.Keeps size zone marks (do mark ","; gap; identifier) (do mark ","; gap; identifier) :=
    (land.sign (by decide)).after fun _ _ => land.blanks.after fun _ _ => land.identifier_local
  have hothers := land.repeated_local land.blanks hnext (.before (mark_spends (by decide)))
  exact hothers.bind fun others others' heqs => .pure (bare_cons_congr heq heqs)

theorem qualifiedIdent_local : land.Keeps size zone marks qualifiedIdent qualifiedIdent := by
  refine .tight (.rule (land.identifier_local.bind fun first first' heq => ?_))
  have hsecond : land.Keeps size zone marks (do mark "."; identifier) (do mark "."; identifier) :=
    (land.sign (by decide)).after fun _ _ => land.identifier_local
  refine hsecond.optional.bind fun second second' heqs => ?_
  cases second <;> cases second'
  · exact .pure (by rw [name_eq_of_bare heq])
  · cases heqs
  · cases heqs
  · exact .pure (by rw [name_eq_of_bare heq, name_eq_of_bare (Option.some.inj heqs)])

theorem stringLiteral_local : land.Keeps size zone marks stringLiteral stringLiteral :=
  .tight (.rule (.captured (.orElse (.rule land.quoted) (.rule land.raw))))

theorem stringValue_local : land.Keeps size zone marks stringValue stringValue := by
  refine land.stringLiteral_local.bindText fun text _ _ => ?_
  dsimp only
  cases Literal.unquote? text with
  | none => exact (Local.note _ _).after fun _ _ => .pure rfl
  | some value => exact .pure rfl

theorem block_local {opening closing : String} {first last : Char} (hopening : opening.toList = [first])
    (hclosing : closing.toList = [last]) (hmarks : (first, last) ∈ groupMarks) {p q : Parser α}
    [Advances p] (h : land.Keeps size zone (first :: marks) p q) :
    land.Keeps size zone marks (block opening closing p) (block opening closing q) := by
  have hothers : land.Keeps size zone (first :: marks) (do separator; gap; p) (do separator; gap; q) :=
    land.separator_local.after fun _ _ => land.blanks.after fun _ _ => h
  have hlist : land.Keeps size zone (first :: marks) (do
      let first ← p
      gap
      let others ← repeated do
        separator
        gap
        p
      return first :: others) (do
      let first ← q
      gap
      let others ← repeated do
        separator
        gap
        q
      return first :: others) := by
    refine h.bind fun first first' heq => land.blanks.after fun _ _ => ?_
    exact (land.repeated_local land.blanks hothers (.before separator_spends)).bind
      fun others others' heqs => .pure (bare_cons_congr heq heqs)
  refine (land.opening hopening hmarks).after fun _ _ => land.blanks.after fun _ _ => ?_
  refine land.separator_local.optional.after fun _ _ => land.blanks.after fun _ _ => ?_
  refine hlist.optional.bind fun specs specs' heq => land.blanks.after fun _ _ => ?_
  refine land.separator_local.optional.after fun _ _ => land.blanks.after fun _ _ => ?_
  exact (land.closing hclosing hmarks).after fun _ _ => .pure (bare_getD heq)

theorem listed_local {opening closing : String} {first last : Char} (hopening : opening.toList = [first])
    (hclosing : closing.toList = [last]) (hmarks : (first, last) ∈ groupMarks) {p q : Parser α}
    [Advances p] (h : land.Keeps size zone (first :: marks) p q) :
    land.Keeps size zone marks (listed opening closing p) (listed opening closing q) := by
  have hlines : land.Keeps size zone (first :: marks) (optional newlines) (optional newlines) :=
    land.newlines_local.optional
  have hnext : land.Keeps size zone (first :: marks) (do
      mark ","
      gap
      let _ ← optional newlines
      gap
      p) (do
      mark ","
      gap
      let _ ← optional newlines
      gap
      q) :=
    (land.sign (by decide)).after fun _ _ => land.blanks.after fun _ _ => hlines.after fun _ _ =>
      land.blanks.after fun _ _ => h
  refine (land.opening hopening hmarks).after fun _ _ => land.blanks.after fun _ _ => ?_
  refine hlines.after fun _ _ => land.blanks.after fun _ _ => h.bind fun _ _ heq => ?_
  refine land.blanks.after fun _ _ => ?_
  refine (land.repeated_local land.blanks hnext (.before (mark_spends (by decide)))).bind fun _ _ heqs => ?_
  refine land.blanks.after fun _ _ => (land.sign (by decide)).optional.after fun _ _ => ?_
  refine land.blanks.after fun _ _ => hlines.after fun _ _ => land.blanks.after fun _ _ => ?_
  exact (land.closing hclosing hmarks).after fun _ _ => .pure (bare_cons_congr heq heqs)

/-! ## Types -/

theorem lengthOfText_local {whole : List Char → Prop} (text : List Char) :
    Local land.behind size whole whole (lengthOfText text) (lengthOfText text) := by
  unfold lengthOfText
  dsimp only
  split
  · exact .pure rfl
  · exact .pure rfl
  · exact (Local.note _ _).after fun _ _ => .pure rfl

theorem arrayLength_local (hzone : zone ≠ .free) :
    Local land.behind size (land.part zone ('[' :: marks)) (land.stopped zone marks)
      arrayLength arrayLength := by
  have hstops {α : Type} [Placed α] {p : Parser α} (h : land.Keeps size zone ('[' :: marks) p p) :
      Local land.behind size (land.part zone ('[' :: marks)) (land.stopped zone marks) p p :=
    h.imp (fun _ => id) fun _ => land.stopped_of_part
  refine .rule (.orElse (hstops ?_) (.orElse (hstops ?_) ?_))
  · exact (Local.rule (land.sign (by decide))).after fun _ _ => .pure rfl
  · refine land.qualifiedIdent_local.bind fun value value' heq => land.blanks.after fun _ _ => ?_
    obtain ⟨package, name⟩ := value
    obtain ⟨package', name'⟩ := value'
    obtain ⟨hpackage, hname⟩ := eq_of_bare_pair heq
    rw [bare_optionString, bare_optionString] at hpackage
    rw [bare_string, bare_string] at hname
    exact land.closes.after fun _ _ => .pure (by rw [hpackage, hname])
  · exact (Local.rule (land.length hzone)).bindText fun text _ _ => land.lengthOfText_local text

theorem typeName_local {type type' : Parser TypeExpr} [Advances type]
    (h : ∀ smaller < size, ∀ marks, land.Keeps smaller zone marks type type') :
    land.Keeps size zone marks (typeName type) (typeName type') := by
  refine .rule (land.qualifiedIdent_local.step qualifiedIdent_spends ?_)
  intro smaller hless value value' heq
  refine land.blanks.after fun _ _ => ?_
  obtain ⟨package, name⟩ := value
  obtain ⟨package', name'⟩ := value'
  obtain ⟨hpackage, hname⟩ := eq_of_bare_pair heq
  rw [bare_optionString, bare_optionString] at hpackage
  rw [bare_string, bare_string] at hname
  have hargs : land.Keeps smaller zone marks (listed "[" "]" type) (listed "[" "]" type') :=
    land.listed_local rfl rfl (by decide) (h smaller hless _)
  refine hargs.rule.optional.bind fun args args' hargs => .pure ?_
  rw [bare_typeName, bare_typeName, hpackage, hname, bare_getD hargs]

section

variable {type type' : Parser TypeExpr} (h : ∀ marks, land.Keeps size zone marks type type')

include h

omit h in
theorem variadicMark_local : land.Keeps size zone marks variadicMark variadicMark :=
  (Local.rule (land.sign (by decide))).optional.bind fun _ _ heq => .pure (bare_isSome heq)

theorem parameterDecl_local : land.Keeps size zone marks (parameterDecl type) (parameterDecl type') := by
  refine .node (.orElse ?_ ?_) ?_
  · refine land.identifierList_local.bind fun _ _ hnames => land.blanks.after fun _ _ => ?_
    refine land.variadicMark_local.bind fun _ _ hdots => land.blanks.after fun _ _ => ?_
    exact (h marks).bind fun _ _ htype => .pure (bare_pair_congr hnames (bare_pair_congr hdots htype))
  · refine land.variadicMark_local.bind fun _ _ hdots => land.blanks.after fun _ _ => ?_
    exact (h marks).bind fun _ _ htype => .pure (bare_pair_congr rfl (bare_pair_congr hdots htype))
  · rintro ⟨names, dots, type⟩ ⟨names', dots', type'⟩ span span' heq
    obtain ⟨hnames, hothers⟩ := eq_of_bare_pair heq
    obtain ⟨hdots, htype⟩ := eq_of_bare_pair hothers
    rw [bare_bool, bare_bool] at hdots
    subst hdots
    have hslot : bare (if dots then TypeExpr.ellipsis type else type) =
        bare (if dots then TypeExpr.ellipsis type' else type') := by
      cases dots with
      | true => exact congrArg TypeExpr.ellipsis htype
      | false => exact htype
    exact .pure (bare_field_congr hnames hslot)

theorem parameters_local [Advances type] :
    land.Keeps size zone marks (parameters type) (parameters type') := by
  have hlines : land.Keeps size zone ('(' :: marks) (optional newlines) (optional newlines) :=
    land.newlines_local.optional
  have hdecl : land.Keeps size zone ('(' :: marks) (parameterDecl type) (parameterDecl type') :=
    land.parameterDecl_local h
  refine .rule ((land.opening rfl (by decide : ('(', ')') ∈ groupMarks)).after fun _ _ => ?_)
  refine land.blanks.after fun _ _ => hlines.after fun _ _ => land.blanks.after fun _ _ => ?_
  refine .bind (.optional ?_) ?_
  · refine hdecl.bind fun _ _ heq => land.blanks.after fun _ _ => ?_
    refine .bind (land.repeated_local land.blanks ?_ ?_) ?_
    · exact (land.sign (by decide)).after fun _ _ => land.blanks.after fun _ _ => hlines.after fun _ _ =>
        land.blanks.after fun _ _ => hdecl
    · exact .before (mark_spends (by decide))
    · refine fun _ _ heqs => land.blanks.after fun _ _ => ?_
      exact (land.sign (by decide)).optional.after fun _ _ => .pure (bare_cons_congr heq heqs)
  · refine fun _ _ heq => land.blanks.after fun _ _ => hlines.after fun _ _ => ?_
    refine land.blanks.after fun _ _ => ?_
    exact (land.closing rfl (by decide)).after fun _ _ => .pure (bare_getD heq)

theorem results_local [Advances type] :
    land.Keeps size zone marks (results type) (results type') := by
  refine .rule (.orElse (land.parameters_local h) ((h marks).spanned.bind ?_))
  rintro ⟨result, span⟩ ⟨result', span'⟩ heq
  exact .pure (bare_cons_congr (bare_field_congr rfl (eq_of_bare_pair heq).1) rfl)

theorem signature_local [Advances type] :
    land.Keeps size zone marks (signature type) (signature type') := by
  refine .rule ((land.parameters_local h).bind fun _ _ hparams => land.blanks.after fun _ _ => ?_)
  refine (land.results_local h).optional.bind fun _ _ hresults => .pure ?_
  exact congrArg₂ SignatureOf.mk hparams (bare_getD hresults)

theorem typeTerm_local : land.Keeps size zone marks (typeTerm type) (typeTerm type') := by
  refine .rule ((Local.rule (land.sign (by decide))).optional.bind fun _ _ htilde => ?_)
  refine land.blanks.after fun _ _ => (h marks).bind fun _ _ htype => .pure ?_
  exact congrArg₂ TermOf.mk (bare_isSome htilde) htype

theorem typeUnion_local {first : Char} [Advances type] :
    land.Keeps size zone (first :: marks) (typeUnion type) (typeUnion type') := by
  have hterm : land.Keeps size zone (first :: marks) (typeTerm type) (typeTerm type') :=
    land.typeTerm_local h
  have hlines : land.Keeps size zone (first :: marks) (optional newlines) (optional newlines) :=
    land.newlines_local.optional
  refine .rule (hterm.bind fun _ _ heq => land.blanks.after fun _ _ => ?_)
  refine .bind (land.repeated_local land.blanks ?_ (.before (mark_spends (by decide)))) ?_
  · exact (land.sign (by decide)).after fun _ _ => land.blanks.after fun _ _ => hlines.after fun _ _ =>
      land.blanks.after fun _ _ => hterm
  · exact fun _ _ heqs => .pure (bare_cons_congr heq heqs)

theorem interfaceElement_local {first : Char} [Advances type] :
    land.Keeps size zone (first :: marks) (interfaceElement type) (interfaceElement type') := by
  refine .node (.orElse (.rule ?_) ?_) ?_
  · refine land.identifier_local.bind fun _ _ hname => land.blanks.after fun _ _ => ?_
    refine (land.signature_local h).bind fun _ _ hsignature => .pure ?_
    exact congrArg Sum.inl (bare_pair_congr hname hsignature)
  · exact (land.typeUnion_local h).bind fun _ _ hterms => .pure (congrArg Sum.inr hterms)
  · intro element element' span span' hvalue
    cases element with
    | inl method =>
        cases element' with
        | inl method' =>
            obtain ⟨hname, hsignature⟩ := eq_of_bare_pair (Sum.inl.inj hvalue)
            exact .pure (congrArg₂ (ElementOf.method · · default) hname hsignature)
        | inr terms' => cases hvalue
    | inr terms =>
        cases element' with
        | inl method' => cases hvalue
        | inr terms' => exact .pure (congrArg (ElementOf.embed · default) (Sum.inr.inj hvalue))

theorem fieldShape_local [Advances type] :
    land.Keeps size zone marks (fieldShape type) (fieldShape type') := by
  have hshorter (smaller : Nat) (hless : smaller < size) (marks : List Char) :
      land.Keeps smaller zone marks type type' := (h marks).mono (Nat.le_of_lt hless)
  refine .orElse (.rule ?_) (.rule ?_)
  · exact land.identifierList_local.bind fun _ _ hnames => land.blanks.after fun _ _ =>
      (h marks).bind fun _ _ htype => .pure (bare_pair_congr hnames htype)
  · refine (Local.rule (land.sign (by decide))).optional.bind fun pointer pointer' hpointer => ?_
    refine land.blanks.after fun _ _ => (land.typeName_local hshorter).bind fun name name' hname => .pure ?_
    refine bare_pair_congr rfl ?_
    rw [bare_isSome hpointer]
    cases pointer'.isSome with
    | true => exact congrArg TypeExpr.pointer hname
    | false => exact hname

theorem fieldDecl_local [Advances type] :
    land.Keeps size zone marks (fieldDecl type) (fieldDecl type') := by
  refine .node ((land.fieldShape_local h).bind ?_) ?_
  · rintro ⟨names, type⟩ ⟨names', type'⟩ heq
    obtain ⟨hnames, htype⟩ := eq_of_bare_pair heq
    exact land.blanks.after fun _ _ => land.stringValue_local.optional.bind fun _ _ htag =>
      .pure (bare_pair_congr hnames (bare_pair_congr htype htag))
  · rintro ⟨names, type, tag⟩ ⟨names', type', tag'⟩ span span' heq
    obtain ⟨hnames, hothers⟩ := eq_of_bare_pair heq
    obtain ⟨htype, htag⟩ := eq_of_bare_pair hothers
    rw [bare_optionString, bare_optionString] at htag
    exact .pure (by rw [htag]; exact bare_field_congr hnames htype)

end

/-! Every kind of type takes a character before it reads a type inside it. -/

section

variable {type type' : Parser TypeExpr}
  (h : ∀ smaller < size, ∀ marks, land.Keeps smaller zone marks type type')

include h

theorem pointerType_local : land.Keeps size zone marks (pointerType type) (pointerType type') :=
  .rule ((land.sign (by decide)).step (mark_spends (by decide)) fun smaller hless _ _ _ =>
    land.blanks.after fun _ _ => (h smaller hless marks).bind fun _ _ heq =>
      .pure (congrArg TypeExpr.pointer heq))

theorem sliceType_local : land.Keeps size zone marks (sliceType type) (sliceType type') := by
  refine .rule ((land.opening rfl (by decide : ('[', ']') ∈ groupMarks)).step (mark_spends (by decide)) ?_)
  intro smaller hless _ _ _
  refine land.blanks.after fun _ _ => (land.closing rfl (by decide)).after fun _ _ => ?_
  exact land.blanks.after fun _ _ => (h smaller hless marks).bind fun _ _ heq =>
    .pure (congrArg TypeExpr.slice heq)

theorem arrayType_local (hzone : zone ≠ .free) :
    land.Keeps size zone marks (arrayType type) (arrayType type') := by
  refine .rule ((land.opening rfl (by decide : ('[', ']') ∈ groupMarks)).step (mark_spends (by decide)) ?_)
  intro smaller hless _ _ _
  refine land.blanks.after fun _ _ => (land.arrayLength_local hzone).bind fun length length' hlength => ?_
  rw [bare_arrayLength, bare_arrayLength] at hlength
  refine land.stopped_blanks.after fun _ _ => land.stopped_closing.after fun _ _ => ?_
  refine land.blanks.after fun _ _ => (h smaller hless marks).bind fun _ _ heq => ?_
  exact .pure (by rw [hlength]; exact congrArg (TypeExpr.array length') heq)

theorem mapType_local : land.Keeps size zone marks (mapType type) (mapType type') := by
  refine .rule ((land.keyword_local _ _).step (keyword_spends (by decide)) fun smaller hless _ _ _ => ?_)
  refine land.blanks.after fun _ _ => ?_
  refine (land.opening rfl (by decide : ('[', ']') ∈ groupMarks)).after fun _ _ => ?_
  refine land.blanks.after fun _ _ => (h smaller hless _).bind fun _ _ hkey => ?_
  refine land.blanks.after fun _ _ => (land.closing rfl (by decide)).after fun _ _ => ?_
  refine land.blanks.after fun _ _ => ?_
  exact (h smaller hless marks).bind fun _ _ hvalue => .pure (congrArg₂ TypeExpr.map hkey hvalue)

theorem chanType_local : land.Keeps size zone marks (chanType type) (chanType type') := by
  have helement (direction : Direction) (smaller : Nat) (hless : smaller < size) :
      land.Keeps smaller zone marks (do return TypeExpr.chan direction (← type))
        (do return .chan direction (← type')) :=
    (h smaller hless marks).bind fun _ _ heq => .pure (congrArg (TypeExpr.chan direction) heq)
  have hword {size : Nat} : land.Keeps size zone marks (keyword .chanWord "chan")
      (keyword .chanWord "chan") := land.keyword_local .chanWord "chan"
  have hspends : Spends (keyword .chanWord "chan") fun _ => 1 := keyword_spends (by decide)
  have harrow {size : Nat} : land.Keeps size zone marks (mark "<-") (mark "<-") := land.sign (by decide)
  refine .rule (.orElse (.rule ?_) (.orElse (.rule ?_) (.rule ?_)))
  · exact harrow.step (mark_spends (by decide)) fun smaller hless _ _ _ => land.blanks.after fun _ _ =>
      hword.after fun _ _ => land.blanks.after fun _ _ => helement .receive smaller hless
  · exact hword.step hspends fun smaller hless _ _ _ => land.blanks.after fun _ _ =>
      harrow.after fun _ _ => land.blanks.after fun _ _ => helement .send smaller hless
  · exact hword.step hspends fun smaller hless _ _ _ => land.blanks.after fun _ _ =>
      helement .both smaller hless

theorem parenType_local : land.Keeps size zone marks (parenType type) (parenType type') := by
  refine .rule ((land.opening rfl (by decide : ('(', ')') ∈ groupMarks)).step (mark_spends (by decide)) ?_)
  intro smaller hless _ _ _
  refine land.blanks.after fun _ _ => (h smaller hless _).bind fun _ _ heq => ?_
  refine land.blanks.after fun _ _ => (land.closing rfl (by decide)).after fun _ _ => ?_
  exact .pure (congrArg TypeExpr.paren heq)

variable [Advances type]

theorem funcType_local : land.Keeps size zone marks (funcType type) (funcType type') := by
  refine .rule ((land.keyword_local _ _).step (keyword_spends (by decide)) fun smaller hless _ _ _ => ?_)
  refine land.blanks.after fun _ _ => (land.signature_local (h smaller hless)).bind fun _ _ heq => .pure ?_
  rw [bare_func, bare_func, heq]

theorem interfaceType_local : land.Keeps size zone marks (interfaceType type) (interfaceType type') := by
  refine .rule ((land.keyword_local _ _).step (keyword_spends (by decide)) fun smaller hless _ _ _ => ?_)
  refine land.blanks.after fun _ _ => ?_
  refine (land.block_local rfl rfl (by decide : ('\x7b', '\x7d') ∈ groupMarks)
    (land.interfaceElement_local (h smaller hless))).bind fun _ _ heq => ?_
  exact .pure (by rw [bare_interface, bare_interface, heq])

theorem structType_local : land.Keeps size zone marks (structType type) (structType type') := by
  refine .rule ((land.keyword_local _ _).step (keyword_spends (by decide)) fun smaller hless _ _ _ => ?_)
  refine land.blanks.after fun _ _ => ?_
  refine (land.block_local rfl rfl (by decide : ('\x7b', '\x7d') ∈ groupMarks)
    (land.fieldDecl_local (h smaller hless))).bind fun _ _ heq => ?_
  exact .pure (by rw [bare_struct, bare_struct, heq])

theorem typeWith_local (hzone : zone ≠ .free) :
    land.Keeps size zone marks (typeWith type) (typeWith type') := by
  refine .rule (.orElse (land.pointerType_local h) (.orElse (land.sliceType_local h) ?_))
  refine .orElse (land.arrayType_local h hzone) (.orElse (land.mapType_local h) ?_)
  refine .orElse (land.chanType_local h) (.orElse (land.funcType_local h) ?_)
  refine .orElse (land.interfaceType_local h) (.orElse (land.structType_local h) ?_)
  exact .orElse (land.parenType_local h) (land.typeName_local h)

end

/-- A part has less types nested in it than characters, so it does not matter how many may be nested. -/
theorem typeUpTo_local (hzone : zone ≠ .free) {depth depth' : Nat} (hdepth : size < depth)
    (hdepth' : size < depth') : land.Keeps size zone marks (typeUpTo depth) (typeUpTo depth') := by
  induction size using Nat.strongRecOn generalizing depth depth' marks with
  | ind size ih =>
  obtain ⟨depth, rfl⟩ := Nat.exists_eq_succ_of_ne_zero (Nat.ne_of_gt (Nat.zero_lt_of_lt hdepth))
  obtain ⟨depth', rfl⟩ := Nat.exists_eq_succ_of_ne_zero (Nat.ne_of_gt (Nat.zero_lt_of_lt hdepth'))
  have hsmaller (smaller : Nat) (hless : smaller < size) (marks : List Char) :
      land.Keeps smaller zone marks (typeUpTo depth) (typeUpTo depth') :=
    ih smaller hless (by omega) (by omega)
  exact fun text htext hsize first second hfirst hsecond mode start start' =>
    land.typeWith_local hsmaller hzone text htext hsize first second hfirst hsecond mode start start'

theorem typeExpr_local (hzone : zone ≠ .free) : land.Keeps size zone marks typeExpr typeExpr := by
  intro text htext hsize first second hfirst hsecond mode start start'
  have hdepth (behind : List Char) : text.length < (text ++ behind).length + 1 := by
    rw [List.length_append]
    omega
  exact land.typeUpTo_local hzone (hdepth first) (hdepth second) text htext (Nat.le_refl _) first second
    hfirst hsecond mode start start'

/-! ## Declarations -/

theorem importName_local : land.Keeps size zone marks importName importName := by
  refine .rule (.orElse ((Local.rule (land.sign (by decide))).after fun _ _ => .pure rfl) ?_)
  exact land.identifier_local.bind fun _ _ heq => .pure (by rw [name_eq_of_bare heq])

theorem importSpec_local : land.Keeps size zone marks importSpec importSpec := by
  refine .node (land.importName_local.optional.bind fun name name' hname => ?_) ?_
  · exact land.blanks.after fun _ _ => land.stringValue_local.bind fun _ _ hpath =>
      .pure (bare_pair_congr hname hpath)
  · rintro ⟨name, path⟩ ⟨name', path'⟩ span span' heq
    obtain ⟨hname, hpath⟩ := eq_of_bare_pair heq
    rw [bare_string, bare_string] at hpath
    rw [bare_optionName, bare_optionName] at hname
    exact .pure (by rw [hname, hpath]; rfl)

theorem typeParams_local (hzone : zone ≠ .free) :
    land.Keeps size zone marks typeParams typeParams := by
  have hdecl : land.Keeps size zone ('[' :: marks) typeParamDecl typeParamDecl := by
    refine .rule (land.identifierList_local.bind fun _ _ hnames => land.blanks.after fun _ _ => ?_)
    exact (land.typeUnion_local fun _ => land.typeExpr_local hzone).bind fun _ _ hconstraint =>
      .pure (congrArg₂ TypeParam.mk hnames hconstraint)
  exact .rule (land.listed_local rfl rfl (by decide) hdecl)

theorem typeSpec_local : land.Keeps size .typed [] typeSpec typeSpec := by
  refine .node ?_ ?_
  · refine land.identifier_local.bind fun _ _ hname => land.blanks.after fun _ _ => ?_
    refine (land.typeParams_local (by decide)).optional.bind fun _ _ hparams => ?_
    refine land.blanks.after fun _ _ => (Local.rule land.equals).optional.bind fun _ _ hmarker => ?_
    refine land.blanks.after fun _ _ => ?_
    refine (land.typeExpr_local (by decide)).bind fun _ _ htype => .pure ?_
    exact bare_pair_congr hname (bare_pair_congr (bare_getD hparams)
      (bare_pair_congr (bare_isSome hmarker) htype))
  · rintro ⟨name, params, marker, type⟩ ⟨name', params', marker', type'⟩ span span' heq
    obtain ⟨hname, hothers⟩ := eq_of_bare_pair heq
    obtain ⟨hparams, hothers⟩ := eq_of_bare_pair hothers
    obtain ⟨hmarker, htype⟩ := eq_of_bare_pair hothers
    rw [bare_bool, bare_bool] at hmarker
    refine .pure ?_
    change TypeSpec.mk (bare name) (bare params) marker (bare type) default = _
    rw [hname, hparams, hmarker, htype]
    rfl

theorem constValue_local : land.Keeps size .free [] constValue constValue :=
  (land.piece (by decide)).rule.bindText fun _ _ _ => .pure rfl

theorem constSpec_local :
    Local land.behind size (land.part .constant []) (land.part .free []) constSpec constSpec := by
  have hnext : land.Keeps size .free [] (do mark ","; gap; constValue) (do mark ","; gap; constValue) :=
    (land.sign (by decide)).after fun _ _ => land.blanks.after fun _ _ => land.constValue_local
  have hothers := land.repeated_local land.blanks hnext (.before (mark_spends (by decide)))
  refine .node (land.identifierList_local.bind fun _ _ hnames => land.blanks.after fun _ _ => ?_) ?_
  · refine .bind (.optionalTo ?_ fun _ => land.part_free) fun _ _ hrest => .pure ?_
    · refine (land.typeExpr_local (by decide)).optional.bind fun _ _ htype => ?_
      refine land.blanks.after fun _ _ => land.equals.after fun _ _ => land.blanks.after fun _ _ => ?_
      refine land.constValue_local.bind fun _ _ hfirst => land.blanks.after fun _ _ => ?_
      refine hothers.bind fun _ _ hothers => .pure ?_
      exact bare_pair_congr htype (bare_cons_congr hfirst hothers)
    · exact bare_pair_congr hnames hrest
  · rintro ⟨names, rest⟩ ⟨names', rest'⟩ span span' heq
    obtain ⟨hnames, hrest⟩ := eq_of_bare_pair heq
    cases rest with
    | none =>
        cases rest' with
        | none => exact .pure (congrArg (ConstSpec.mk · none [] default) hnames)
        | some value' => cases hrest
    | some value =>
        cases rest' with
        | none => cases hrest
        | some value' =>
            obtain ⟨htype, hvalues⟩ := eq_of_bare_pair (Option.some.inj hrest)
            rw [bare_strings, bare_strings] at hvalues
            refine .pure ?_
            change ConstSpec.mk (bare names) (bare value.1) value.2 default = _
            rw [hnames, htype, hvalues]
            rfl

theorem varSpec_local : land.Keeps size .free [] varSpec varSpec :=
  (land.piece (by decide)).rule.bindText fun _ _ _ => .pure rfl

end Landscape

end GoTrace.Grammar
