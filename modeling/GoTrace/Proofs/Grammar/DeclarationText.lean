import GoTrace.Proofs.Grammar.Balanced
import GoTrace.Proofs.Grammar.FirstWord
import GoTrace.Proofs.Grammar.Rendered
import GoTrace.Proofs.Literal.Reread
import GoTrace.Proofs.Parser.Finds

/-!
# Where declarations are read

Import declarations, structs with one field on each line, and functions with the names of their
parameters, as they stand in a file that was written.
-/

namespace GoTrace.Grammar

open GoTrace.Lexeme GoTrace.Parser GoTrace.Descriptor

variable {mode : Mode} {text middle rest : List Char}

/-! ## Imports -/

theorem reads_stringValue {path value : String}
    (h : Literal.unquote? (Text.quote path).toList = some value) (rest : List Char) :
    Reads stringValue mode ((Text.quote path).toList ++ rest) rest (· = value) := by
  refine (reads_stringLiteral path rest).bind fun found hfound => ?_
  obtain ⟨literal, span⟩ := found
  obtain rfl : literal = (Text.quote path).toList := hfound
  dsimp only
  rw [h]
  exact Reads.pure _

theorem refuses_importName (hword : identifier? text = none) (hdot : text.head? ≠ some '.') :
    Refuses importName mode text := by
  refine Refuses.rule (.orElse ?_ ?_)
  · exact ((refuses_mark rfl hdot).rule).bind_left
  · exact (refuses_identifier hword).bind_left

def writtenName (name : String) : ImportName :=
  if name = "_" then .blank else .named name

theorem reads_importName {name : String} (h : IsIdentifier name) (hrest : StopsWord rest) :
    Reads importName mode (name.toList ++ rest) rest (· = writtenName name) := by
  have hdot : (name.toList ++ rest).head? ≠ some '.' := h.head?_append_ne (by decide) rest
  refine Reads.rule (.orElse_right ((refuses_mark rfl hdot).rule).bind_left ?_)
  refine (reads_identifier h hrest).bind fun ident hident => (Reads.pure _).weaken fun found hfound => ?_
  rw [hfound, hident, writtenName]

def IsImport (name : Option ImportName) (path : String) (spec : ImportSpec) : Prop :=
  spec.name = name ∧ spec.path = path

theorem quote_cons (path : String) : ∃ tail, (Text.quote path).toList = '"' :: tail :=
  ⟨_, Text.toList_quote path⟩

theorem skipBlanks_quote (path : String) (rest : List Char) :
    skipBlanks ((Text.quote path).toList ++ rest) = (Text.quote path).toList ++ rest := by
  obtain ⟨tail, heq⟩ := quote_cons path
  rw [heq]
  exact skipBlanks_of_isSolid (by decide) _

/-- How an import of the path stands on its line, with a name and without one. -/
inductive ImportText (path : String) : List Char → Option ImportName → Prop
  | alone : ImportText path (Text.quote path).toList none
  | named {name : String} : IsIdentifier name →
      ImportText path (name.toList ++ ' ' :: (Text.quote path).toList) (some (writtenName name))

namespace ImportText

variable {path value : String} {line : List Char} {name : Option ImportName}

theorem lineStart (h : ImportText path line name) (rest : List Char) : LineStart (line ++ rest) := by
  cases h with
  | alone =>
      obtain ⟨tail, heq⟩ := quote_cons path
      rw [heq]
      exact lineStart_cons (by decide) (by decide) _
  | named hname =>
      rw [List.append_assoc]
      exact isIdentifier_lineStart hname _

theorem reads_name (h : ImportText path line name) (rest : List Char) :
    ∃ middle, Reads (optional importName) .spaced (line ++ rest) middle (· = name) ∧
      skipBlanks middle = (Text.quote path).toList ++ rest := by
  cases h with
  | alone =>
      refine ⟨_, Reads.optional_none ?_, skipBlanks_quote path rest⟩
      obtain ⟨tail, heq⟩ := quote_cons path
      rw [heq]
      exact refuses_importName (identifier?_cons (by decide) _) (head?_ne rfl (by decide))
  | named hname =>
      have hstop : StopsWord (' ' :: ((Text.quote path).toList ++ rest)) :=
        (by decide : isIdentChar ' ' = false)
      refine ⟨' ' :: ((Text.quote path).toList ++ rest), ?_, ?_⟩
      · rw [List.append_assoc]
        refine (reads_importName hname hstop).optional_some.weaken ?_
        rintro found ⟨_, rfl, rfl⟩
        rfl
      · rw [skipBlanks_space, skipBlanks_quote]

theorem reads_importSpec (h : ImportText path line name)
    (hvalue : Literal.unquote? (Text.quote path).toList = some value) (rest : List Char) :
    Reads importSpec .spaced (line ++ rest) rest (IsImport name value) := by
  obtain ⟨middle, hname, hmiddle⟩ := h.reads_name rest
  have hgap := reads_gap middle
  rw [hmiddle] at hgap
  refine Reads.node (· = (name, value)) ?_ ?_
  · refine hname.bind fun found hfound => hgap.bind fun _ _ => ?_
    refine (reads_stringValue hvalue rest).bind fun text htext => ?_
    exact (Reads.pure _).weaken fun pair hpair => by rw [hpair, hfound, htext]
  · rintro _ span rfl
    exact (Reads.pure _).weaken fun spec hspec => by rw [hspec]; exact ⟨rfl, rfl⟩

theorem chunk (h : ImportText path line name)
    (hvalue : Literal.unquote? (Text.quote path).toList = some value) :
    Chunk importSpec ('\t' :: (line ++ ['\n'])) (IsImport name value) :=
  chunk_line h.lineStart fun rest => h.reads_importSpec hvalue ('\n' :: rest)

end ImportText

theorem refuses_specs {α : Type} {decl word : Rule} {name : String} {spec : Parser α}
    (h : wordAhead text ≠ name.toList) : Refuses (specs decl word name spec) mode text :=
  ((refuses_keyword h).bind_left).rule

theorem reads_specs_one {α : Type} {decl word : Rule} {name : String} {spec : Parser α}
    {accept : α → Prop} (hword : name.toList.all isIdentChar = true)
    (h : Reads spec .spaced text rest accept) (htext : skipBlanks text = text)
    (hparen : text.head? ≠ some '(') :
    Reads (specs decl word name spec) .spaced (name.toList ++ ' ' :: text) rest
      fun specs => ∃ spec, specs = [spec] ∧ accept spec := by
  have hgap := reads_gap (' ' :: text)
  rw [skipBlanks_space, htext] at hgap
  refine Reads.rule ((reads_word text hword).bind fun _ _ => hgap.bind fun _ _ => ?_)
  refine .orElse_right (refuses_mark rfl hparen).bind_left (h.bind fun spec hspec => ?_)
  exact (Reads.pure _).weaken fun specs hspecs => ⟨spec, hspecs, hspec⟩

theorem reads_specs_block {α : Type} {decl word : Rule} {name : String} {spec : Parser α}
    [Advances spec] {texts : List (List Char)} {accepts : List (α → Prop)}
    (hword : name.toList.all isIdentChar = true) (h : List.Forall₂ (Line spec) texts accepts)
    (hne : texts ≠ []) (rest : List Char) (hclose : Refuses spec .spaced (')' :: rest)) :
    Reads (specs decl word name spec) .spaced
      (name.toList ++ ' ' :: '(' :: '\n' :: (texts.flatten ++ ')' :: rest)) rest (Meets accepts) := by
  have hstart : LineStart (')' :: rest) := lineStart_cons (by decide) (by decide) rest
  have hgap := reads_gap (' ' :: '(' :: '\n' :: (texts.flatten ++ ')' :: rest))
  rw [skipBlanks_space, skipBlanks_of_isSolid (by decide)] at hgap
  refine Reads.rule ((reads_word _ hword).bind fun _ _ => hgap.bind fun _ _ => ?_)
  exact .orElse_left (reads_block rfl rfl h hne hstart hclose)

def startsNoImport (c : Char) : Bool :=
  isSolid c && !(isIdentStart c || c = '.' || c = '"' || c = '\x60')

theorem refuses_importSpec_cons {c : Char} (h : startsNoImport c = true) (rest : List Char) :
    Refuses importSpec .spaced (c :: rest) := by
  simp only [startsNoImport, Bool.and_eq_true, Bool.not_eq_true', Bool.or_eq_false_iff,
    decide_eq_false_iff_not] at h
  obtain ⟨hsolid, ⟨⟨hstart, hdot⟩, hquote⟩, hraw⟩ := h
  have hname : Refuses importName .spaced (c :: rest) :=
    refuses_importName (identifier?_cons hstart rest) (head?_ne rfl hdot)
  have hliteral : Refuses stringLiteral .spaced (c :: rest) :=
    refuses_stringLiteral (head?_ne rfl hquote) (head?_ne rfl hraw)
  refine ((Refuses.rule ?_).spanned).bind_left
  refine Refuses.bind (Reads.optional_none hname) fun _ _ => ?_
  refine Refuses.bind (reads_gap_none (skipBlanks_of_isSolid hsolid rest)) fun _ _ => ?_
  exact hliteral.bind_left.bind_left

theorem refuses_importSpec_close (rest : List Char) : Refuses importSpec .spaced (')' :: rest) :=
  refuses_importSpec_cons (by decide) rest

theorem reads_importDecl {texts : List (List Char)} {accepts : List (ImportSpec → Prop)}
    (h : List.Forall₂ (Chunk importSpec) texts accepts) (hne : texts ≠ []) (rest : List Char) :
    Reads importDecl .spaced
      ("import".toList ++ ' ' :: '(' :: '\n' :: (texts.flatten ++ ')' :: rest)) rest
      (Meets accepts) :=
  reads_specs_block (by decide) (h.imp fun _ _ => Chunk.line) hne rest (refuses_importSpec_close rest)

/-- In parentheses no import declaration is read if no import starts on the first line there. -/
theorem refuses_importDecl_block {c : Char} (h : startsNoImport c = true)
    (hc : c ∉ [')', ';', '\n', '\r']) (htext : behindBreaks text = c :: rest) :
    Refuses importDecl .spaced ("import".toList ++ ' ' :: '(' :: text) := by
  obtain ⟨hclose, hbreak⟩ := List.ne_and_not_mem_of_not_mem_cons hc
  have hsolid : isSolid c = true := (Bool.and_eq_true_iff.mp h).1
  have hgap := reads_gap (' ' :: '(' :: text)
  rw [skipBlanks_space, skipBlanks_of_isSolid (by decide)] at hgap
  have hblock : Refuses (block "(" ")" importSpec) .spaced ('(' :: text) := by
    refine refuses_block rfl rfl ?_ ?_ ?_
    · rw [htext]
      exact refuses_importSpec_cons h rest
    · rw [htext]
      exact lineStart_cons hsolid hbreak rest
    · rw [htext]
      exact head?_ne rfl hclose
  refine Refuses.rule (Refuses.bind (reads_word _ (by decide)) fun _ _ => ?_)
  refine Refuses.bind hgap fun _ _ => .orElse hblock ?_
  exact (refuses_importSpec_cons (by decide) text).bind_left

/-! ## Structs -/

variable {qualify : Qualifier} {names : Naming} {change : PackageRef → PackageRef}
  {parser : Parser TypeExpr}

theorem skipBlanks_replicate (n : Nat) (rest : List Char) :
    skipBlanks (List.replicate n ' ' ++ rest) = skipBlanks rest := by
  induction n with
  | zero => rfl
  | succ n ih => rw [List.replicate_succ, List.cons_append, skipBlanks_space, ih]

theorem stopsWord_replicate (n : Nat) (rest : List Char) :
    StopsWord (List.replicate n ' ' ++ ' ' :: rest) := by
  cases n with
  | zero => exact (by decide : isIdentChar ' ' = false)
  | succ n => exact (by decide : isIdentChar ' ' = false)

theorem reads_fieldDecl {name : String} (hname : IsIdentifier name) {type : Descriptor}
    (htype : type.Plain (NameWritten qualify names change) false) (n : Nat) {rest : List Char}
    (h : ReadsBack qualify names change parser type ('\n' :: rest)) :
    Reads (fieldDecl parser) .spaced
      (name.toList ++ (List.replicate n ' ' ++ ' ' ::
        ((type.render qualify).toList ++ '\n' :: rest))) ('\n' :: rest)
      fun field => field.names.map Ident.name = [name] := by
  obtain ⟨last, hlast, hread⟩ := h
  have hskips := skipBlanks_render htype ('\n' :: rest)
  have hcomma := head?_render_ne htype ('\n' :: rest) (show isIdentStart ',' = false by decide)
    (by decide)
  have hnames := reads_identifierList hname (stopsWord_replicate n _)
    ((skipBlanks_replicate n _).trans ((skipBlanks_space _).trans hskips)) hskips hcomma
  have hgap := reads_gap last
  rw [hlast, skipBlanks_newline] at hgap
  have htag : Refuses stringValue .spaced ('\n' :: rest) :=
    (refuses_stringLiteral (head?_ne rfl (by decide)) (head?_ne rfl (by decide))).bind_left
  generalize name.toList ++ _ = line at hnames ⊢
  have hshape : Reads (fieldShape parser) .spaced line last
      fun found => found.1.map Ident.name = [name] := by
    refine .orElse_left (Reads.rule (hnames.bind fun idents hidents => ?_))
    refine (reads_gap_none hskips).bind fun _ _ => hread.bind fun found _ => ?_
    exact (Reads.pure _).weaken fun value hvalue => by rw [hvalue]; exact hidents
  refine Reads.node (fun found => found.1.map Ident.name = [name]) ?_ ?_
  · refine hshape.bind fun value hvalue => ?_
    refine hgap.bind fun _ _ => (Reads.optional_none htag).bind fun tag _ => ?_
    exact (Reads.pure _).weaken fun found hfound => by rw [hfound]; exact hvalue
  · rintro ⟨idents, found, tag⟩ span hvalue
    exact (Reads.pure _).weaken fun field hfield => by rw [hfield]; exact hvalue

/-- A struct of the name whose fields have the properties in order. -/
structure IsStruct (name : String) (accepts : List (Field → Prop)) (spec : TypeSpec) : Prop where
  name : spec.name.name = name
  typeParams : spec.typeParams = []
  isAlias : spec.isAlias = false
  type : ∃ fields, spec.type = .struct fields ∧ Meets accepts fields

theorem reads_structType [Advances parser] {texts : List (List Char)}
    {accepts : List (Field → Prop)} (h : List.Forall₂ (Chunk (fieldDecl parser)) texts accepts)
    (hne : texts ≠ []) (rest : List Char) :
    Reads (typeWith parser) .spaced
      ("struct".toList ++ ' ' :: '\x7b' :: '\n' :: (texts.flatten ++ '\x7d' :: rest)) rest
      fun found => ∃ fields, found = .struct fields ∧ Meets accepts fields := by
  have hclose : LineStart ('\x7d' :: rest) := lineStart_cons (by decide) (by decide) rest
  have hrefuses : Refuses (fieldDecl parser) .spaced ('\x7d' :: rest) :=
    refuses_fieldDecl (identifier?_cons (by decide) rest) hclose.solid (head?_ne rfl (by decide))
  have hopen (more : List Char) : skipBlanks (' ' :: '\x7b' :: more) = '\x7b' :: more := by
    rw [skipBlanks_space]
    exact skipBlanks_of_isSolid (by decide) _
  have hlines : List.Forall₂ (Line (fieldDecl parser)) texts accepts := h.imp fun _ _ => Chunk.line
  exact typeWith_struct (by decide) (hopen _) (reads_block rfl rfl hlines hne hclose hrefuses)

theorem reads_typeSpec {name : String} (hname : IsIdentifier name) {texts : List (List Char)}
    {accepts : List (Field → Prop)}
    (h : ∀ depth, texts.flatten.length ≤ depth →
      List.Forall₂ (Chunk (fieldDecl (typeUpTo depth))) texts accepts)
    (hne : texts ≠ []) (rest : List Char) :
    Reads typeSpec .spaced
      (name.toList ++ ' ' :: ("struct".toList ++ ' ' :: '\x7b' :: '\n' ::
        (texts.flatten ++ '\x7d' :: rest))) rest (IsStruct name accepts) := by
  have hwhole : texts.flatten.length ≤ ("struct".toList ++ ' ' :: '\x7b' :: '\n' ::
      (texts.flatten ++ '\x7d' :: rest)).length := by
    simp only [List.length_append, List.length_cons]
    omega
  have hstruct := reads_structType (h _ hwhole) hne rest
  have htype : Reads typeExpr .spaced ("struct".toList ++ ' ' :: '\x7b' :: '\n' ::
      (texts.flatten ++ '\x7d' :: rest)) rest
        fun found => ∃ fields, found = .struct fields ∧ Meets accepts fields :=
    fun start => hstruct start
  have hskips (more : List Char) : skipBlanks ("struct".toList ++ more) = "struct".toList ++ more :=
    skipBlanks_of_isSolid (by decide) _
  have hgap := reads_gap (' ' :: ("struct".toList ++ ' ' :: '\x7b' :: '\n' ::
    (texts.flatten ++ '\x7d' :: rest)))
  rw [skipBlanks_space, hskips] at hgap
  have hgap' := reads_gap_none (hskips (' ' :: '\x7b' :: '\n' :: (texts.flatten ++ '\x7d' :: rest)))
  have hparams (more : List Char) : Refuses typeParams .spaced ("struct".toList ++ more) :=
    ((refuses_mark rfl (head?_ne rfl (by decide))).bind_left).rule
  have hmarker (more : List Char) : Refuses (rule .aliasMarker (mark "=")) .spaced
      ("struct".toList ++ more) :=
    (refuses_mark rfl (head?_ne rfl (by decide))).rule
  have hstop (more : List Char) : StopsWord (' ' :: more) := (by decide : isIdentChar ' ' = false)
  refine Reads.node (fun found => found.1.name = name ∧ found.2.1 = [] ∧ found.2.2.1 = false ∧
    ∃ fields, found.2.2.2 = .struct fields ∧ Meets accepts fields) ?_ ?_
  · refine (reads_identifier hname (hstop _)).bind fun ident hident => ?_
    refine hgap.bind fun _ _ => (Reads.optional_none (hparams _)).bind fun params hnone => ?_
    refine hgap'.bind fun _ _ => (Reads.optional_none (hmarker _)).bind fun marker hnone' => ?_
    refine hgap'.bind fun _ _ => htype.bind fun type hfound => ?_
    refine (Reads.pure _).weaken fun found heq => ?_
    rw [heq, hnone, hnone']
    exact ⟨hident, rfl, rfl, hfound⟩
  · rintro ⟨ident, params, marker, type⟩ span ⟨hident, hnone, hnone', hfound⟩
    exact (Reads.pure _).weaken fun spec hspec => by
      rw [hspec]
      exact ⟨hident, hnone, hnone', hfound⟩

/-! ## Declarations at the top level -/

theorem refuses_funcDecl (h : wordAhead text ≠ "func".toList) : Refuses funcDecl .spaced text :=
  (refuses_keyword h).bind_left.rule.spanned.bind_left

def keywordDecl {α : Type} (declRule wordRule : Rule) (word : String) (spec : Parser α)
    (wrap : α → Declaration) : Parser (List Declaration) := do
  return (← specs declRule wordRule word spec).map wrap

theorem refuses_keywordDecl {α : Type} {declRule wordRule : Rule} {word : String} {spec : Parser α}
    {wrap : α → Declaration} (h : wordAhead text ≠ word.toList) :
    Refuses (keywordDecl declRule wordRule word spec wrap) .spaced text :=
  (refuses_specs h).bind_left

theorem topLevelDecl_eq : topLevelDecl =
    (keywordDecl .typeDecl .typeWord "type" typeSpec .type
      <|> (keywordDecl .constDecl .constWord "const" constSpec .const
      <|> (keywordDecl .varDecl .varWord "var" varSpec .var <|> (do return [.func (← funcDecl)])))) :=
  rfl

theorem found_topLevelDecl_type (h : wordAhead text = "type".toList) (start : Mark) :
    (topLevelDecl .spaced ⟨text, start⟩).found =
      (keywordDecl .typeDecl .typeWord "type" typeSpec .type .spaced ⟨text, start⟩).found := by
  have hconst : wordAhead text ≠ "const".toList := by rw [h]; decide
  have hvar : wordAhead text ≠ "var".toList := by rw [h]; decide
  have hfunc : wordAhead text ≠ "func".toList := by rw [h]; decide
  rw [topLevelDecl_eq, found_orElse, found_orElse, found_orElse, refuses_keywordDecl hconst start,
    refuses_keywordDecl hvar start, (refuses_funcDecl hfunc).bind_left start, Option.none_or,
    Option.none_or, Option.or_none]

theorem found_topLevelDecl_const (h : wordAhead text = "const".toList) (start : Mark) :
    (topLevelDecl .spaced ⟨text, start⟩).found =
      (keywordDecl .constDecl .constWord "const" constSpec .const .spaced ⟨text, start⟩).found := by
  have htype : wordAhead text ≠ "type".toList := by rw [h]; decide
  have hvar : wordAhead text ≠ "var".toList := by rw [h]; decide
  have hfunc : wordAhead text ≠ "func".toList := by rw [h]; decide
  rw [topLevelDecl_eq, found_orElse, found_orElse, found_orElse, refuses_keywordDecl htype start,
    refuses_keywordDecl hvar start, (refuses_funcDecl hfunc).bind_left start, Option.none_or,
    Option.none_or, Option.or_none]

theorem found_topLevelDecl_var (h : wordAhead text = "var".toList) (start : Mark) :
    (topLevelDecl .spaced ⟨text, start⟩).found =
      (keywordDecl .varDecl .varWord "var" varSpec .var .spaced ⟨text, start⟩).found := by
  have htype : wordAhead text ≠ "type".toList := by rw [h]; decide
  have hconst : wordAhead text ≠ "const".toList := by rw [h]; decide
  have hfunc : wordAhead text ≠ "func".toList := by rw [h]; decide
  rw [topLevelDecl_eq, found_orElse, found_orElse, found_orElse, refuses_keywordDecl htype start,
    refuses_keywordDecl hconst start, (refuses_funcDecl hfunc).bind_left start, Option.none_or,
    Option.none_or, Option.or_none]

section

variable {α : Type} {declRule wordRule : Rule} {word : String} {spec : Parser α} {wrap : α → Declaration}
  (hword : word.toList.all isIdentChar = true)
  (hfound : ∀ {text}, wordAhead text = word.toList → ∀ start, (topLevelDecl .spaced ⟨text, start⟩).found =
    (keywordDecl declRule wordRule word spec wrap .spaced ⟨text, start⟩).found)

include hword hfound

theorem reads_topLevelDecl {accept : List α → Prop}
    (h : Reads (specs declRule wordRule word spec) .spaced (word.toList ++ ' ' :: text) rest accept) :
    Reads topLevelDecl .spaced (word.toList ++ ' ' :: text) rest
      fun decls => ∃ specs, decls = specs.map wrap ∧ accept specs := by
  have hahead : wordAhead (word.toList ++ ' ' :: text) = word.toList :=
    wordAhead_append hword (by decide : isIdentChar ' ' = false)
  have hdecl : Reads (keywordDecl declRule wordRule word spec wrap) .spaced (word.toList ++ ' ' :: text)
      rest fun decls => ∃ specs, decls = specs.map wrap ∧ accept specs :=
    h.bind fun specs hspecs => (Reads.pure _).weaken fun decls hdecls => ⟨specs, hdecls, hspecs⟩
  intro start
  rw [hfound hahead start]
  exact hdecl start

theorem finds_topLevelDecl {start : Mark} {decls : List Declaration} {next : Cursor}
    (h : Finds topLevelDecl .spaced ⟨word.toList ++ ' ' :: text, start⟩ decls next) :
    ∃ found, decls = found.map wrap ∧
      Finds (specs declRule wordRule word spec) .spaced ⟨word.toList ++ ' ' :: text, start⟩ found next := by
  have hahead : wordAhead (word.toList ++ ' ' :: text) = word.toList :=
    wordAhead_append hword (by decide : isIdentChar ' ' = false)
  rw [Finds, hfound hahead start] at h
  obtain ⟨found, last, hspecs, h⟩ := Finds.of_bind h
  obtain ⟨rfl, rfl⟩ := h.of_pure
  exact ⟨found, rfl, hspecs⟩

end

theorem reads_topLevelType {accept : TypeSpec → Prop} (h : Reads typeSpec .spaced text rest accept)
    (htext : skipBlanks text = text) (hparen : text.head? ≠ some '(') :
    Reads topLevelDecl .spaced ("type".toList ++ ' ' :: text) rest
      fun decls => ∃ spec, decls = [.type spec] ∧ accept spec := by
  refine (reads_topLevelDecl (by decide) found_topLevelDecl_type
    (reads_specs_one (by decide) h htext hparen)).weaken ?_
  rintro _ ⟨_, rfl, spec, rfl, hspec⟩
  exact ⟨spec, rfl, hspec⟩

/-! ## Functions -/

theorem reads_topLevelFunc {accept : FuncDecl → Prop}
    (h : Reads funcDecl .spaced ("func".toList ++ ' ' :: text) rest accept) :
    Reads topLevelDecl .spaced ("func".toList ++ ' ' :: text) rest
      fun decls => ∃ decl, decls = [.func decl] ∧ accept decl := by
  have hne {word : String} (hne : "func".toList ≠ word.toList) :
      wordAhead ("func".toList ++ ' ' :: text) ≠ word.toList :=
    wordAhead_ne (by decide) (by decide : isIdentChar ' ' = false) hne
  refine .orElse_right (refuses_keywordDecl (hne (by decide))) ?_
  refine .orElse_right (refuses_keywordDecl (hne (by decide))) ?_
  refine .orElse_right (refuses_keywordDecl (hne (by decide))) ?_
  refine h.bind fun decl hdecl => ?_
  exact (Reads.pure _).weaken fun decls hdecls => ⟨decl, hdecls, hdecl⟩

/-- A function is read from what is read as its receiver, its name, its signature and its body. -/
theorem reads_funcDecl {receiver : Option (List Field) → Prop} {accept : Signature → Prop}
    {name : String} (hname : IsIdentifier name) {params last body : List Char}
    (hbody : Delimited body) (htext : skipBlanks text = text)
    (hreceiver : Reads (optional (rule .receiver (parameters typeExpr))) .spaced text middle receiver)
    (hmiddle : skipBlanks middle = name.toList ++ '(' :: params)
    (hsignature : Reads (signature typeExpr) .spaced ('(' :: params) last accept)
    (hlast : skipBlanks last = '\x7b' :: (body ++ '\x7d' :: rest)) :
    Reads funcDecl .spaced ("func".toList ++ ' ' :: text) rest
      fun decl => receiver decl.receiver ∧ decl.name.name = name ∧ accept decl.signature ∧
        decl.typeParams = [] ∧ decl.hasBody = true := by
  have hgap := reads_gap (' ' :: text)
  rw [skipBlanks_space, htext] at hgap
  have hgapMiddle := reads_gap middle
  rw [hmiddle] at hgapMiddle
  have hopen : skipBlanks ('(' :: params) = '(' :: params := skipBlanks_of_isSolid (by decide) _
  have hgapLast := reads_gap last
  rw [hlast] at hgapLast
  have hparams : Refuses typeParams .spaced ('(' :: params) :=
    ((refuses_mark rfl (head?_ne rfl (by decide))).bind_left).rule
  have hstop : StopsWord ('(' :: params) := (by decide : isIdentChar '(' = false)
  refine Reads.node (fun found => receiver found.1 ∧ found.2.1.name = name ∧
    accept found.2.2.2.1 ∧ found.2.2.1 = [] ∧ found.2.2.2.2 = true) ?_ ?_
  · refine (reads_word text).bind fun _ _ => hgap.bind fun _ _ => ?_
    refine hreceiver.bind fun fields hfields => hgapMiddle.bind fun _ _ => ?_
    refine (reads_identifier hname hstop).bind fun ident hident => ?_
    refine (reads_gap_none hopen).bind fun _ _ => (Reads.optional_none hparams).bind fun _ hnone => ?_
    refine (reads_gap_none hopen).bind fun _ _ => hsignature.bind fun found hfound => ?_
    refine hgapLast.bind fun _ _ => (reads_funcBody hbody rest).optional_some.bind fun _ hsome => ?_
    refine (Reads.pure _).weaken fun value hvalue => ?_
    obtain ⟨_, rfl, -⟩ := hsome
    rw [hvalue, hnone]
    exact ⟨hfields, hident, hfound, rfl, rfl⟩
  · rintro ⟨fields, ident, params, signature, hasBody⟩ span hvalue
    exact (Reads.pure _).weaken fun decl hdecl => by rw [hdecl]; exact hvalue

end GoTrace.Grammar
