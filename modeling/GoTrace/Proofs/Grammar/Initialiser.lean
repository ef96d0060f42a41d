import GoTrace.Proofs.Grammar.Entries
import GoTrace.Proofs.Grammar.Sequence

/-!
# Where initialisers end

A variable declaration and the value of a constant are taken as text, piece by piece, up to the end of
the line. An operator at the end of a line does not carry them over to the next: what stands there is
read as a declaration of its own.
-/

namespace GoTrace.Grammar

open GoTrace.Lexeme GoTrace.Parser

/-- Texts on one line outside of groups and literals, all of which end, without comments and without the
characters `stops`. -/
inductive Sealed (stops : List Char) : List Char → Prop
  | nil : Sealed stops []
  /-- A slash is a character by itself unless it starts a comment. -/
  | character {c : Char} {rest : List Char} :
      c ∉ startMarks → c ∉ stops → isLineEnd c = false →
        (c = '/' → rest.head? ≠ some '/' ∧ rest.head? ≠ some '*') → Sealed stops rest →
          Sealed stops (c :: rest)
  | group {opening closing : Char} {inside rest : List Char} :
      (opening, closing) ∈ groupMarks → Delimited inside → Sealed stops rest →
        Sealed stops (opening :: (inside ++ closing :: rest))
  | literal {text rest : List Char} : IsLiteral text → Sealed stops rest → Sealed stops (text ++ rest)

section

variable {mode : Mode} {stops text rest : List Char}

def initialPiece (stops : List Char) : Parser Unit := enclosed <|> plainExcept stops

theorem notMem_startMarks_of_isLineEnd {c : Char} (h : isLineEnd c = true) : c ∉ startMarks := by
  simp only [isLineEnd, Bool.or_eq_true, decide_eq_true_eq] at h
  rcases h with rfl | rfl <;> decide

theorem isPrefixOf_slash {c d : Char} {rest : List Char} (h : c = '/' → rest.head? ≠ some d) :
    ['/', d].isPrefixOf (c :: rest) = false := by
  cases hslash : ('/' == c) with
  | false => simp [List.isPrefixOf, hslash]
  | true =>
      have hne := h (beq_iff_eq.mp hslash).symm
      cases rest with
      | nil => simp [List.isPrefixOf]
      | cons e rest =>
          have hmark : (d == e) = false := by
            rw [beq_eq_false_iff_ne]
            rintro rfl
            exact hne rfl
          simp [List.isPrefixOf, hmark]

theorem newline?_of_not_isLineEnd {c : Char} (h : isLineEnd c = false) (rest : List Char) :
    newline? (c :: rest) = none := by
  simp only [isLineEnd, Bool.or_eq_false_iff, decide_eq_false_iff_not] at h
  unfold newline?
  split <;> simp_all

theorem isSome_newline? {c : Char} (h : isLineEnd c = true) (rest : List Char) :
    (newline? (c :: rest)).isSome = true := by
  simp only [isLineEnd, Bool.or_eq_true, decide_eq_true_eq] at h
  unfold newline?
  split <;> simp_all

theorem reads_initialPiece_character {c : Char} (hstart : c ∉ startMarks) (hstop : c ∉ stops)
    (hline : isLineEnd c = false)
    (hslash : c = '/' → rest.head? ≠ some '/' ∧ rest.head? ≠ some '*') :
    Reads (initialPiece stops) mode (c :: rest) rest fun _ => True := by
  refine .orElse_right (refuses_enclosedWith (head?_ne_of_notMem hstart rest)) ?_
  change Reads (take _) mode (c :: rest) ((c :: rest).drop 1) _
  refine Reads.take ?_
  rw [newline?_of_not_isLineEnd hline, isPrefixOf_slash fun heq => (hslash heq).1,
    isPrefixOf_slash fun heq => (hslash heq).2]
  simp [one?, hstop]

theorem refuses_initialPiece {c : Char} (hline : isLineEnd c = true) (rest : List Char) :
    Refuses (initialPiece stops) mode (c :: rest) := by
  have hstart := notMem_startMarks_of_isLineEnd hline
  refine .orElse (refuses_enclosedWith (head?_ne_of_notMem hstart rest)) (Refuses.take ?_)
  rw [isSome_newline? hline]
  rfl

theorem Sealed.rounds (h : Sealed stops text) {c : Char} (hline : isLineEnd c = true)
    (rest : List Char) :
    ∃ accepts, Rounds (initialPiece stops) mode (text ++ c :: rest) accepts (c :: rest) := by
  induction h with
  | nil => exact ⟨[], .stop (refuses_initialPiece hline rest)⟩
  | character hstart hstop hplain hslash _ ih =>
      obtain ⟨accepts, hrounds⟩ := ih
      obtain ⟨hunmarked, hne⟩ := isUnmarked_of_isLineEnd hline
      have hmark : c ≠ '/' ∧ c ≠ '*' := ⟨hne, by rintro rfl; exact absurd hline (by decide)⟩
      have hbehind := fun heq => head?_append_stop hmark (hslash heq) rest
      exact ⟨_, .step (reads_initialPiece_character hstart hstop hplain hbehind) (by simp) hrounds⟩
  | @group opening closing inside others hmarks hinside _ ih =>
      obtain ⟨accepts, hrounds⟩ := ih
      have hbody : Reads groupInside mode _ _ _ :=
        reads_groupInside hinside (closing_of_groupMarks hmarks) (others ++ c :: rest)
      rw [List.cons_append, List.append_assoc, List.cons_append]
      exact ⟨_, .step (.orElse_left (reads_enclosedWith_group hmarks hbody)) (by simp; omega) hrounds⟩
  | @literal word others hword _ ih =>
      obtain ⟨accepts, hrounds⟩ := ih
      have hpos := hword.length_pos
      rw [List.append_assoc]
      refine ⟨_, .step (.orElse_left (reads_enclosedWith_literal hword _)) ?_ hrounds⟩
      simp only [List.length_append]
      omega

theorem reads_textOf {p : Parser Unit} {accepts : List (Unit → Prop)} (hne : text ≠ [])
    (h : Rounds p .hidden (text ++ rest) accepts rest) :
    Reads (textOf p) mode (text ++ rest) rest fun value => value.1 = text := by
  have hpieces : Reads (do p; skipMany p) .hidden (text ++ rest) rest fun _ => True := by
    generalize hwhole : text ++ rest = whole at h
    cases h with
    | stop => exact absurd (List.append_left_eq_self.mp hwhole) hne
    | step hfirst _ hothers => exact hfirst.bind fun _ _ => hothers.skipMany
  exact Reads.hidden hpieces.captured

theorem Sealed.reads_textOf (h : Sealed stops text) (hne : text ≠ []) {c : Char}
    (hline : isLineEnd c = true) (rest : List Char) :
    Reads (textOf (initialPiece stops)) mode (text ++ c :: rest) (c :: rest)
      fun value => value.1 = text := by
  obtain ⟨accepts, hrounds⟩ := h.rounds hline rest
  exact Grammar.reads_textOf hne hrounds

theorem Sealed.append_blank {front : List Char} (h : Sealed stops front) (hblank : ' ' ∉ stops)
    (htext : Sealed stops text) : Sealed stops (front ++ ' ' :: text) := by
  induction h with
  | nil => exact .character (by decide) hblank (by decide) (fun heq => absurd heq (by decide)) htext
  | @character c rest hstart hstop hline hslash _ ih =>
      exact .character hstart hstop hline
        (fun heq => head?_append_stop ⟨by decide, by decide⟩ (hslash heq) text) ih
  | group hmarks hinside _ ih =>
      rw [List.cons_append, List.append_assoc]
      exact .group hmarks hinside ih
  | literal hword _ ih =>
      rw [List.append_assoc]
      exact .literal hword ih

end

/-! ## Declarations with an initialiser -/

/-- A declaration of variables, or of one constant. -/
inductive Initialised where
  | var
  | const (name : String)

namespace Initialised

def stops : Initialised → List Char
  | .var => [';', ')']
  | .const _ => [';', ',', ')', ']', '}']

/-- What stands in front of the text: variables are part of it. -/
def header : Initialised → String
  | .var => "var "
  | .const name => "const " ++ name ++ " = "

def declared (text : String) : Initialised → Declaration
  | .var => .var ⟨Text.trimmed text, default⟩
  | .const name => .const ⟨[⟨name, default⟩], none, [Text.trimmed text], default⟩

theorem bare_declared (form : Initialised) (text : String) :
    bare [form.declared text] = [form.declared text] := by
  cases form <;> rfl

/-- A text that can stand behind the header: variables start with a name. -/
def Takes (text : String) : Initialised → Prop
  | .var => Sealed (stops .var) text.toList ∧ ∃ c rest, text.toList = c :: rest ∧ isIdentStart c = true
  | .const name => Sealed (stops (.const name)) text.toList ∧ IsIdentifier name ∧
      ∃ c rest, text.toList = c :: rest ∧ isSolid c = true

theorem Takes.append_blank {form : Initialised} {front more : String} (hfront : form.Takes front)
    (hmore : Sealed form.stops more.toList) : form.Takes (front ++ " " ++ more) := by
  have hchars : (front ++ " " ++ more).toList = front.toList ++ ' ' :: more.toList := by
    simp [String.toList_append]
  cases form with
  | var =>
      obtain ⟨hsealed, c, rest, htext, hc⟩ := hfront
      rw [Takes, hchars]
      exact ⟨hsealed.append_blank (by decide) hmore, c, _, by rw [htext]; rfl, hc⟩
  | const name =>
      obtain ⟨hsealed, hname, c, rest, htext, hc⟩ := hfront
      rw [Takes, hchars]
      have hblank : ' ' ∉ stops (.const name) := by
        change ' ' ∉ [';', ',', ')', ']', '}']
        decide
      exact ⟨hsealed.append_blank hblank hmore, hname, c, _, by rw [htext]; rfl, hc⟩

end Initialised

theorem reads_varSpec {text : String} (h : Sealed (Initialised.stops .var) text.toList)
    (hne : text.toList ≠ []) (rest : List Char) :
    Reads varSpec .spaced (text.toList ++ '\n' :: rest) ('\n' :: rest)
      (Like ⟨Text.trimmed text, default⟩) := by
  refine ((h.reads_textOf hne (by decide) rest).rule).bind fun value hvalue => ?_
  obtain ⟨chars, span⟩ := value
  obtain rfl : chars = text.toList := hvalue
  exact (Reads.pure _).weaken fun spec hspec => by rw [hspec]; rfl

theorem reads_constValue {name text : String} (h : Sealed (Initialised.stops (.const name)) text.toList)
    (hne : text.toList ≠ []) (rest : List Char) :
    Reads constValue .spaced (text.toList ++ '\n' :: rest) ('\n' :: rest) (· = Text.trimmed text) := by
  refine ((h.reads_textOf hne (by decide) rest).rule).bind fun value hvalue => ?_
  obtain ⟨chars, span⟩ := value
  obtain rfl : chars = text.toList := hvalue
  exact Reads.pure _

theorem reads_constSpec {name text : String} (hname : IsIdentifier name)
    (h : Sealed (Initialised.stops (.const name)) text.toList) {c : Char} {tail : List Char}
    (htext : text.toList = c :: tail) (hc : isSolid c = true) (rest : List Char) :
    Reads constSpec .spaced (name.toList ++ ' ' :: '=' :: ' ' :: (text.toList ++ '\n' :: rest))
      ('\n' :: rest) (Like ⟨[⟨name, default⟩], none, [Text.trimmed text], default⟩) := by
  have hstart (more : List Char) : skipBlanks (text.toList ++ more) = text.toList ++ more := by
    rw [htext]
    exact skipBlanks_of_isSolid hc _
  have hequals (more : List Char) : skipBlanks ('=' :: more) = '=' :: more :=
    skipBlanks_of_isSolid (by decide) more
  have hstop (more : List Char) : StopsWord (' ' :: more) := (by decide : isIdentChar ' ' = false)
  have hgap := reads_gap (' ' :: (text.toList ++ '\n' :: rest))
  rw [skipBlanks_space, hstart] at hgap
  have hfeed := reads_gap_none (skipBlanks_newline rest)
  have hnames := reads_identifierList hname (hstop _)
    ((skipBlanks_space ('=' :: ' ' :: (text.toList ++ '\n' :: rest))).trans (hequals _)) (hequals _)
    (head?_ne rfl (by decide))
  have hnoType : Refuses typeExpr .spaced ('=' :: ' ' :: (text.toList ++ '\n' :: rest)) :=
    refuses_typeExpr _ (by decide : startsNoType '=' = true)
  have hvalue := reads_constValue h (by rw [htext]; exact nofun) rest
  have hothers : Rounds (do gap; mark ","; gap; constValue) .spaced ('\n' :: rest) [] ('\n' :: rest) :=
    .stop (Refuses.bind hfeed fun _ _ => (refuses_mark rfl (head?_ne rfl (by decide))).bind_left)
  refine Reads.node (fun found => found.1.map Ident.name = [name] ∧
    ∃ part, found.2 = some part ∧ part = (none, [Text.trimmed text])) ?_ ?_
  · refine hnames.bind fun idents hidents => (reads_gap_none (hequals _)).bind fun _ _ => ?_
    refine (Reads.optional_some ?_).bind fun part hpart =>
      (Reads.pure _).weaken fun value hvalue => by rw [hvalue]; exact ⟨hidents, hpart⟩
    refine (Reads.optional_none hnoType).bind fun type hnone => ?_
    refine (reads_gap_none (hequals _)).bind fun _ _ => (reads_mark rfl _).bind fun _ _ => ?_
    refine hgap.bind fun _ _ => hvalue.bind fun first hfirst => hfeed.bind fun _ _ => ?_
    refine (reads_repeated hothers (skipBlanks_newline rest)).bind fun others hnil => ?_
    cases hnil
    rw [hnone, hfirst]
    exact Reads.pure _
  · rintro ⟨idents, _⟩ span ⟨hidents, _, rfl, rfl⟩
    obtain ⟨ident, rfl, hident⟩ := List.map_eq_singleton_iff.mp hidents
    refine (Reads.pure _).weaken fun spec hspec => ?_
    rw [hspec, ← hident]
    rfl

theorem chunk_initialised {form : Initialised} {text : String} (h : form.Takes text) :
    Chunk topLevelDecl ((form.header ++ text).toList ++ ['\n']) (Like [form.declared text]) := by
  intro rest
  cases form with
  | var =>
      obtain ⟨hsealed, c, tail, htext, hc⟩ := h
      have hchars : ((Initialised.header .var ++ text).toList ++ ['\n']) ++ rest =
          "var".toList ++ ' ' :: (text.toList ++ '\n' :: rest) := by
        simp [Initialised.header, String.toList_append]
      have hstart : LineStart ("var".toList ++ ' ' :: (text.toList ++ '\n' :: rest)) :=
        lineStart_cons (by decide) (by decide) _
      have hsolid : skipBlanks (text.toList ++ '\n' :: rest) = text.toList ++ '\n' :: rest := by
        rw [htext]
        exact skipBlanks_of_isSolid (Descriptor.isSolid_of_isIdentStart hc) _
      have hparen : (text.toList ++ '\n' :: rest).head? ≠ some '(' := by
        rw [htext]
        refine head?_ne rfl ?_
        rintro rfl
        exact absurd hc (by decide)
      have hspec := reads_varSpec hsealed (by rw [htext]; exact nofun) rest
      rw [hchars]
      refine ⟨_, .last hstart.solid, hstart, ?_⟩
      have hspecs := reads_topLevelDecl (by decide) found_topLevelDecl_var
        (reads_specs_one (by decide) hspec hsolid hparen)
      refine hspecs.weaken fun decls hdecls => ?_
      obtain ⟨_, rfl, spec, rfl, hlike⟩ := hdecls
      exact bare_cons_congr (congrArg Declaration.var hlike) rfl
  | const name =>
      obtain ⟨hsealed, hname, c, tail, htext, hc⟩ := h
      have hchars : ((Initialised.header (.const name) ++ text).toList ++ ['\n']) ++ rest =
          "const".toList ++ ' ' :: (name.toList ++ ' ' :: '=' :: ' ' ::
            (text.toList ++ '\n' :: rest)) := by
        simp [Initialised.header, String.toList_append]
      have hstart : LineStart ("const".toList ++ ' ' :: (name.toList ++ ' ' :: '=' :: ' ' ::
          (text.toList ++ '\n' :: rest))) :=
        lineStart_cons (by decide) (by decide) _
      have hspec := reads_constSpec hname hsealed htext hc rest
      rw [hchars]
      refine ⟨_, .last hstart.solid, hstart, ?_⟩
      have hspecs := reads_topLevelDecl (by decide) found_topLevelDecl_const
        (reads_specs_one (by decide) hspec (isIdentifier_lineStart hname _).solid
          (hname.head?_append_ne (by decide) _))
      refine hspecs.weaken fun decls hdecls => ?_
      obtain ⟨_, rfl, spec, rfl, hlike⟩ := hdecls
      exact bare_cons_congr (congrArg Declaration.const hlike) rfl

/-! ## Blocks of variables -/

theorem refuses_varSpec_close (rest : List Char) : Refuses varSpec .spaced (')' :: rest) := by
  have hpiece : Refuses (initialPiece [';', ')']) .hidden (')' :: rest) := by
    refine .orElse (refuses_enclosedWith (head?_ne_of_notMem (by decide) rest)) (Refuses.take ?_)
    rfl
  exact ((Refuses.captured hpiece.bind_left : Refuses (textOf _) .spaced _).rule).bind_left

/-- A line of a block of variables: a declaration that starts with something. -/
def IsVarLine (text : String) : Prop :=
  Sealed (Initialised.stops .var) text.toList ∧
    ∃ c tail, text.toList = c :: tail ∧ isSolid c = true ∧ c ∉ [';', '\n', '\r']

theorem Initialised.Takes.isVarLine {text : String} (h : Takes text .var) : IsVarLine text := by
  obtain ⟨hsealed, c, tail, htext, hc⟩ := h
  refine ⟨hsealed, c, tail, htext, Descriptor.isSolid_of_isIdentStart hc, fun hmem => ?_⟩
  simp only [List.mem_cons, List.not_mem_nil, or_false] at hmem
  rcases hmem with rfl | rfl | rfl <;> exact absurd hc (by decide)

theorem IsVarLine.chunk {text : String} (h : IsVarLine text) :
    Chunk varSpec ('\t' :: (text.toList ++ ['\n'])) (Like ⟨Text.trimmed text, default⟩) := by
  obtain ⟨hsealed, c, tail, htext, hsolid, hbreak⟩ := h
  refine chunk_line (fun rest => ?_) fun rest => reads_varSpec hsealed (by rw [htext]; exact nofun) rest
  rw [htext]
  exact lineStart_cons hsolid hbreak _

def varBlock (lines : List String) : List Char :=
  "var".toList ++ ' ' :: '(' :: '\n' ::
    ((lines.map fun line => '\t' :: (line.toList ++ ['\n'])).flatten ++ [')', '\n'])

def varDeclarations (lines : List String) : List Declaration :=
  lines.map fun line => .var ⟨Text.trimmed line, default⟩

theorem bare_varDeclarations (lines : List String) :
    bare (varDeclarations lines) = varDeclarations lines := by
  rw [bare_list, varDeclarations, List.map_map]
  rfl

theorem chunk_varBlock {lines : List String} (h : ∀ line ∈ lines, IsVarLine line) (hne : lines ≠ []) :
    Chunk topLevelDecl (varBlock lines) (Like (varDeclarations lines)) := by
  intro rest
  have hlines : List.Forall₂ (Line varSpec) (lines.map fun line => '\t' :: (line.toList ++ ['\n']))
      ((lines.map fun line => VarSpec.mk (Text.trimmed line) default).map Like) := by
    rw [List.forall₂_map_left_iff, List.forall₂_map_right_iff, List.forall₂_map_right_iff,
      List.forall₂_same]
    exact fun line hline => (h line hline).chunk.line
  have hblock := reads_topLevelDecl (by decide) found_topLevelDecl_var
    (reads_specs_block (by decide) hlines (by simpa using hne) ('\n' :: rest) (refuses_varSpec_close _))
  generalize htexts : (lines.map fun line => '\t' :: (line.toList ++ ['\n'])).flatten = texts at hblock
  have hchars : varBlock lines ++ rest =
      "var".toList ++ ' ' :: '(' :: '\n' :: (texts ++ ')' :: '\n' :: rest) := by
    simp [varBlock, htexts]
  have hstart : LineStart ("var".toList ++ ' ' :: '(' :: '\n' :: (texts ++ ')' :: '\n' :: rest)) :=
    lineStart_cons (by decide) (by decide) _
  rw [hchars]
  refine ⟨_, .last hstart.solid, hstart, hblock.weaken fun decls hdecls => ?_⟩
  obtain ⟨specs, rfl, hspecs⟩ := hdecls
  rw [Like, bare_map_congr Declaration.var (fun _ => rfl) (bare_of_meets hspecs), List.map_map]
  rfl

end GoTrace.Grammar

namespace GoTrace.SourceFile

open Lexeme Grammar GoTrace.Parser

variable {package : String} (hpackage : IsIdentifier package) (sourceName : Option String)

include hpackage

/-- Where a word of another kind starts no declaration is read, and so no file. -/
theorem behindClause_eq_none {text : String} (himport : firstWord text.toList ≠ "import".toList)
    (hword : firstWord text.toList ∉ ["type".toList, "const".toList, "var".toList, "func".toList])
    (hmore : behindBreaks text.toList ≠ []) : behindClause package sourceName text = none := by
  cases hfile : behindClause package sourceName text with
  | none => rfl
  | some file =>
      obtain ⟨groups, hdeclares, -⟩ :=
        (behindClause_eq_some_iff_declares hpackage sourceName (refuses_importDecl himport)).mp hfile
      exact absurd (hdeclares.behindBreaks_eq_nil hword) hmore

/-- What an operator ends a line with is all of the initialiser: the text behind the break is read as if
it stood there alone, and where it starts no declaration the file cannot be read. Without the break all of
the line is the initialiser. -/
theorem behindClause_initialiser {form : Initialised} {front more : String} (hfront : form.Takes front)
    (hmore : Sealed form.stops more.toList) (indent rest : String)
    (hrest : firstWord rest.toList ≠ "import".toList)
    (hnext : firstWord (indent ++ more ++ "\n" ++ rest).toList ≠ "import".toList) :
    behindClause package sourceName (form.header ++ (front ++ " " ++ more) ++ "\n" ++ rest) =
        (behindClause package sourceName rest).map
          (withFront [form.declared (front ++ " " ++ more)]) ∧
      behindClause package sourceName (form.header ++ front ++ "\n" ++ (indent ++ more ++ "\n" ++ rest)) =
        (behindClause package sourceName (indent ++ more ++ "\n" ++ rest)).map
          (withFront [form.declared front]) ∧
      (firstWord (indent ++ more ++ "\n" ++ rest).toList ∉
          ["type".toList, "const".toList, "var".toList, "func".toList] →
        behindBreaks (indent ++ more ++ "\n" ++ rest).toList ≠ [] →
          behindClause package sourceName
            (form.header ++ front ++ "\n" ++ (indent ++ more ++ "\n" ++ rest)) = none) := by
  have hcons {text : String} (h : form.Takes text) {behind : String}
      (himport : firstWord behind.toList ≠ "import".toList) :
      behindClause package sourceName (form.header ++ text ++ "\n" ++ behind) =
        (behindClause package sourceName behind).map (withFront [form.declared text]) := by
    have hdecl := chunk_initialised h
    rw [show ['\n'] = "\n".toList from rfl, ← String.toList_append] at hdecl
    rw [behindClause_cons hpackage sourceName hdecl himport, form.bare_declared]
  refine ⟨hcons (hfront.append_blank hmore) hrest, hcons hfront hnext, fun hword hmore => ?_⟩
  rw [hcons hfront hnext, behindClause_eq_none hpackage sourceName hnext hword hmore]
  rfl

omit hpackage in
/-- A sum over two lines: the first is all of the constant, and no declaration starts with a number. -/
theorem behindClause_initialiser_sum :
    Initialised.Takes "1 +" (.const "A") ∧ Sealed (Initialised.stops (.const "A")) "2".toList ∧
      firstWord ("\t" ++ "2" ++ "\n" ++ "").toList = ['2'] ∧
      behindBreaks ("\t" ++ "2" ++ "\n" ++ "").toList ≠ [] ∧
      behindClause "p" none (Initialised.header (.const "A") ++ ("1 +" ++ " " ++ "2") ++ "\n" ++ "") =
        (behindClause "p" none "").map
          (withFront [Initialised.declared ("1 +" ++ " " ++ "2") (.const "A")]) ∧
      behindClause "p" none
        (Initialised.header (.const "A") ++ "1 +" ++ "\n" ++ ("\t" ++ "2" ++ "\n" ++ "")) = none := by
  have hfront : Initialised.Takes "1 +" (.const "A") := by
    refine ⟨?_, by decide, '1', [' ', '+'], by decide, by decide⟩
    exact .character (by decide) (by decide) (by decide) (by decide) <|
      .character (by decide) (by decide) (by decide) (by decide) <|
      .character (by decide) (by decide) (by decide) (by decide) .nil
  have hmore : Sealed (Initialised.stops (.const "A")) "2".toList :=
    .character (by decide) (by decide) (by decide) (by decide) .nil
  have hword : firstWord ("\t" ++ "2" ++ "\n" ++ "").toList = ['2'] := by decide +kernel
  have hbehind : behindBreaks ("\t" ++ "2" ++ "\n" ++ "").toList ≠ [] := by decide +kernel
  have hbreak := behindClause_initialiser (by decide : IsIdentifier "p") none hfront hmore
    "\t" "" (by decide +kernel) (by rw [hword]; decide)
  exact ⟨hfront, hmore, hword, hbehind, hbreak.1, hbreak.2.2 (by rw [hword]; decide) hbehind⟩

omit hpackage in
/-- A line break behind an operator makes a file unreadable. -/
theorem parse_operator_break :
    (SourceFile.parse "package p\nconst A = 1 + 2\n" none).toOption.map
        (fun file => file.constSpecs.map ConstSpec.values) = some [["1 + 2"]] ∧
      (SourceFile.parse "package p\nconst A = 1 +\n\t2\n" none).isOk = false := by
  decide +kernel

theorem behindClause_varBlock {front more : String}
    (hfront : Initialised.Takes front .var) (hmore : IsVarLine more) {rest : String}
    (hrest : firstWord rest.toList ≠ "import".toList) :
    behindClause package sourceName (String.ofList (varBlock [front ++ " " ++ more]) ++ rest) =
        (behindClause package sourceName rest).map
          (withFront (varDeclarations [front ++ " " ++ more])) ∧
      behindClause package sourceName (String.ofList (varBlock [front, more]) ++ rest) =
        (behindClause package sourceName rest).map (withFront (varDeclarations [front, more])) := by
  have hcons {lines : List String} (h : ∀ line ∈ lines, IsVarLine line) (hne : lines ≠ []) :
      behindClause package sourceName (String.ofList (varBlock lines) ++ rest) =
        (behindClause package sourceName rest).map (withFront (varDeclarations lines)) := by
    have hdecl := chunk_varBlock h hne
    rw [← String.toList_ofList (l := varBlock lines)] at hdecl
    rw [behindClause_cons hpackage sourceName hdecl hrest, bare_varDeclarations]
  refine ⟨hcons ?_ (by simp), hcons ?_ (by simp)⟩
  · simpa using (hfront.append_blank hmore.1).isVarLine
  · simpa using ⟨hfront.isVarLine, hmore⟩

end GoTrace.SourceFile
