import GoTrace.Proofs.Grammar.Keyword

/-!
# Specs one by one and in parentheses

Where the text of every spec ends by itself, it makes no difference whether specs stand in parentheses
behind one keyword or behind one keyword each: a file with nothing else has them in the order in which
they stand.
-/

namespace GoTrace.Grammar

open GoTrace.Lexeme GoTrace.Parser

/-! ## Files of one kind of declarations -/

/-- Imports and then declarations, whatever keywords they stand behind. -/
def allSpecs (imports : List (List ImportSpec)) (groups : List (List Declaration)) :
    List (ImportSpec ⊕ Declaration) :=
  imports.flatten.map .inl ++ groups.flatten.map .inr

/-- Behind a package clause the text is these imports and declarations. -/
def Lists (text : List Char) (found : List (ImportSpec ⊕ Declaration)) : Prop :=
  ∃ imports groups, Contains text imports groups ∧ found = bare (allSpecs imports groups)

/-- A file may have nothing but what one rule declares, and what a file starts with that rule has found. -/
structure Level {β : Type} [Placed β] (word : String) (decl : Parser (List β))
    (inject : β → ImportSpec ⊕ Declaration) : Prop where
  lists : ∀ {lines : List (List Char)} {groups : List (List β)},
    List.Forall₂ (Line decl) lines (groups.map Like) →
      Lists lines.flatten (bare (groups.flatten.map inject))
  finds : ∀ {text : List Char} {found : List (ImportSpec ⊕ Declaration)},
    wordAhead text = word.toList → LineStart text → Lists text found → found ≠ [] →
      ∃ start values next others, Finds decl .spaced ⟨text, start⟩ values next ∧ AtLineEnd next.rest ∧
        found = bare (values.map inject) ++ others

theorem exists_finds_of_rounds {β : Type} [Placed β] {decl : Parser (List β)} {text last : List Char}
    {group : List β} {accepts : List (List β → Prop)} (hstart : LineStart text)
    (h : Rounds (do gap; onNewLine decl) .spaced ('\n' :: text) (Like group :: accepts) last)
    (hlast : AtLineEnd last) :
    ∃ start values next, Finds decl .spaced ⟨text, start⟩ values next ∧ AtLineEnd next.rest ∧
      bare values = bare group := by
  cases h with
  | step hfirst _ hothers =>
      obtain ⟨start, values, next, hfound, rfl, hlike⟩ := (endsLine_newline text).exists_finds hfirst
      rw [hstart.behindBreaks_eq] at hfound
      exact ⟨start, values, next, hfound, atLineEnd_of_rounds hothers hlast, hlike⟩

theorem level_imports : Level "import" importDecl .inl where
  lists {lines groups} h := by
    have hend : behindBreaks [] = [] := behindBreaks_nil
    obtain ⟨middle, himports, hmiddle⟩ := rounds_lines h
      (refuses_importDecl (by rw [hend]; decide)) (by rw [List.append_nil]; exact endsLine_newline _)
    have hlast : behindBreaks (skipBlanks middle) = [] := hmiddle.blanks.first.trans hend
    have hnone : Refuses topLevelDecl .spaced (behindBreaks (skipBlanks middle)) :=
      refuses_topLevelDecl (by rw [hlast]; decide)
    refine ⟨groups, [], ⟨middle, _, himports, rounds_stop hnone, hlast⟩, ?_⟩
    rw [allSpecs, List.flatten_nil, List.map_nil, List.append_nil]
  finds {text found} hword hstart hlists hne := by
    obtain ⟨imports, groups, ⟨middle, last, himports, hgroups, hlast⟩, rfl⟩ := hlists
    have hmiddle := (atLineEnd_of_rounds hgroups (atLineEnd_of_behindBreaks hlast)).of_blanks
    cases imports with
    | nil =>
        cases himports
        have hnone : Refuses topLevelDecl .spaced (behindBreaks (skipBlanks ('\n' :: text))) := by
          rw [behindBreaks_skipBlanks, behindBreaks_break (by decide), hstart.behindBreaks_eq]
          exact refuses_topLevelDecl (by rw [hword]; decide)
        obtain ⟨hnil, -⟩ := Rounds.of_refuses hgroups hnone
        rw [List.map_eq_nil_iff.mp hnil] at hne
        exact absurd rfl hne
    | cons group imports =>
        obtain ⟨start, values, next, hfound, hnext, heq⟩ := exists_finds_of_rounds hstart himports hmiddle
        refine ⟨start, values, next, bare (allSpecs imports groups), hfound, hnext, ?_⟩
        rw [bare_map_congr Sum.inl (fun _ => rfl) heq, ← bare_append]
        simp [allSpecs]

theorem level_declarations {word : String} (hne : word ≠ "import") : Level word topLevelDecl .inr where
  lists {lines groups} h := by
    have hend : behindBreaks [] = [] := behindBreaks_nil
    obtain ⟨last, hgroups, hlast⟩ := rounds_lines h
      (refuses_topLevelDecl (by rw [hend]; decide)) (by rw [List.append_nil]; exact endsLine_newline _)
    refine ⟨[], groups, (contains_iff (refuses_imports h)).mpr
      ⟨rfl, last, hgroups, hlast.first.trans hend⟩, rfl⟩
  finds {text found} hword hstart hlists hsome := by
    obtain ⟨imports, groups, hcontains, rfl⟩ := hlists
    have himport : Refuses importDecl .spaced (behindBreaks text) := by
      rw [hstart.behindBreaks_eq]
      refine refuses_importDecl ?_
      rw [hword]
      exact fun heq => hne (String.toList_injective heq)
    obtain ⟨rfl, last, hgroups, hlast⟩ := (contains_iff himport).mp hcontains
    cases groups with
    | nil => exact absurd rfl hsome
    | cons group groups =>
        obtain ⟨start, values, next, hfound, hnext, heq⟩ :=
          exists_finds_of_rounds hstart hgroups (atLineEnd_of_behindBreaks hlast)
        refine ⟨start, values, next, bare (allSpecs [] groups), hfound, hnext, ?_⟩
        rw [bare_map_congr Sum.inr (fun _ => rfl) heq, ← bare_append]
        simp [allSpecs]

/-- Where each spec is read alone behind its keyword, all are read in parentheses, and one by one. -/
theorem Groups.lists {α β : Type} [Placed α] [Placed β] {declRule wordRule : Rule} {word : String}
    {spec : Parser α} [Advances spec] {decl : Parser (List β)} {wrap : α → β} {zone left : Zone}
    {inject : β → ImportSpec ⊕ Declaration}
    (h : Groups declRule wordRule word spec decl wrap zone left) (hlevel : Level word decl inject)
    {texts : List (List Char)} {found : List (ImportSpec ⊕ Declaration)} (hne : texts ≠ [])
    (hspecs : List.Forall₂ (fun text spec => SpecText zone text ∧
      Lists (word.toList ++ ' ' :: (text ++ ['\n'])) [spec]) texts found) :
    Lists (word.toList ++ ' ' :: '(' :: '\n' :: ((texts.map (· ++ ['\n'])).flatten ++ [')', '\n']))
        found ∧
      Lists (texts.map fun text => word.toList ++ ' ' :: (text ++ ['\n'])).flatten found := by
  obtain ⟨values, hlines, hdecls, rfl⟩ : ∃ values : List α,
      List.Forall₂ (Line spec) (texts.map (· ++ ['\n'])) (values.map Like) ∧
      List.Forall₂ (Line decl) (texts.map fun text => word.toList ++ ' ' :: (text ++ ['\n']))
        ((values.map fun value => [wrap value]).map Like) ∧
      found = bare ((values.map wrap).map inject) := by
    clear hne
    induction hspecs with
    | nil => exact ⟨[], .nil, .nil, rfl⟩
    | @cons text spec texts found hspec _ ih =>
        obtain ⟨values, hlines, hdecls, rfl⟩ := ih
        obtain ⟨htext, hlists⟩ := hspec
        have hahead : wordAhead (word.toList ++ ' ' :: (text ++ ['\n'])) = word.toList :=
          wordAhead_append h.isWord (by decide : isIdentChar ' ' = false)
        obtain ⟨start, first, next, others, hfound, hnext, heq⟩ :=
          hlevel.finds hahead (h.lineStart _) hlists (List.cons_ne_nil _ _)
        obtain ⟨value, rfl, hline⟩ := h.exists_line htext hfound hnext
        obtain ⟨rfl, -⟩ := List.cons.inj heq
        exact ⟨value :: values, .cons hline hlines, .cons (h.single htext hline) hdecls, rfl⟩
  constructor
  · have hblock : List.Forall₂ (Line decl) [_] ([values.map wrap].map Like) :=
      .cons (h.block (by simpa using hne) hlines) .nil
    simpa using hlevel.lists hblock
  · have hsingles := hlevel.lists hdecls
    have hflatten : (values.map fun value => [wrap value]).flatten = values.map wrap := by
      rw [← List.flatMap_def, List.map_eq_flatMap]
    rwa [hflatten] at hsingles

/-- The four kinds of specs. -/
inductive SpecKind where
  | imports
  | types
  | consts
  | vars
deriving DecidableEq

namespace SpecKind

def word : SpecKind → String
  | imports => "import"
  | types => "type"
  | consts => "const"
  | vars => "var"

def zone : SpecKind → Zone
  | imports => .free
  | types => .typed
  | consts => .constant
  | vars => .free

/-- The text of a spec: it starts with an identifier or, for imports, with a dot or a string literal, and
all brackets, literals and comments in it end in it. -/
structure IsSpec (kind : SpecKind) (text : String) : Prop where
  starts : (identifier? text.toList).isSome = true ∨
    kind = imports ∧ ∃ c ∈ ['.', '"', '\x60'], text.toList.head? = some c
  nested : Nested kind.zone [] (text.toList ++ ['\n'])

theorem IsSpec.specText {kind : SpecKind} {text : String} (h : IsSpec kind text) :
    SpecText kind.zone text.toList := by
  refine ⟨?_, h.nested⟩
  obtain hidentifier | ⟨-, c, hc, hhead⟩ := h.starts
  · obtain ⟨count, hcount⟩ := Option.isSome_iff_exists.mp hidentifier
    obtain ⟨name, rest, hname, -, heq⟩ := exists_append_of_identifier? hcount
    obtain ⟨c, tail, hchars, hc⟩ := hname.exists_cons
    refine ⟨c, tail ++ rest, by rw [heq, hchars, List.cons_append], ?_⟩
    have hmarks (d : Char) (hd : isIdentStart d = false) : c ≠ d := by
      rintro rfl
      exact absurd (hc.symm.trans hd) (by decide)
    simp [startsSpec, Descriptor.isSolid_of_isIdentStart hc, hmarks ';' (by decide),
      hmarks '\n' (by decide), hmarks '\r' (by decide), hmarks '(' (by decide)]
  · obtain ⟨tail, heq⟩ := List.head?_eq_some_iff.mp hhead
    have hstarts : (['.', '"', '\x60'].all startsSpec) = true := by decide
    exact ⟨c, tail, heq, List.all_eq_true.mp hstarts c hc⟩

def single (kind : SpecKind) (text : String) : String :=
  kind.word ++ " " ++ text ++ "\n"

def grouped (kind : SpecKind) (texts : List String) : String :=
  kind.word ++ " (\n" ++ String.join (texts.map (· ++ "\n")) ++ ")\n"

def separate (kind : SpecKind) (texts : List String) : String :=
  String.join (texts.map kind.single)

end SpecKind

end GoTrace.Grammar

namespace GoTrace.SourceFile

open Lexeme Grammar GoTrace.Parser

/-- The specs of a file: its imports, and then its other declarations. -/
def specs (file : SourceFile) : List (ImportSpec ⊕ Declaration) :=
  file.imports.map .inl ++ file.declarations.map .inr

variable {package : String} (hpackage : IsIdentifier package) (sourceName : Option String)

/-- The specs of a file behind a package clause, without their spans. -/
def specsBehind (package : String) (sourceName : Option String) (text : String) :
    Option (List (ImportSpec ⊕ Declaration)) :=
  (behindClause package sourceName text).map specs

include hpackage

theorem specsBehind_eq_some_iff {text : String} {found : List (ImportSpec ⊕ Declaration)} :
    specsBehind package sourceName text = some found ↔ Lists text.toList found := by
  have hbare (imports : List (List ImportSpec)) (groups : List (List Declaration)) :
      bare (allSpecs imports groups) =
        (bare imports.flatten).map .inl ++ (bare groups.flatten).map .inr := by
    rw [allSpecs, bare_append, bare_list, bare_list, bare_list, bare_list, List.map_map, List.map_map,
      List.map_map, List.map_map]
    rfl
  rw [specsBehind, Option.map_eq_some_iff]
  constructor
  · rintro ⟨file, hfile, rfl⟩
    obtain ⟨imports, groups, hcontains, rfl⟩ := (behindClause_eq_some_iff hpackage sourceName).mp hfile
    exact ⟨imports, groups, hcontains, (hbare imports groups).symm⟩
  · rintro ⟨imports, groups, hcontains, rfl⟩
    exact ⟨_, (behindClause_eq_some_iff hpackage sourceName).mpr ⟨imports, groups, hcontains, rfl⟩,
      (hbare imports groups).symm⟩

/-- Grouping is transparent: where the text of every spec ends by itself and is read as one spec behind its
keyword, all of them are read in this order, both in parentheses behind one keyword and behind one keyword
each. -/
theorem specsBehind_grouped {kind : SpecKind} {texts : List String}
    {found : List (ImportSpec ⊕ Declaration)} (hne : texts ≠ [])
    (h : List.Forall₂ (fun text spec => kind.IsSpec text ∧
      specsBehind package sourceName (kind.single text) = some [spec]) texts found) :
    specsBehind package sourceName (kind.grouped texts) = some found ∧
      specsBehind package sourceName (kind.separate texts) = some found := by
  have hsingle (text : String) :
      (kind.single text).toList = kind.word.toList ++ ' ' :: (text.toList ++ ['\n']) := by
    simp [SpecKind.single]
  have hgrouped : (kind.grouped texts).toList = kind.word.toList ++ ' ' :: '(' :: '\n' ::
      (((texts.map String.toList).map (· ++ ['\n'])).flatten ++ [')', '\n']) := by
    simp [SpecKind.grouped, String.toList_join, List.flatMap, Function.comp_def]
  have hseparate : (kind.separate texts).toList =
      ((texts.map String.toList).map fun text => kind.word.toList ++ ' ' :: (text ++ ['\n'])).flatten := by
    simp [SpecKind.separate, SpecKind.single, String.toList_join, List.flatMap, Function.comp_def]
  simp only [specsBehind_eq_some_iff hpackage, hsingle] at h
  rw [specsBehind_eq_some_iff hpackage, specsBehind_eq_some_iff hpackage, hgrouped, hseparate]
  have hspecs : List.Forall₂ (fun text spec => SpecText kind.zone text ∧
      Lists (kind.word.toList ++ ' ' :: (text ++ ['\n'])) [spec]) (texts.map String.toList) found := by
    rw [List.forall₂_map_left_iff]
    exact h.imp fun _ _ hspec => ⟨hspec.1.specText, hspec.2⟩
  have hne : texts.map String.toList ≠ [] := by simpa using hne
  cases kind with
  | imports => exact groups_imports.lists level_imports hne hspecs
  | types => exact groups_types.lists (level_declarations (by decide)) hne hspecs
  | consts => exact groups_constants.lists (level_declarations (by decide)) hne hspecs
  | vars => exact groups_variables.lists (level_declarations (by decide)) hne hspecs

omit hpackage in
/-- A struct over three lines, and an alias with an apostrophe in the comment behind it. -/
theorem specsBehind_grouped_struct :
    SpecKind.types.IsSpec "A struct \x7b\n\tB []int\n\x7d" ∧ SpecKind.types.IsSpec "C = string // it's" ∧
      ∃ first second,
        specsBehind "p" none (SpecKind.types.single "A struct \x7b\n\tB []int\n\x7d") = some [first] ∧
        specsBehind "p" none (SpecKind.types.single "C = string // it's") = some [second] ∧
        specsBehind "p" none (SpecKind.types.grouped
          ["A struct \x7b\n\tB []int\n\x7d", "C = string // it's"]) = some [first, second] ∧
        specsBehind "p" none (SpecKind.types.separate
          ["A struct \x7b\n\tB []int\n\x7d", "C = string // it's"]) = some [first, second] := by
  have hstruct : SpecKind.types.IsSpec "A struct \x7b\n\tB []int\n\x7d" := by
    refine ⟨.inl (by decide), ?_⟩
    have hchars : "A struct \x7b\n\tB []int\n\x7d".toList ++ ['\n'] =
        "A struct ".toList ++ '\x7b' :: '\n' ::
          ("\tB ".toList ++ '[' :: ']' :: ("int".toList ++ '\n' :: '\x7d' :: ['\n'])) := by decide
    rw [hchars]
    refine .append (by decide) (.opening (by decide : ('\x7b', '\x7d') ∈ groupMarks) ?_)
    refine .character (by decide) (by decide) nofun (.append (by decide) ?_)
    refine .opening (by decide : ('[', ']') ∈ groupMarks) (.closing (by decide) (.append (by decide) ?_))
    refine .character (by decide) (by decide) nofun (.closing (by decide) ?_)
    exact .ending (by decide) fun more => rfl
  have halias : SpecKind.types.IsSpec "C = string // it's" := by
    refine ⟨.inl (by decide), ?_⟩
    have hchars : "C = string // it's".toList ++ ['\n'] =
        "C ".toList ++ '=' :: (" string ".toList ++ '/' :: '/' :: (" it's".toList ++ ['\n'])) := by decide
    rw [hchars]
    refine .append (by decide) (.character (by decide) (by decide) (fun _ => by decide) ?_)
    refine .append (by decide) (.lineComment (by decide) (by decide) (fun _ h => absurd h (by decide)) ?_)
    exact .ending (by decide) fun more => rfl
  have hone {text : String} (h : (specsBehind "p" none text).map List.length = some 1) :
      ∃ spec, specsBehind "p" none text = some [spec] := by
    obtain ⟨found, hfound, hlength⟩ := Option.map_eq_some_iff.mp h
    obtain ⟨spec, rfl⟩ := List.length_eq_one_iff.mp hlength
    exact ⟨spec, hfound⟩
  obtain ⟨first, hfirst⟩ : ∃ spec, specsBehind "p" none
      (SpecKind.types.single "A struct \x7b\n\tB []int\n\x7d") = some [spec] :=
    hone (by decide +kernel)
  obtain ⟨second, hsecond⟩ : ∃ spec, specsBehind "p" none
      (SpecKind.types.single "C = string // it's") = some [spec] :=
    hone (by decide +kernel)
  have hall := specsBehind_grouped (by decide : IsIdentifier "p") none (List.cons_ne_nil _ _)
    (.cons ⟨hstruct, hfirst⟩ (.cons ⟨halias, hsecond⟩ .nil))
  exact ⟨hstruct, halias, first, second, hfirst, hsecond, hall⟩

omit hpackage in
/-- All brackets, literals and comments of this text end in it, but the literal and the comment are not
told from the length of the array: the parenthesis in the one is closed only behind the other, where the
parenthesis of the declaration is taken for its end. -/
theorem specsBehind_grouped_length :
    (identifier? "T ['(']int // it's 40".toList).isSome = true ∧
      Nested .free [] ("T ['(']int // it's 40".toList ++ ['\n']) ∧
      (specsBehind "p" none (SpecKind.types.single "T ['(']int // it's 40")).map List.length = some 1 ∧
      (specsBehind "p" none (SpecKind.types.grouped ["T ['(']int // it's 40"])).isSome = false := by
  refine ⟨by decide, ?_, by decide +kernel, by decide +kernel⟩
  have hchars : "T ['(']int // it's 40".toList ++ ['\n'] = "T ".toList ++ '[' :: '\'' :: (['(', '\''] ++
      ']' :: ("int ".toList ++ '/' :: '/' :: (" it's 40".toList ++ ['\n']))) := by decide
  rw [hchars]
  refine .append (by decide) (.opening (by decide : ('[', ']') ∈ groupMarks) ?_)
  have hliteral : IsLiteral ['\'', '(', '\''] :=
    .character (.plain (by decide) (by decide) (by decide) .nil : Inside '\'' ['('])
  refine .literal hliteral (fun h => absurd rfl h) ?_
  refine .closing (by decide) (.append (by decide) ?_)
  exact .lineComment (by decide) (by decide) (fun h => absurd rfl h) (.ending (by decide) fun more => rfl)

end GoTrace.SourceFile
