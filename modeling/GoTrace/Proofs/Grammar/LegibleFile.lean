import GoTrace.Grammar.File
import GoTrace.Proofs.Grammar.Legible

/-!
# What a source file is made of

Every type that a file declares has an identifier for its name and is legible. The package clause is
read in the same way whether or not the rest of the file is.
-/

namespace GoTrace

open Lexeme

/-- A type declaration with an identifier for its name, whose type is legible. -/
def TypeSpec.Legible (spec : TypeSpec) : Prop :=
  IsIdentifier spec.name.name ∧ spec.type.Legible

/-- A declaration which is legible if it is one of a type. -/
def Declaration.Legible : Declaration → Prop
  | .type spec => spec.Legible
  | _ => True

/-- A file whose package name is an identifier and whose declarations are legible. -/
def SourceFile.Legible (file : SourceFile) : Prop :=
  IsIdentifier file.package.name ∧ ∀ decl ∈ file.declarations, decl.Legible

theorem SourceFile.Legible.typeSpecs {file : SourceFile} (h : file.Legible) {spec : TypeSpec}
    (hspec : spec ∈ file.typeSpecs) : spec.Legible := by
  obtain ⟨decl, hdecl, heq⟩ := List.mem_filterMap.mp hspec
  have hlegible := h.2 decl hdecl
  cases decl with
  | type found =>
      cases heq
      exact hlegible
  | const => cases heq
  | var => cases heq
  | func => cases heq

namespace Grammar

open GoTrace.Parser

theorem packageClause_yields : Yields packageClause fun ident => IsIdentifier ident.name :=
  .rule (.after fun _ => .after fun _ => identifier_yields)

theorem typeSpec_yields : Yields typeSpec TypeSpec.Legible := by
  refine Yields.node (fun value => IsIdentifier value.1.name ∧ value.2.2.2.Legible) ?_ ?_
  · refine identifier_yields.bind fun name hname => .after fun _ => .after fun _ => ?_
    refine .after fun _ => .after fun _ => .after fun _ => ?_
    exact typeExpr_yields.bind fun type htype => .pure ⟨hname, htype⟩
  · rintro ⟨name, params, marker, type⟩ span hvalue
    exact .pure hvalue

theorem topLevelDecl_yields :
    Yields topLevelDecl fun decls => ∀ decl ∈ decls, decl.Legible := by
  refine .orElse ?type (.orElse ?const (.orElse ?var ?func))
  case type =>
    refine (specs_yields typeSpec_yields _ _ _).bind fun specs hspecs => .pure ?_
    intro decl hdecl
    obtain ⟨spec, hspec, rfl⟩ := List.mem_map.mp hdecl
    exact hspecs spec hspec
  case const =>
    refine .after fun specs => .pure fun decl hdecl => ?_
    obtain ⟨spec, -, rfl⟩ := List.mem_map.mp hdecl
    exact trivial
  case var =>
    refine .after fun specs => .pure fun decl hdecl => ?_
    obtain ⟨spec, -, rfl⟩ := List.mem_map.mp hdecl
    exact trivial
  case func =>
    refine .after fun found => .pure fun decl hdecl => ?_
    obtain rfl := List.mem_singleton.mp hdecl
    exact trivial

theorem sourceFile_yields (sourceName : Option String) :
    Yields (sourceFile sourceName) SourceFile.Legible := by
  refine Yields.node (fun value => IsIdentifier value.1.name ∧
    ∀ decl ∈ value.2.2, decl.Legible) ?_ ?_
  · refine .after fun _ => .after fun _ => .after fun _ => ?_
    refine packageClause_yields.bind fun package hpackage => .after fun _ => .after fun _ =>
      .after fun _ => ?_
    have hdecls := repeated_yields (p := do separator; gap; topLevelDecl)
      (.after fun _ => .after fun _ => topLevelDecl_yields)
    refine hdecls.bind fun groups hgroups => .after fun _ => .after fun _ => .after fun _ =>
      .after fun _ => .pure ⟨hpackage, ?_⟩
    intro decl hdecl
    obtain ⟨decls, hdecls, hdecl⟩ := List.mem_flatten.mp hdecl
    exact hgroups decls hdecls decl hdecl
  · rintro ⟨package, imports, declarations⟩ span hvalue
    exact .pure hvalue

/-! ## The package clause -/

theorem exists_of_found_bind {α β : Type} {p : Parser α} {f : α → Parser β} {mode : Mode}
    {cursor : Cursor} {found : Found β} (h : ((p >>= f) mode cursor).found = some found)
    (hfault : found.fault = none) :
    ∃ first second, (p mode cursor).found = some first ∧ first.fault = none ∧
      (f first.value mode first.next).found = some second ∧ second.fault = none ∧
      second.value = found.value := by
  rw [found_bind] at h
  obtain ⟨first, hfirst, h⟩ := Option.bind_eq_some_iff.mp h
  obtain ⟨second, hsecond, rfl⟩ := Option.map_eq_some_iff.mp h
  have hnone : (first.fault <|> second.fault) = none := hfault
  cases hfirstFault : first.fault with
  | some fault =>
      rw [hfirstFault] at hnone
      cases hnone
  | none =>
      rw [hfirstFault] at hnone
      exact ⟨first, second, hfirst, hfirstFault, hsecond, hnone, rfl⟩

theorem found_bind_some {α β : Type} {p : Parser α} {f : α → Parser β} {mode : Mode}
    {cursor : Cursor} {first : Found α} {second : Found β}
    (h : (p mode cursor).found = some first) (hfault : first.fault = none)
    (h' : (f first.value mode first.next).found = some second) :
    ((p >>= f) mode cursor).found = some second := by
  obtain ⟨value, next, fault⟩ := first
  obtain rfl : fault = none := hfault
  rw [found_bind, h, Option.bind_some, h']
  rfl

theorem packageHeader_of_sourceFile {sourceName : Option String} {mode : Mode} {cursor : Cursor}
    {found : Found SourceFile} (h : (sourceFile sourceName mode cursor).found = some found)
    (hfault : found.fault = none) :
    ∃ header, (packageHeader mode cursor).found = some header ∧ header.fault = none ∧
      header.value = found.value.package := by
  obtain ⟨whole, built, hwhole, hwholeFault, hbuilt, -, hvalue⟩ := exists_of_found_bind h hfault
  rw [found_spanned] at hwhole
  obtain ⟨parts, hparts, rfl⟩ := Option.map_eq_some_iff.mp hwhole
  rw [found_rule] at hparts
  obtain ⟨first, _, hfirst, hfirstFault, hsecond, hfault, hvalue₁⟩ :=
    exists_of_found_bind hparts hwholeFault
  obtain ⟨second, _, hsecond, hsecondFault, hthird, hfault, hvalue₂⟩ :=
    exists_of_found_bind hsecond hfault
  obtain ⟨third, _, hthird, hthirdFault, hclause, hfault, hvalue₃⟩ :=
    exists_of_found_bind hthird hfault
  obtain ⟨clause, others, hclause, hclauseFault, hothers, -, hvalue₄⟩ :=
    exists_of_found_bind hclause hfault
  refine ⟨clause, ?_, hclauseFault, ?_⟩
  · rw [packageHeader, found_rule]
    exact found_bind_some hfirst hfirstFault
      (found_bind_some hsecond hsecondFault (found_bind_some hthird hthirdFault hclause))
  · have hpackage : Yields (do
        gap
        let imports ← repeated do
          separator
          gap
          importDecl
        gap
        let declarations ← repeated do
          separator
          gap
          topLevelDecl
        gap
        let _ ← optional separator
        gap
        rule .endOfInput atEnd
        return (clause.value, imports.flatten, declarations.flatten))
          fun value => value.1 = clause.value :=
      .after fun _ => .after fun _ => .after fun _ => .after fun _ => .after fun _ =>
        .after fun _ => .after fun _ => .after fun _ => .pure rfl
    have hsame := hpackage hothers
    rw [hvalue₄, hvalue₃, hvalue₂, hvalue₁] at hsame
    rw [← hvalue]
    cases hbuilt
    exact hsame.symm

end Grammar

open Grammar GoTrace.Parser

theorem SourceFile.packageName_of_parse {text : String} {sourceName : Option String}
    {file : SourceFile} (h : SourceFile.parse text sourceName = .ok file) :
    SourceFile.packageName text = .ok file.package.name := by
  unfold SourceFile.parse run at h
  dsimp only at h
  split at h <;> cases h
  rename_i hreply
  obtain ⟨⟨value, next, fault⟩, hheader, hfault, hvalue⟩ :=
    packageHeader_of_sourceFile (congrArg Reply.found hreply) rfl
  obtain rfl : fault = none := hfault
  have hrun : packageHeader.run ParseError.unnamedSource text = .ok value := by
    have hreply : packageHeader .spaced (Cursor.ofText text.toList) =
        ⟨some ⟨value, next, none⟩, (packageHeader .spaced (Cursor.ofText text.toList)).furthest⟩ := by
      rw [← hheader]
    unfold run
    dsimp only
    rw [hreply]
  rw [SourceFile.packageName, hrun, ← hvalue]
  rfl

theorem SourceFile.legible_of_parse {text : String} {sourceName : Option String}
    {file : SourceFile} (h : SourceFile.parse text sourceName = .ok file) : file.Legible :=
  (sourceFile_yields sourceName).of_run h

end GoTrace
