import GoTrace.Proofs.Grammar.Nested
import GoTrace.Proofs.Grammar.Sequence
import GoTrace.Proofs.Parser.Finds
import GoTrace.Proofs.Parser.Outlines

/-!
# Everything in a source file stands where its span says

The rules of the grammar put the nodes of what they read in order, each rule those of its parts. So the
outline of a file that is read is well placed in its text.
-/

namespace GoTrace

namespace Grammar

open GoTrace.Parser

set_option synthInstance.maxSize 32768

variable {α : Type} [Outlined α] {p : Parser α}

/-! ## Words and lists -/

theorem identifier_lays : Lays [] identifier outline := by
  refine .rule ((Lays.captured ?_ (fun taken => some (String.ofList taken)) ?_).bind fun read => .pure rfl)
  · exact .take fun _ _ => Lexeme.identifier?_bounds
  · intro taken ident hname
    exact Option.some.inj hname

theorem repeated_lays (h : Lays [] p outline) : Lays [] (repeated p) outline := by
  refine .orElse (.next h fun value => ?_) (.pure rfl)
  have hothers : Lays [] (many do gap; p) outline := .many (.after fun _ => h)
  exact .next hothers fun values => .pure (by simp)

theorem identifierList_lays : Lays [] identifierList outline := by
  refine .rule (.next identifier_lays fun first => .after fun _ => ?_)
  have hothers : Lays [] (repeated do mark ","; gap; identifier) outline :=
    repeated_lays (.after fun _ => .after fun _ => identifier_lays)
  exact .next hothers fun others => .pure (by simp)

theorem block_lays (h : Lays [] p outline) (opening closing : String) :
    Lays [] (block opening closing p) outline := by
  refine .after fun _ => .after fun _ => .after fun _ => .after fun _ => ?_
  have hspecs : Lays [] (do
      let first ← p
      gap
      let others ← repeated do
        separator
        gap
        p
      return first :: others) outline := by
    refine .next h fun first => .after fun _ => ?_
    have hothers : Lays [] (repeated do separator; gap; p) outline :=
      repeated_lays (.after fun _ => .after fun _ => h)
    exact .next hothers fun others => .pure (by simp)
  exact .next hspecs.optional fun specs => .after fun _ => .after fun _ => .after fun _ =>
    .after fun _ => .pure (by simp)

theorem specs_lays (h : Lays [] p outline) (decl word : Rule) (text : String) :
    Lays [] (specs decl word text p) outline :=
  .rule <| .after fun _ => .after fun _ => .orElse (block_lays h "(" ")") <|
    .next h fun value => .pure (by simp)

theorem listed_lays (h : Lays [] p outline) (opening closing : String) :
    Lays [] (listed opening closing p) outline := by
  refine .after fun _ => .after fun _ => .after fun _ => .after fun _ => ?_
  refine .next h fun first => .after fun _ => ?_
  have hothers : Lays [] (repeated do
      mark ","
      gap
      let _ ← optional newlines
      gap
      p) outline :=
    repeated_lays (.after fun _ => .after fun _ => .after fun _ => .after fun _ => h)
  refine .next hothers fun others => ?_
  iterate 6 refine .after fun _ => ?_
  exact .pure (by simp)

theorem identifierList_spends : Spends identifierList fun _ => 1 :=
  .rule (.before identifier_spends)

/-! ## Types -/

section

variable {type : Parser TypeExpr} (htype : Lays [] type outline)

include htype

theorem pointerType_lays : Lays [] (pointerType type) outline :=
  .rule <| .after fun _ => .after fun _ => .next htype fun _ => .pure rfl

theorem sliceType_lays : Lays [] (sliceType type) outline :=
  .rule <| .after fun _ => .after fun _ => .after fun _ => .after fun _ =>
    .next htype fun _ => .pure rfl

theorem arrayType_lays : Lays [] (arrayType type) outline :=
  .rule <| .after fun _ => .after fun _ => .after fun _ => .after fun _ => .after fun _ =>
    .after fun _ => .next htype fun _ => .pure rfl

theorem mapType_lays : Lays [] (mapType type) outline := by
  refine .rule <| .after fun _ => .after fun _ => .after fun _ => .after fun _ => ?_
  exact .next htype fun key => .after fun _ => .after fun _ => .after fun _ =>
    .next htype fun value => .pure rfl

theorem chanType_lays : Lays [] (chanType type) outline := by
  refine .rule (.orElse (.rule ?receive) (.orElse (.rule ?send) (.rule ?both)))
  case receive =>
    exact .after fun _ => .after fun _ => .after fun _ => .after fun _ =>
      .next htype fun _ => .pure rfl
  case send =>
    exact .after fun _ => .after fun _ => .after fun _ => .after fun _ =>
      .next htype fun _ => .pure rfl
  case both =>
    exact .after fun _ => .after fun _ => .next htype fun _ => .pure rfl

theorem parenType_lays : Lays [] (parenType type) outline :=
  .rule <| .after fun _ => .after fun _ => .next htype fun _ => .after fun _ => .after fun _ => .pure rfl

theorem typeName_lays : Lays [] (typeName type) outline := by
  refine .rule (.after fun name => .after fun _ => ?_)
  have hargs : Lays [] (optional (rule .typeArgs (listed "[" "]" type))) outline :=
    .optional (.rule (listed_lays htype _ _))
  exact .next hargs fun args => .pure (by simp [outline_typeName])

theorem typeTerm_lays : Lays [] (typeTerm type) outline :=
  .rule <| .after fun _ => .after fun _ => .next htype fun _ => .pure rfl

theorem typeUnion_lays : Lays [] (typeUnion type) outline := by
  refine .rule (.next (typeTerm_lays htype) fun first => .after fun _ => ?_)
  have hothers : Lays [] (repeated do
      mark "|"
      gap
      let _ ← optional newlines
      gap
      typeTerm type) outline :=
    repeated_lays (.after fun _ => .after fun _ => .after fun _ => .after fun _ => typeTerm_lays htype)
  exact .next hothers fun others => .pure (by simp)

theorem fieldShape_lays : Lays [] (fieldShape type) outline := by
  refine .orElse (.rule (.next identifierList_lays fun names => .after fun _ => ?_)) (.rule ?_)
  · exact .next htype fun _ => .pure (by simp)
  · refine .after fun pointer => .after fun _ => .next (typeName_lays htype) fun name => .pure ?_
    cases pointer <;> rfl

variable [Advances type]

theorem fieldDecl_lays : Lays [] (fieldDecl type) outline := by
  have hshape : Lays [] (rule .fieldDecl do
      let shape ← fieldShape type
      gap
      let tag ← optional stringValue
      return (shape.1, shape.2, tag)) fun read => outline read.1 ++ outline read.2.1 :=
    .rule <| .next (fieldShape_lays htype) fun _ => .after fun _ => .after fun _ => .pure rfl
  refine (hshape.spanned ?_).bind fun ((names, inner, tag), span) => .pure rfl
  have hname : Spends (typeName type) fun _ => 1 := .rule (.before qualifiedIdent_spends)
  have hfield : Spends (fieldShape type) fun _ => 1 :=
    .orElse (.rule (.before identifierList_spends))
      (.rule (.after fun _ => .after fun _ => .before hname))
  exact .rule (.before hfield)

theorem structType_lays : Lays [] (structType type) outline :=
  .rule <| .after fun _ => .after fun _ =>
    .next (block_lays (fieldDecl_lays htype) _ _) fun fields => .pure (outline_struct fields)

variable (hspends : Spends type fun _ => 1)

include hspends

theorem parameterDecl_lays : Lays [] (parameterDecl type) outline := by
  have hshape : Lays [] (rule .parameterDecl <|
      (do
        let names ← identifierList
        gap
        let dots ← variadicMark
        gap
        return (names, dots, ← type))
      <|> (do
        let dots ← variadicMark
        gap
        return ([], dots, ← type))) outline := by
    refine .rule (.orElse (.next identifierList_lays fun names => ?_) ?_)
    · exact .after fun _ => .after fun dots => .after fun _ => .next htype fun _ => .pure (by simp)
    · exact .after fun dots => .after fun _ => .next htype fun _ => .pure (by simp)
  refine (hshape.spanned ?_).bind fun ((names, dots, inner), span) => .pure ?_
  · exact .rule (.orElse (.before identifierList_spends)
      (.after fun _ => .after fun _ => .before hspends))
  · cases dots <;> rfl

theorem parameters_lays : Lays [] (parameters type) outline := by
  refine .rule (.after fun _ => .after fun _ => .after fun _ => .after fun _ => ?_)
  have hfields : Lays [] (do
      let first ← parameterDecl type
      gap
      let others ← repeated do
        mark ","
        gap
        let _ ← optional newlines
        gap
        parameterDecl type
      gap
      let _ ← optional (mark ",")
      return first :: others) outline := by
    have hfield := parameterDecl_lays htype hspends
    refine .next hfield fun first => .after fun _ => ?_
    have hothers : Lays [] (repeated do
        mark ","
        gap
        let _ ← optional newlines
        gap
        parameterDecl type) outline :=
      repeated_lays (.after fun _ => .after fun _ => .after fun _ => .after fun _ => hfield)
    exact .next hothers fun others => .after fun _ => .after fun _ => .pure (by simp)
  exact .next hfields.optional fun fields => .after fun _ => .after fun _ => .after fun _ =>
    .after fun _ => .pure (by simp)

theorem results_lays : Lays [] (results type) outline := by
  refine .rule (.orElse (parameters_lays htype hspends) ?_)
  exact (htype.spanned hspends).bind fun (result, span) => .pure rfl

theorem signature_lays : Lays [] (signature type) outline := by
  refine .rule (.next (parameters_lays htype hspends) fun params => .after fun _ => ?_)
  refine .next (results_lays htype hspends).optional fun results => .pure ?_
  cases results <;> rfl

theorem funcType_lays : Lays [] (funcType type) outline :=
  .rule <| .after fun _ => .after fun _ => .next (signature_lays htype hspends) fun signature =>
    .pure (outline_func signature)

theorem interfaceElement_lays : Lays [] (interfaceElement type) outline := by
  have hshape : Lays [] (rule .interfaceElement <|
      rule .methodSpec (do
        let name ← identifier
        gap
        return Sum.inl (name, ← signature type))
      <|> (do return Sum.inr (← typeUnion type))) outline := by
    refine .rule (.orElse (.rule (.next identifier_lays fun name => .after fun _ => ?_)) ?_)
    · exact .next (signature_lays htype hspends) fun _ => .pure (by simp)
    · exact .next (typeUnion_lays htype) fun _ => .pure (by simp)
  refine (hshape.spanned ?_).bind fun (element, span) => ?_
  · have hterm : Spends (typeTerm type) fun _ => 1 :=
      .rule (.after fun _ => .after fun _ => .before hspends)
    exact .rule (.orElse (.rule (.before identifier_spends)) (.before (.rule (.before hterm))))
  · cases element <;> exact .pure rfl

theorem interfaceType_lays : Lays [] (interfaceType type) outline :=
  .rule <| .after fun _ => .after fun _ =>
    .next (block_lays (interfaceElement_lays htype hspends) _ _) fun elements =>
      .pure (outline_interface elements)

theorem typeWith_lays : Lays [] (typeWith type) outline :=
  .rule <| (pointerType_lays htype).orElse <| (sliceType_lays htype).orElse <|
    (arrayType_lays htype).orElse <| (mapType_lays htype).orElse <| (chanType_lays htype).orElse <|
    (funcType_lays htype hspends).orElse <| (interfaceType_lays htype hspends).orElse <|
    (structType_lays htype).orElse <| (parenType_lays htype).orElse <| typeName_lays htype

end

theorem typeWith_spends (type : Parser TypeExpr) [Advances type] :
    Spends (typeWith type) fun _ => 1 := by
  have hword {name word} (h : word ≠ "") : Spends (keyword name word) fun _ => 1 := keyword_spends h
  have hmark {text} (h : text ≠ "") : Spends (mark text) fun _ => 1 := mark_spends h
  refine .rule (.orElse (.rule (.before (hmark (by decide)))) ?_)
  refine .orElse (.rule (.before (hmark (by decide)))) ?_
  refine .orElse (.rule (.before (hmark (by decide)))) ?_
  refine .orElse (.rule (.before (hword (by decide)))) ?_
  refine .orElse (.rule (.orElse (.rule (.before (hmark (by decide)))) ?_)) ?_
  · exact .orElse (.rule (.before (hword (by decide)))) (.rule (.before (hword (by decide))))
  refine .orElse (.rule (.before (hword (by decide)))) ?_
  refine .orElse (.rule (.before (hword (by decide)))) ?_
  refine .orElse (.rule (.before (hword (by decide)))) ?_
  exact .orElse (.rule (.before (hmark (by decide)))) (.rule (.before qualifiedIdent_spends))

theorem typeUpTo_lays (depth : Nat) :
    Lays [] (typeUpTo depth) outline ∧ Spends (typeUpTo depth) fun _ => 1 := by
  induction depth with
  | zero => exact ⟨fun _ _ _ _ _ _ _ h => (nomatch h), fun _ _ _ h => (nomatch h)⟩
  | succ depth ih =>
      obtain ⟨hlays, hspends⟩ := ih
      exact ⟨typeWith_lays hlays hspends, typeWith_spends _⟩

theorem typeExpr_lays : Lays [] typeExpr outline :=
  fun _ _ _ _ _ hcursor hdone hfound => (typeUpTo_lays _).1 hcursor hdone hfound

theorem typeExpr_spends : Spends typeExpr fun _ => 1 :=
  fun _ _ _ hfound => (typeUpTo_lays _).2 hfound

/-! ## Declarations -/

theorem stringValue_spends : Spends stringValue fun _ => 1 := by
  refine stringLiteral_spends.bind fun (literal, span) => ?_
  dsimp only
  cases Literal.unquote? literal with
  | none => exact .after fun _ => .pure rfl
  | some text => exact .pure rfl

theorem importSpec_lays : Lays [] importSpec outline := by
  have hshape : Lays [] (rule .importSpec do
      let name ← optional importName
      gap
      return (name, ← stringValue)) outline :=
    .rule <| .after fun _ => .after fun _ => .after fun _ => .pure (by simp)
  refine (hshape.spanned ?_).bind fun ((name, path), span) => .pure ?_
  · exact .rule (.after fun _ => .after fun _ => .before stringValue_spends)
  · rw [outline_pair, outline_importName?]
    rfl

theorem typeParamDecl_lays : Lays [] typeParamDecl outline :=
  .rule <| .next identifierList_lays fun _ => .after fun _ =>
    .next (typeUnion_lays typeExpr_lays) fun _ => .pure rfl

theorem typeParams_lays : Lays [] typeParams outline :=
  .rule (listed_lays typeParamDecl_lays _ _)

theorem typeSpec_lays : Lays [] typeSpec outline := by
  have hshape : Lays [] (rule .typeSpec do
      let name ← identifier
      gap
      let params ← optional typeParams
      gap
      let marker ← optional (rule .aliasMarker (mark "="))
      gap
      return (name, params.getD [], marker.isSome, ← typeExpr)) outline := by
    refine .rule (.next identifier_lays fun name => .after fun _ => ?_)
    refine .next typeParams_lays.optional fun params => ?_
    refine .after fun _ => .after fun _ => .after fun _ => .next typeExpr_lays fun _ => .pure ?_
    simp
  exact (hshape.spanned (.rule (.before identifier_spends))).bind fun _ => .pure rfl

theorem constSpec_lays : Lays [] constSpec outline := by
  have hshape : Lays [] (rule .constSpec do
      let names ← identifierList
      gap
      let rest ← optional do
        let type ← optional typeExpr
        gap
        mark "="
        gap
        let first ← constValue
        gap
        let others ← repeated do
          mark ","
          gap
          constValue
        return (type, first :: others)
      return (names, rest)) outline := by
    refine .rule (.next identifierList_lays fun names => .after fun _ => ?_)
    refine .next (.optional ?_) fun rest => .pure (by simp)
    refine .next typeExpr_lays.optional fun type => ?_
    iterate 6 refine .after fun _ => ?_
    exact .pure (by simp)
  refine (hshape.spanned (.rule (.before identifierList_spends))).bind fun ((names, rest), span) => .pure ?_
  cases rest <;> simp [outline]

theorem varSpec_lays : Lays [] varSpec outline := by
  have hpiece : Spends (enclosed <|> plainExcept [';', ')']) fun _ => 1 := initialPiece_spends
  have htext : Lays [] (rule .varSpec <| textOf <| enclosed <|> plainExcept [';', ')'])
      fun read => [.node read.2 none []] :=
    .rule (.hidden (.captured (.before hpiece) (fun _ => none) nofun))
  exact htext.bind fun _ => .pure rfl

theorem funcDecl_lays : Lays [] funcDecl outline := by
  have hparams := parameters_lays typeExpr_lays typeExpr_spends
  have hsignature := signature_lays typeExpr_lays typeExpr_spends
  have hshape : Lays [] (rule .funcDecl do
      keyword .funcWord "func"
      gap
      let receiver ← optional (rule .receiver (parameters typeExpr))
      gap
      let name ← identifier
      gap
      let params ← optional typeParams
      gap
      let signature ← signature typeExpr
      gap
      let body ← optional funcBody
      return (receiver, name, params.getD [], signature, body.isSome)) outline := by
    refine .rule (.after fun _ => .after fun _ => .next hparams.rule.optional fun receiver => ?_)
    refine .after fun _ => .next identifier_lays fun name => ?_
    refine .after fun _ => .next typeParams_lays.optional fun params => ?_
    refine .after fun _ => .next hsignature fun signature => ?_
    exact .after fun _ => .after fun _ => .pure (by simp)
  refine (hshape.spanned (.rule (.before (keyword_spends (by decide))))).bind
    fun ((receiver, name, params, signature, body), span) => .pure ?_
  simp [outline]

theorem topLevelDecl_lays : Lays [] topLevelDecl outline := by
  refine .orElse ?types (.orElse ?consts (.orElse ?vars ?funcs))
  case types =>
    exact .next (specs_lays typeSpec_lays _ _ _)
      fun _ => .pure (outline_map Declaration.type (fun _ => rfl) _)
  case consts =>
    exact .next (specs_lays constSpec_lays _ _ _)
      fun _ => .pure (outline_map Declaration.const (fun _ => rfl) _)
  case vars =>
    exact .next (specs_lays varSpec_lays _ _ _)
      fun _ => .pure (outline_map Declaration.var (fun _ => rfl) _)
  case funcs =>
    exact .next funcDecl_lays fun _ => .pure rfl

theorem sourceFile_lays (sourceName : Option String) :
    Lays [] (sourceFile sourceName) fun file => [file.outline] := by
  have hpackage : Lays [] packageClause outline :=
    .rule (.after fun _ => .after fun _ => identifier_lays)
  have hshape : Lays [] (rule .sourceFile do
      gap
      let _ ← optional separator
      gap
      let package ← packageClause
      gap
      let imports ← repeated do
        separator
        gap
        importDecl
      gap
      let declarations ← repeated do
        separator
        gap
        topLevelDecl
      gap
      let _ ← optional separator
      gap
      rule .endOfInput atEnd
      return (package, imports.flatten, declarations.flatten)) outline := by
    refine .rule (.after fun _ => .after fun _ => .after fun _ => .next hpackage fun package => ?_)
    have himports : Lays [] (repeated do separator; gap; importDecl) outline :=
      repeated_lays (.after fun _ => .after fun _ => specs_lays importSpec_lays _ _ _)
    refine .after fun _ => .next himports fun imports => ?_
    have hdecls : Lays [] (repeated do separator; gap; topLevelDecl) outline :=
      repeated_lays (.after fun _ => .after fun _ => topLevelDecl_lays)
    refine .after fun _ => .next hdecls fun declarations => ?_
    iterate 4 refine .after fun _ => ?_
    exact .pure (by simp)
  refine (hshape.spanned ?_).bind fun _ => .pure rfl
  have hclause : Spends packageClause fun _ => 1 := .rule (.before (keyword_spends (by decide)))
  exact .rule (.after fun _ => .after fun _ => .after fun _ => .before hclause)

end Grammar

open Grammar GoTrace.Parser

/-- Of a text that is read as a source file, everything stands where its span says: identifiers are the
text in their spans, places are the lines and columns of byte offsets, what is inside a node stands in the
span of the node, and what stands side by side is in order. -/
theorem SourceFile.wellPlaced_outline {text : String} {sourceName : Option String} {file : SourceFile}
    (h : SourceFile.parse text sourceName = .ok file) : file.outline.WellPlaced text := by
  obtain ⟨next, hfinds⟩ := finds_of_run h
  have hnone : Outline.InOrder text 0 [] 0 := Nat.le_refl 0
  obtain ⟨-, -, hplaced, -⟩ := sourceFile_lays sourceName (Cursor.Precedes.refl _) hnone hfinds
  exact hplaced

/-- Columns count characters where offsets count bytes. -/
theorem SourceFile.wellPlaced_outline_types :
    ∃ file, SourceFile.parse "package p\ntype (Ä int; B = Ä)\n" none = .ok file ∧
      file.typeSpecs.map (·.span) =
        [⟨16, 22, some ⟨2, 7⟩, some ⟨2, 12⟩⟩, ⟨24, 30, some ⟨2, 14⟩, some ⟨2, 19⟩⟩] ∧
      file.outline.WellPlaced "package p\ntype (Ä int; B = Ä)\n" := by
  have hread : ((SourceFile.parse "package p\ntype (Ä int; B = Ä)\n" none).toOption.map fun file =>
      file.typeSpecs.map (·.span)) =
        some [⟨16, 22, some ⟨2, 7⟩, some ⟨2, 12⟩⟩, ⟨24, 30, some ⟨2, 14⟩, some ⟨2, 19⟩⟩] := by
    decide +kernel
  obtain ⟨file, hfile, hspans⟩ := Option.map_eq_some_iff.mp hread
  have hparse := toOption_eq_some_iff.mp hfile
  exact ⟨file, hparse, hspans, wellPlaced_outline hparse⟩

end GoTrace
