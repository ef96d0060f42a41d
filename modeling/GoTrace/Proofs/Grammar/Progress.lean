import GoTrace.Proofs.Parser.Progress

/-!
# The rules of the grammar move forward

Every rule inherits its progress from its parts. Rules that look at a value they have read are
opened up to that point by hand.
-/

namespace GoTrace.Grammar

open GoTrace.Parser

variable {α : Type}

set_option synthInstance.maxSize 32768

/-! ## Words, literals and groups -/

instance : Advances gap := by unfold gap; infer_instance

instance (p : Parser α) [Advances p] : Advances (repeated p) := by unfold repeated; infer_instance

instance (text : String) : Advances (mark text) := by unfold mark; infer_instance

instance : Advances newline := by unfold newline; infer_instance

instance (p : Parser Unit) [Advances p] : Advances (atLeastOnce p) := by
  unfold atLeastOnce
  infer_instance

instance : Advances newlines := by unfold newlines; infer_instance

instance : Advances separator := by unfold separator; infer_instance

instance (name : Rule) (word : String) : Advances (keyword name word) := by
  unfold keyword
  infer_instance

instance : Advances identifier := by unfold identifier; infer_instance

instance : Advances identifierList := by unfold identifierList; infer_instance

instance : Advances qualifiedIdent := by
  unfold qualifiedIdent
  have (first : Ident) (second : Option Ident) : Advances (match second with
      | none => (pure (none, first.name) : Parser (Option String × String))
      | some name => pure (some first.name, name.name)) := by
    cases second <;> infer_instance
  infer_instance

instance : Advances stringLiteral := by unfold stringLiteral; infer_instance

instance : Advances stringValue := by
  unfold stringValue
  have (read : List Char × Span) : Advances (match read with
      | (literal, span) => match Literal.unquote? literal with
        | some text => (pure text : Parser String)
        | none => do
            note (.invalidString (String.ofList literal) span)
            return "") := by
    obtain ⟨literal, span⟩ := read
    dsimp only
    cases Literal.unquote? literal <;> infer_instance
  infer_instance

instance (opening closing : String) (spec : Parser α) [Advances spec] :
    Advances (block opening closing spec) := by
  unfold block
  infer_instance

instance (accepts : Char → Bool) : Advances (one accepts) := by unfold one; infer_instance

instance (stops : List Char) : Advances (plainExcept stops) := by
  unfold plainExcept
  infer_instance

instance (inside : Parser Unit) [Advances inside] (opening closing : String) :
    Advances (bracketed inside opening closing) := by
  unfold bracketed
  infer_instance

instance (inside : Parser Unit) [Advances inside] : Advances (enclosedWith inside) := by
  unfold enclosedWith
  infer_instance

instance (depth : Nat) : Advances (groupPieceUpTo depth) := by
  induction depth with
  | zero => exact (inferInstance : Advances (fail : Parser Unit))
  | succ depth ih =>
      exact (inferInstance : Advances (enclosedWith (skipMany (groupPieceUpTo depth))
        <|> take Lexeme.lineComment?
        <|> take Lexeme.blockComment?
        <|> one fun c => !([')', ']', '}'].contains c)))

instance : Advances groupInside where
  precedes h := Advances.precedes (p := skipMany (groupPieceUpTo _)) h

instance : Advances enclosed := by unfold enclosed; infer_instance

instance (p : Parser Unit) [Advances p] : Advances (textOf p) := by unfold textOf; infer_instance

/-! ## Types -/

section

variable (type : Parser TypeExpr) [Advances type]

instance : Advances (pointerType type) := by unfold pointerType; infer_instance

instance : Advances (sliceType type) := by unfold sliceType; infer_instance

instance (text : List Char) : Advances (lengthOfText text) := by
  unfold lengthOfText
  dsimp only
  split <;> infer_instance

instance : Advances lengthExpr := by unfold lengthExpr; infer_instance

instance : Advances arrayLength := by unfold arrayLength; infer_instance

instance : Advances (arrayType type) := by unfold arrayType; infer_instance

instance : Advances (mapType type) := by unfold mapType; infer_instance

instance : Advances (chanType type) := by unfold chanType; infer_instance

instance : Advances (parenType type) := by unfold parenType; infer_instance

instance (opening closing : String) (part : Parser α) [Advances part] :
    Advances (listed opening closing part) := by
  unfold listed
  infer_instance

instance : Advances (typeName type) := by unfold typeName; infer_instance

instance : Advances variadicMark := by unfold variadicMark; infer_instance

instance : Advances (parameterDecl type) := by unfold parameterDecl; infer_instance

instance : Advances (parameters type) := by unfold parameters; infer_instance

instance : Advances (results type) := by unfold results; infer_instance

instance : Advances (signature type) := by unfold signature; infer_instance

instance : Advances (funcType type) := by unfold funcType; infer_instance

instance : Advances (typeTerm type) := by unfold typeTerm; infer_instance

instance : Advances (typeUnion type) := by unfold typeUnion; infer_instance

instance : Advances (interfaceElement type) := by
  unfold interfaceElement
  have (read : (Ident × Signature ⊕ List TypeTerm) × Span) : Advances (match read with
      | (element, span) => match element with
        | .inl (name, signature) => (pure (.method name signature span) : Parser Element)
        | .inr terms => pure (.embed terms span)) := by
    obtain ⟨element, span⟩ := read
    cases element <;> infer_instance
  infer_instance

instance : Advances (interfaceType type) := by unfold interfaceType; infer_instance

instance : Advances (fieldShape type) := by unfold fieldShape; infer_instance

instance : Advances (fieldDecl type) := by unfold fieldDecl; infer_instance

instance : Advances (structType type) := by unfold structType; infer_instance

instance : Advances (typeWith type) := by unfold typeWith; infer_instance

end

instance (depth : Nat) : Advances (typeUpTo depth) := by
  induction depth with
  | zero => exact (inferInstance : Advances (fail : Parser TypeExpr))
  | succ depth ih => exact (inferInstance : Advances (typeWith (typeUpTo depth)))

instance : Advances typeExpr where
  precedes h := Advances.precedes (p := typeUpTo _) h

/-! ## Declarations -/

instance : Advances packageClause := by unfold packageClause; infer_instance

instance : Advances importName := by unfold importName; infer_instance

instance : Advances importSpec := by unfold importSpec; infer_instance

instance (decl word : Rule) (text : String) (spec : Parser α) [Advances spec] :
    Advances (specs decl word text spec) := by
  unfold specs
  infer_instance

instance : Advances importDecl := by unfold importDecl; infer_instance

instance : Advances typeParamDecl := by unfold typeParamDecl; infer_instance

instance : Advances typeParams := by unfold typeParams; infer_instance

instance : Advances typeSpec := by unfold typeSpec; infer_instance

instance : Advances constValue := by unfold constValue; infer_instance

instance : Advances constSpec := by unfold constSpec; infer_instance

instance : Advances varSpec := by unfold varSpec; infer_instance

instance : Advances funcBody := by unfold funcBody; infer_instance

instance : Advances funcDecl := by unfold funcDecl; infer_instance

instance : Advances topLevelDecl := by unfold topLevelDecl; infer_instance

end GoTrace.Grammar
