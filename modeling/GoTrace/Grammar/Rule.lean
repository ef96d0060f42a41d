/-!
# Named parts of the grammar

The parts that a syntax error can say were expected, in the order in which an error lists them, and
the words it uses for each.
-/

namespace GoTrace

/-- A part of the grammar with a name. -/
inductive Rule where
  | endOfInput
  | identifier
  | identifierList
  | qualifiedIdent
  | packageWord
  | importWord
  | typeWord
  | constWord
  | varWord
  | funcWord
  | interfaceWord
  | structWord
  | mapWord
  | chanWord
  | stringLiteral
  | interpretedString
  | rawString
  | sourceFile
  | packageHeader
  | loneType
  | packageClause
  | importDecl
  | importSpec
  | importName
  | dotImport
  | typeDecl
  | typeSpec
  | aliasMarker
  | typeParams
  | typeParamDecl
  | constDecl
  | constSpec
  | constValue
  | varDecl
  | varSpec
  | funcDecl
  | receiver
  | funcBody
  | typeExpr
  | pointerType
  | sliceType
  | arrayType
  | arrayLength
  | arrayEllipsis
  | lengthExpr
  | mapType
  | chanType
  | receiveChan
  | sendChan
  | plainChan
  | funcType
  | parenType
  | typeName
  | typeArgs
  | signature
  | result
  | parameters
  | parameterDecl
  | variadic
  | interfaceType
  | interfaceElement
  | methodSpec
  | typeUnion
  | typeTerm
  | tilde
  | structType
  | fieldDecl
  | namedField
  | embeddedField
  | embeddedPointer
deriving DecidableEq, Repr

namespace Rule

def description : Rule → String
  | endOfInput => "end of input"
  | identifier => "an identifier"
  | identifierList => "identifier list"
  | qualifiedIdent => "a type name"
  | packageWord | packageClause => "a package clause"
  | importWord | importDecl => "an import declaration"
  | typeWord | typeDecl => "a type declaration"
  | constWord | constDecl => "a const declaration"
  | varWord | varDecl => "a var declaration"
  | funcWord | funcDecl => "a func declaration"
  | interfaceWord => "kw interface"
  | structWord => "kw struct"
  | mapWord => "kw map"
  | chanWord => "kw chan"
  | stringLiteral => "a string literal"
  | interpretedString => "interpreted string"
  | rawString => "raw string"
  | sourceFile => "source file"
  | packageHeader => "package header"
  | loneType => "type expr only"
  | importSpec => "import spec"
  | importName => "import name"
  | dotImport => "dot import"
  | typeSpec => "type spec"
  | aliasMarker => "alias marker"
  | typeParams => "type params"
  | typeParamDecl => "type param decl"
  | constSpec => "const spec"
  | constValue => "const value"
  | varSpec => "var spec"
  | receiver => "receiver"
  | funcBody => "func body"
  | typeExpr => "a type"
  | pointerType => "pointer type"
  | sliceType => "slice type"
  | arrayType => "array type"
  | arrayLength => "array length"
  | arrayEllipsis => "array ellipsis"
  | lengthExpr => "length expr"
  | mapType => "map type"
  | chanType => "chan type"
  | receiveChan => "recv chan"
  | sendChan => "send chan"
  | plainChan => "bidi chan"
  | funcType => "func type"
  | parenType => "paren type"
  | typeName => "type name"
  | typeArgs => "type args"
  | signature => "a signature"
  | result => "result"
  | parameters => "a parameter list"
  | parameterDecl => "parameter decl"
  | variadic => "variadic"
  | interfaceType => "interface type"
  | interfaceElement | methodSpec => "an interface element"
  | typeUnion => "type union"
  | typeTerm => "type term"
  | tilde => "tilde"
  | structType => "struct type"
  | fieldDecl => "a struct field"
  | namedField => "named field"
  | embeddedField => "embedded field"
  | embeddedPointer => "embedded pointer"

def rank (rule : Rule) : Nat :=
  rule.ctorIdx

end Rule

end GoTrace
