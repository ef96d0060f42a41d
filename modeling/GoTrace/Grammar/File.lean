import GoTrace.Grammar.Type
import GoTrace.Syntax.File

/-!
# The grammar of source files

The package clause, imports and every form of declaration at the top level of a file.
-/

namespace GoTrace.Grammar

open GoTrace.Parser

def packageClause : Parser Ident := rule .packageClause do
  keyword .packageWord "package"
  gap
  identifier

def importName : Parser ImportName := rule .importName <|
  (do
    rule .dotImport (mark ".")
    return .dot)
  <|> (do
    let name ← identifier
    return if name.name = "_" then .blank else .named name.name)

def importSpec : Parser ImportSpec := do
  let ((name, path), span) ← spanned <| rule .importSpec do
    let name ← optional importName
    gap
    return (name, ← stringValue)
  return ⟨name, path, span⟩

/-- Declarations after one keyword: a single spec, or specs in parentheses. -/
def specs {α : Type} (decl word : Rule) (text : String) (spec : Parser α) : Parser (List α) :=
  rule decl do
    keyword word text
    gap
    block "(" ")" spec <|> (do return [← spec])

def importDecl : Parser (List ImportSpec) :=
  specs .importDecl .importWord "import" importSpec

def typeParamDecl : Parser TypeParam := rule .typeParamDecl do
  let names ← identifierList
  gap
  return ⟨names, ← typeUnion typeExpr⟩

def typeParams : Parser (List TypeParam) :=
  rule .typeParams (listed "[" "]" typeParamDecl)

def typeSpec : Parser TypeSpec := do
  let ((name, params, marker, type), span) ← spanned <| rule .typeSpec do
    let name ← identifier
    gap
    let params ← optional typeParams
    gap
    let marker ← optional (rule .aliasMarker (mark "="))
    gap
    return (name, params.getD [], marker.isSome, ← typeExpr)
  return ⟨name, params, marker, type, span⟩

def constValue : Parser String := do
  let (text, _) ← rule .constValue <| textOf <|
    enclosed <|> plainExcept [';', ',', ')', ']', '}']
  return String.ofList (Text.trim text)

def constSpec : Parser ConstSpec := do
  let ((names, rest), span) ← spanned <| rule .constSpec do
    let names ← identifierList
    gap
    let rest ← optional do
      let type ← optional typeExpr
      gap
      mark "="
      gap
      let first ← constValue
      gap
      let others ← repeated do
        mark ","
        gap
        constValue
      return (type, first :: others)
    return (names, rest)
  return ⟨names, rest.bind (·.1), (rest.map (·.2)).getD [], span⟩

def varSpec : Parser VarSpec := do
  let (text, span) ← rule .varSpec <| textOf <| enclosed <|> plainExcept [';', ')']
  return ⟨String.ofList (Text.trim text), span⟩

def funcBody : Parser Unit :=
  rule .funcBody (hidden (bracketed groupInside "\x7b" "\x7d"))

def funcDecl : Parser FuncDecl := do
  let ((receiver, name, params, signature, body), span) ← spanned <| rule .funcDecl do
    keyword .funcWord "func"
    gap
    let receiver ← optional (rule .receiver (parameters typeExpr))
    gap
    let name ← identifier
    gap
    let params ← optional typeParams
    gap
    let signature ← signature typeExpr
    gap
    let body ← optional funcBody
    return (receiver, name, params.getD [], signature, body.isSome)
  return ⟨receiver, name, params, signature, body, span⟩

def topLevelDecl : Parser (List Declaration) :=
  (do return (← specs .typeDecl .typeWord "type" typeSpec).map .type)
  <|> (do return (← specs .constDecl .constWord "const" constSpec).map .const)
  <|> (do return (← specs .varDecl .varWord "var" varSpec).map .var)
  <|> (do return [.func (← funcDecl)])

def sourceFile (sourceName : Option String) : Parser SourceFile := do
  let ((package, imports, declarations), span) ← spanned <| rule .sourceFile do
    gap
    let _ ← optional separator
    gap
    let package ← packageClause
    gap
    let imports ← repeated do
      separator
      gap
      importDecl
    gap
    let declarations ← repeated do
      separator
      gap
      topLevelDecl
    gap
    let _ ← optional separator
    gap
    rule .endOfInput atEnd
    return (package, imports.flatten, declarations.flatten)
  return ⟨package, imports, declarations, sourceName, span⟩

def packageHeader : Parser Ident := rule .packageHeader do
  gap
  let _ ← optional separator
  gap
  packageClause

def loneType : Parser TypeExpr := rule .loneType do
  gap
  let type ← typeExpr
  gap
  rule .endOfInput atEnd
  return type

end GoTrace.Grammar
