import GoTrace.Grammar.Word

/-!
# The grammar of types

Types refer to each other through one parser only, the one for any type, so each rule below takes
that parser as an argument and `typeExpr` ties the knot.
-/

namespace GoTrace.Grammar

open GoTrace.Parser

section

variable (type : Parser TypeExpr)

def pointerType : Parser TypeExpr := rule .pointerType do
  mark "*"
  gap
  return .pointer (← type)

def sliceType : Parser TypeExpr := rule .sliceType do
  mark "["
  gap
  mark "]"
  gap
  return .slice (← type)

/-- The length that the text between two brackets stands for, when it is not a name. -/
def lengthOfText (text : List Char) : Parser ArrayLength :=
  let expression := Text.trim text
  match Literal.readInt expression with
  | .value n => return .literal n
  | .notInteger => return .expression (String.ofList expression)
  | .splitCharacter => do
      note .splitCharacter
      return .expression (String.ofList expression)

/-- Any text up to the closing bracket, on one line outside of brackets. -/
def lengthExpr : Parser ArrayLength := do
  let (text, _) ← rule .lengthExpr <| textOf <|
    bracketed groupInside "(" ")"
    <|> bracketed groupInside "[" "]"
    <|> one fun c => !(c = ']' || Lexeme.isLineEnd c)
  lengthOfText text

/-- The length of an array: three dots, the name of a constant, or any other expression. -/
def arrayLength : Parser ArrayLength := rule .arrayLength <|
  (do
    rule .arrayEllipsis (mark "...")
    return .ellipsis)
  <|> (do
    let (package, name) ← qualifiedIdent
    gap
    ahead (Lexeme.one? (· = ']'))
    return .constant package name)
  <|> lengthExpr

def arrayType : Parser TypeExpr := rule .arrayType do
  mark "["
  gap
  let length ← arrayLength
  gap
  mark "]"
  gap
  return .array length (← type)

def mapType : Parser TypeExpr := rule .mapType do
  keyword .mapWord "map"
  gap
  mark "["
  gap
  let key ← type
  gap
  mark "]"
  gap
  return .map key (← type)

def chanType : Parser TypeExpr := rule .chanType <|
  rule .receiveChan (do
    mark "<-"
    gap
    keyword .chanWord "chan"
    gap
    return .chan .receive (← type))
  <|> rule .sendChan (do
    keyword .chanWord "chan"
    gap
    mark "<-"
    gap
    return .chan .send (← type))
  <|> rule .plainChan (do
    keyword .chanWord "chan"
    gap
    return .chan .both (← type))

def parenType : Parser TypeExpr := rule .parenType do
  mark "("
  gap
  let inner ← type
  gap
  mark ")"
  return .paren inner

/-- What stands between `opening` and `closing` with commas between its parts, where lines may break
after the opening mark, after commas and before the closing mark. -/
def listed {α : Type} (opening closing : String) (part : Parser α) : Parser (List α) := do
  mark opening
  gap
  let _ ← optional newlines
  gap
  let first ← part
  gap
  let others ← repeated do
    mark ","
    gap
    let _ ← optional newlines
    gap
    part
  gap
  let _ ← optional (mark ",")
  gap
  let _ ← optional newlines
  gap
  mark closing
  return first :: others

def typeName : Parser TypeExpr := rule .typeName do
  let (package, name) ← qualifiedIdent
  gap
  let args ← optional (rule .typeArgs (listed "[" "]" type))
  return .name package name (args.getD [])

def variadicMark : Parser Bool := do
  let dots ← optional (rule .variadic (mark "..."))
  return dots.isSome

def parameterDecl : Parser Field := do
  let ((names, dots, type), span) ← spanned <| rule .parameterDecl <|
    (do
      let names ← identifierList
      gap
      let dots ← variadicMark
      gap
      return (names, dots, ← type))
    <|> (do
      let dots ← variadicMark
      gap
      return ([], dots, ← type))
  return ⟨names, if dots then .ellipsis type else type, none, span⟩

def parameters : Parser (List Field) := rule .parameters do
  mark "("
  gap
  let _ ← optional newlines
  gap
  let fields ← optional do
    let first ← parameterDecl type
    gap
    let others ← repeated do
      mark ","
      gap
      let _ ← optional newlines
      gap
      parameterDecl type
    gap
    let _ ← optional (mark ",")
    return first :: others
  gap
  let _ ← optional newlines
  gap
  mark ")"
  return fields.getD []

def results : Parser (List Field) := rule .result <|
  parameters type
  <|> (do
    let (result, span) ← spanned type
    return [⟨[], result, none, span⟩])

def signature : Parser Signature := rule .signature do
  let params ← parameters type
  gap
  let results ← optional (results type)
  return ⟨params, results.getD []⟩

def funcType : Parser TypeExpr := rule .funcType do
  keyword .funcWord "func"
  gap
  return .func (← signature type)

def typeTerm : Parser TypeTerm := rule .typeTerm do
  let tilde ← optional (rule .tilde (mark "~"))
  gap
  return ⟨tilde.isSome, ← type⟩

def typeUnion : Parser (List TypeTerm) := rule .typeUnion do
  let first ← typeTerm type
  gap
  let others ← repeated do
    mark "|"
    gap
    let _ ← optional newlines
    gap
    typeTerm type
  return first :: others

def interfaceElement : Parser Element := do
  let (element, span) ← spanned <| rule .interfaceElement <|
    rule .methodSpec (do
      let name ← identifier
      gap
      return Sum.inl (name, ← signature type))
    <|> (do return Sum.inr (← typeUnion type))
  match element with
  | .inl (name, signature) => return .method name signature span
  | .inr terms => return .embed terms span

def interfaceType : Parser TypeExpr := rule .interfaceType do
  keyword .interfaceWord "interface"
  gap
  return .interface (← block "\x7b" "\x7d" (interfaceElement type))

def fieldShape : Parser (List Ident × TypeExpr) :=
  rule .namedField (do
    let names ← identifierList
    gap
    return (names, ← type))
  <|> rule .embeddedField (do
    let pointer ← optional (rule .embeddedPointer (mark "*"))
    gap
    let name ← typeName type
    return ([], if pointer.isSome then .pointer name else name))

def fieldDecl : Parser Field := do
  let ((names, type, tag), span) ← spanned <| rule .fieldDecl do
    let (names, type) ← fieldShape type
    gap
    let tag ← optional stringValue
    return (names, type, tag)
  return ⟨names, type, tag, span⟩

def structType : Parser TypeExpr := rule .structType do
  keyword .structWord "struct"
  gap
  return .struct (← block "\x7b" "\x7d" (fieldDecl type))

def typeWith : Parser TypeExpr := rule .typeExpr <|
  pointerType type <|> sliceType type <|> arrayType type <|> mapType type <|> chanType type
  <|> funcType type <|> interfaceType type <|> structType type <|> parenType type <|> typeName type

end

def typeUpTo : Nat → Parser TypeExpr
  | 0, mode, cursor => Parser.fail mode cursor
  | depth + 1, mode, cursor => typeWith (typeUpTo depth) mode cursor

/-- Any type. Every type takes a character before it reads a type inside it, so types cannot be
nested deeper than there are characters. -/
def typeExpr : Parser TypeExpr := fun mode cursor =>
  typeUpTo (cursor.rest.length + 1) mode cursor

end GoTrace.Grammar
