import GoTrace.Grammar.Lexeme
import GoTrace.Grammar.Parser
import GoTrace.Literal.Unquote
import GoTrace.Syntax.Type

/-!
# Words, literals and balanced groups

The parsers that every other rule is made of: gaps, separators, identifiers, string literals, lists
of specs in brackets, and groups of balanced brackets whose inside is taken as text.
-/

namespace GoTrace.Grammar

open GoTrace.Parser

def gap : Parser Unit := gapBy Lexeme.blanks

/-- Reads with `p` as often as it succeeds. A gap that no further part follows is given back. -/
def repeated {α : Type} (p : Parser α) : Parser (List α) :=
  (do
    let value ← p
    let values ← many (do gap; p)
    return value :: values)
  <|> pure []

def mark (text : String) : Parser Unit := literal text

def newline : Parser Unit := take Lexeme.newline?

def atLeastOnce (p : Parser Unit) : Parser Unit := do
  p
  gap
  let _ ← optional do
    p
    skipMany do
      gap
      p

def newlines : Parser Unit := atLeastOnce newline

def separator : Parser Unit := atLeastOnce (literal ";" <|> newline)

def keyword (name : Rule) (word : String) : Parser Unit :=
  rule name (take (Lexeme.word? word))

def identifier : Parser Ident := rule .identifier do
  let (name, span) ← captured (take Lexeme.identifier?)
  return ⟨String.ofList name, span⟩

def identifierList : Parser (List Ident) := rule .identifierList do
  let first ← identifier
  gap
  let others ← repeated do
    mark ","
    gap
    identifier
  return first :: others

def qualifiedIdent : Parser (Option String × String) := tight <| rule .qualifiedIdent do
  let first ← identifier
  let second ← optional do
    mark "."
    identifier
  match second with
  | none => return (none, first.name)
  | some name => return (some first.name, name.name)

def stringLiteral : Parser (List Char × Span) := tight <| rule .stringLiteral <| captured <|
  rule .interpretedString (take (Lexeme.quoted? '"')) <|> rule .rawString (take Lexeme.raw?)

def stringValue : Parser String := do
  let (literal, span) ← stringLiteral
  match Literal.unquote? literal with
  | some text => return text
  | none =>
      note (.invalidString (String.ofList literal) span)
      return ""

/-- Specs with separators between them and the marks `opening` and `closing` around them; there may
be none. -/
def block {α : Type} (opening closing : String) (spec : Parser α) : Parser (List α) := do
  mark opening
  gap
  let _ ← optional separator
  gap
  let specs ← optional do
    let first ← spec
    gap
    let others ← repeated do
      separator
      gap
      spec
    return first :: others
  gap
  let _ ← optional separator
  gap
  mark closing
  return specs.getD []

def one (accepts : Char → Bool) : Parser Unit := take (Lexeme.one? accepts)

/-- One character, unless the text ahead is a line end, a comment or a character of `stops`. -/
def plainExcept (stops : List Char) : Parser Unit :=
  take fun text =>
    if (Lexeme.newline? text).isSome || ['/', '/'].isPrefixOf text ||
        ['/', '*'].isPrefixOf text then
      none
    else Lexeme.one? (!stops.contains ·) text

/-- A group between the marks `opening` and `closing`, whose inside `inside` reads. -/
def bracketed (inside : Parser Unit) (opening closing : String) : Parser Unit := do
  mark opening
  inside
  mark closing

/-- Text in brackets or quotes: a group of balanced brackets whose inside `inside` reads, a string
literal or a character literal. -/
def enclosedWith (inside : Parser Unit) : Parser Unit :=
  bracketed inside "(" ")"
  <|> bracketed inside "[" "]"
  <|> bracketed inside "\x7b" "\x7d"
  <|> (do let _ ← stringLiteral)
  <|> take (Lexeme.quoted? '\'')

/-- One piece of the inside of a group, with further groups nested less than `depth` deep in it. -/
def groupPieceUpTo : Nat → Parser Unit
  | 0, mode, cursor => Parser.fail mode cursor
  | depth + 1, mode, cursor =>
      (enclosedWith (skipMany (groupPieceUpTo depth))
        <|> take Lexeme.lineComment?
        <|> take Lexeme.blockComment?
        <|> one fun c => !([')', ']', '}'].contains c)) mode cursor

/-- The inside of a group. Every group takes its bracket, so groups cannot be nested deeper than
there are characters. -/
def groupInside : Parser Unit := fun mode cursor =>
  skipMany (groupPieceUpTo (cursor.rest.length + 1)) mode cursor

def enclosed : Parser Unit := enclosedWith groupInside

def textOf (p : Parser Unit) : Parser (List Char × Span) :=
  hidden <| captured do
    p
    skipMany p

end GoTrace.Grammar
