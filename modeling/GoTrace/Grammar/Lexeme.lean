import GoTrace.Text.Class

/-!
# Lexemes

How far the smallest parts of a source text reach: blanks and comments, line ends, words, and
literals in quotes. Each function looks at the text ahead and gives a number of characters.
-/

namespace GoTrace.Lexeme

open GoTrace.Text

def isIdentStart (c : Char) : Bool :=
  isLetter c || c = '_'

def isIdentChar (c : Char) : Bool :=
  isIdentStart c || isDecimalDigit c

def isLineEnd (c : Char) : Bool :=
  c = '\n' || c = '\r'

def keywords : List String :=
  ["break", "case", "chan", "const", "continue", "default", "defer", "else", "fallthrough", "for",
   "func", "goto", "go", "if", "import", "interface", "map", "package", "range", "return", "select",
   "struct", "switch", "type", "var"]

def wordAhead (text : List Char) : List Char :=
  text.takeWhile isIdentChar

/-- An identifier: a whole word that starts as one and is no keyword. -/
def identifier? (text : List Char) : Option Nat :=
  let word := wordAhead text
  match word with
  | [] => none
  | c :: _ =>
      if isIdentStart c && !keywords.contains (String.ofList word) then some word.length else none

def word? (word : String) (text : List Char) : Option Nat :=
  if wordAhead text = word.toList then some word.toList.length else none

/-- One line end; a carriage return and a line feed together are one. -/
def newline? : List Char → Option Nat
  | '\r' :: '\n' :: _ => some 2
  | '\n' :: _ => some 1
  | '\r' :: _ => some 1
  | _ => none

def one? (accepts : Char → Bool) : List Char → Option Nat
  | c :: _ => if accepts c then some 1 else none
  | [] => none

def blockTail? : List Char → Option Nat
  | '*' :: '/' :: _ => some 2
  | _ :: rest => (blockTail? rest).map (· + 1)
  | [] => none

def blockComment? : List Char → Option Nat
  | '/' :: '*' :: rest => (blockTail? rest).map (· + 2)
  | _ => none

/-- A comment from `//` to the end of its line, which is not part of it. -/
def lineComment? : List Char → Option Nat
  | '/' :: '/' :: rest => some (2 + (rest.takeWhile (!isLineEnd ·)).length)
  | _ => none

mutual

/-- All blanks and comments ahead. Line ends are no blanks, and a block comment without an end is no
comment. -/
def blanks : List Char → Nat
  | ' ' :: rest => blanks rest + 1
  | '\t' :: rest => blanks rest + 1
  | '\uFEFF' :: rest => blanks rest + 1
  | '/' :: '/' :: rest => 2 + (rest.takeWhile (!isLineEnd ·)).length
  | '/' :: '*' :: rest =>
      match blanksInBlock rest with
      | some count => count + 2
      | none => 0
  | _ => 0

/-- What is left of a block comment, and all blanks and comments behind it. -/
def blanksInBlock : List Char → Option Nat
  | '*' :: '/' :: rest => some (blanks rest + 2)
  | _ :: rest => (blanksInBlock rest).map (· + 1)
  | [] => none

end

/-- What is left of a text in quotes up to and including the mark `mark`. A backslash takes the
character behind it along; a line end breaks the text off. -/
def quotedTail? (mark : Char) : List Char → Option Nat
  | '\\' :: _ :: rest => (quotedTail? mark rest).map (· + 2)
  | c :: rest =>
      if c = mark then some 1
      else if c = '\\' || isLineEnd c then none
      else (quotedTail? mark rest).map (· + 1)
  | [] => none

def quoted? (mark : Char) : List Char → Option Nat
  | c :: rest => if c = mark then (quotedTail? mark rest).map (· + 1) else none
  | [] => none

def rawTail? : List Char → Option Nat
  | '\x60' :: _ => some 1
  | _ :: rest => (rawTail? rest).map (· + 1)
  | [] => none

def raw? : List Char → Option Nat
  | '\x60' :: rest => (rawTail? rest).map (· + 1)
  | _ => none

end GoTrace.Lexeme
