import GoTrace.Grammar.File
import GoTrace.Grammar.Rule
import GoTrace.Source.Diagnostic
import GoTrace.Source.Span

/-!
# Reading source text

The three texts that can be read: a source file, its package clause alone, and a single type. A text
either does not follow the grammar, or one of its string literals stands for no text. A syntax error
anywhere in the text comes first; of a text without one, the first fault decides.
-/

namespace GoTrace

/-! ## Errors of source text -/

/-- An error of a source text. -/
inductive ParseError where
  | syntaxError (source : String) (offset : Nat) (place : Place) (expected : List Rule)
  | invalidString (literal : String) (span : Span)
deriving DecidableEq, Repr

namespace ParseError

def unnamedSource : String := "<input>"

def diagnostic : ParseError → Diagnostic
  | .syntaxError source _ place expected =>
      let parts := " or ".intercalate (expected.map Rule.description)
      { message := s!"Syntax error in {source}: expected {parts} at {place.text}"
        code := "traceable::parse::syntax"
        help := some "traceable only understands syntactically valid Go source" }
  | .invalidString literal _ =>
      { message := s!"Invalid string literal {literal}"
        code := "traceable::parse::invalid_string"
        help := some "Import paths must be valid Go string literals" }

end ParseError

/-! ## Reading -/

abbrev ParseFailure := Failure ParseError

/-- Reads `text`, which is called `name` in errors, with a parser for all of it. -/
def Parser.run {α : Type} (p : Parser α) (name text : String) : Except ParseFailure α :=
  let chars := text.toList
  match p .spaced (Cursor.ofText chars) with
  | ⟨some ⟨value, _, none⟩, _⟩ => .ok value
  | ⟨some ⟨_, _, some (.invalidString literal span)⟩, _⟩ =>
      .error (.error (.invalidString literal span))
  | ⟨some ⟨_, _, some .splitCharacter⟩, _⟩ => .error .splitCharacter
  | ⟨none, furthest⟩ =>
      let place := placeAt chars furthest.offset
      .error (.error (.syntaxError name furthest.offset place furthest.expected))

namespace SourceFile

def parse (text : String) (sourceName : Option String) : Except ParseFailure SourceFile :=
  (Grammar.sourceFile sourceName).run (sourceName.getD ParseError.unnamedSource) text

def packageName (text : String) : Except ParseFailure String :=
  (Grammar.packageHeader.run ParseError.unnamedSource text).map Ident.name

end SourceFile

def TypeExpr.parse (text : String) : Except ParseFailure TypeExpr :=
  Grammar.loneType.run ParseError.unnamedSource text

end GoTrace
