/-!
# Diagnostics and failures

What a user is told about an error, and the two ways in which a computation on source text can stop
without an error of its own.
-/

namespace GoTrace

/-- An error as a user sees it. -/
structure Diagnostic where
  message : String
  code : String
  help : Option String
deriving DecidableEq, Repr

/-- Why a computation on source text has no result. -/
inductive Failure (ε : Type) where
  /-- The input is wrong, and the error says how. -/
  | error (cause : ε)
  /-- An integer was to be read from a text whose first two bytes end inside a character. The
  computation is broken off there, and nothing after that point has happened. -/
  | splitCharacter
  /-- A chain of references was longer than the loader's bound on declarations allows. -/
  | exhausted
deriving DecidableEq, Repr

def Failure.map {ε δ : Type} (f : ε → δ) : Failure ε → Failure δ
  | .error cause => .error (f cause)
  | .splitCharacter => .splitCharacter
  | .exhausted => .exhausted

end GoTrace
