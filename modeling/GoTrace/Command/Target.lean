import GoTrace.Command.Error
import GoTrace.Syntax.Parse

/-!
# Targets

The interfaces to wrap as a user names them: a type name alone, or behind an import path and a dot.
A type name holds no dot, so the last one ends the import path.
-/

namespace GoTrace

/-- An interface to wrap. Without an import path it belongs to the first package of the run. -/
structure Target where
  package : Option String
  name : String
deriving DecidableEq, Repr, Inhabited

namespace Target

/-- The import path and the name in a token; nothing when the dot has no path before it. -/
def split (token : List Char) : Option (Option String × String) :=
  match Text.cutLast? '.' token with
  | none => some (none, String.ofList token)
  | some ([], _) => none
  | some (path, name) => some (some (String.ofList path), String.ofList name)

/-- Reads one token. What stands for the name must read as the name of a type, and is kept as it is
written. -/
def parse (token : String) : Except CommandFailure Target :=
  let trimmed := Text.trim token.toList
  let invalid : CommandFailure := .error (.invalidType (String.ofList trimmed))
  match split trimmed with
  | none => .error invalid
  | some (package, name) =>
      match TypeExpr.parse name with
      | .ok (.name none _ []) => .ok ⟨package, name⟩
      | .error .splitCharacter => .error .splitCharacter
      | _ => .error invalid

def parseAll (tokens : List String) : Except CommandFailure (List Target) := do
  let targets ← (tokens.filter fun token => !(Text.trim token.toList).isEmpty).mapM parse
  if targets.isEmpty then .error (.error .noTypes) else .ok targets

end Target

end GoTrace
