import GoTrace.FileTree.Path
import GoTrace.Resolve.Error
import GoTrace.Text.Quoted
import GoTrace.Wrapper.File

/-!
# Errors of the command

Everything that can end a run of the command without a generated file.
-/

namespace GoTrace

inductive CommandError where
  | resolve (cause : ResolveError)
  | generate (cause : GenerateError)
  | invalidType (token : String)
  | noTypes
  | write (path : Path) (cause : FileError)
deriving DecidableEq, Repr

abbrev CommandFailure := Failure CommandError

def CommandError.diagnostic : CommandError → Diagnostic
  | resolve cause => cause.diagnostic
  | generate cause => cause.diagnostic
  | invalidType token =>
      { message := "invalid type " ++ Text.quote token
        code := "traceable::cli::invalid_type"
        help := some "Types are given as Name or import/path.Name" }
  | noTypes =>
      { message := "no types to generate"
        code := "traceable::cli::no_types"
        help := some "Pass --types or set TRACEABLE_TYPES" }
  | write path cause =>
      { message := s!"failed to write {path.text}: {cause.message}"
        code := "traceable::cli::write"
        help := none }

end GoTrace
