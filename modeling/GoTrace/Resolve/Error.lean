import GoTrace.FileTree.Walk
import GoTrace.Syntax.Parse

/-!
# Errors of resolution

Everything that can be wrong with the packages that an interface is resolved over.
-/

namespace GoTrace

/-- An error of resolving an interface or a type. -/
inductive ResolveError where
  | load (paths : List String)
  | unknownPackage (aliasName file : String)
  | unknownEmbed (name interface : String)
  | unknownInterface (name package : String)
  | notAnInterface (name kind : String)
  | unsupportedMember (member interface : String)
  | unsupportedType (type reason : String)
  | badArrayLength (expression reason : String)
  | cyclicEmbed (chain : List String)
  | parse (file : String) (cause : ParseError)
  | io (path : String) (cause : FileError)
deriving DecidableEq, Repr

abbrev ResolveFailure := Failure ResolveError

namespace ResolveError

def diagnostic : ResolveError → Diagnostic
  | load paths =>
      let missing := ", ".intercalate paths
      { message := s!"failed to load packages: {missing}"
        code := "traceable::resolve::load"
        help := some ("Check that the import paths exist in the module, its dependencies, " ++
          "GOROOT or GOPATH") }
  | unknownPackage aliasName file =>
      { message := s!"unknown package {aliasName} referenced in {file}"
        code := "traceable::resolve::unknown_package"
        help := some "Every qualified type must use a package imported by the same file" }
  | unknownEmbed name interface =>
      { message := s!"unknown embedded interface {name} in {interface}"
        code := "traceable::resolve::unknown_embed"
        help := none }
  | unknownInterface name package =>
      { message := s!"interface {name} not found in package {package}"
        code := "traceable::resolve::unknown_interface"
        help := some "Type names are case sensitive and must be declared at package level" }
  | notAnInterface name kind =>
      { message := s!"{name} is a {kind}, not an interface"
        code := "traceable::resolve::not_an_interface"
        help := none }
  | unsupportedMember member interface =>
      { message := s!"unsupported member {member} in interface {interface}"
        code := "traceable::resolve::unsupported_member"
        help := some "Only methods and embedded interfaces can be traced; type sets cannot" }
  | unsupportedType type reason =>
      { message := s!"unsupported type {type}: {reason}"
        code := "traceable::resolve::unsupported_type"
        help := none }
  | badArrayLength expression reason =>
      { message := s!"bad array length {expression}: {reason}"
        code := "traceable::resolve::bad_array_length"
        help := some "Array lengths must be integer literals or constants initialised with one" }
  | cyclicEmbed chain =>
      let steps := " -> ".intercalate chain
      { message := s!"cyclic embedding: {steps}"
        code := "traceable::resolve::cyclic_embed"
        help := none }
  | parse file _ =>
      { message := s!"failed to parse {file}"
        code := "traceable::resolve::parse"
        help := none }
  | io path cause =>
      { message := s!"failed to read {path}: {cause.message}"
        code := "traceable::resolve::io"
        help := none }

end ResolveError

end GoTrace
