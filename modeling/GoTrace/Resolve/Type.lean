import GoTrace.Resolve.Constant

/-!
# Types in a scope

A type expression becomes a descriptor: names get the packages they belong to, and array lengths
their values. Parentheses leave no trace.
-/

namespace GoTrace.Resolution

/-- A name in a scope. An exported name without a qualifier belongs to the package of the scope. -/
def namedType (scope : Scope) (package : Option String) (name : String) : Resolution Descriptor :=
  match package with
  | some aliasName =>
      match scope.imports.pathOf aliasName with
      | some path => return .named (some ⟨path, aliasName⟩) name
      | none => fail (.unknownPackage aliasName scope.fileName)
  | none => return .named (if isExported name then some scope.package.ref else none) name

/-- The parameters that one field stands for: one for each name, or one without a name. -/
def parametersOf (names : List Ident) (type : Descriptor) : List Parameter :=
  if names.isEmpty then [⟨none, type⟩] else names.map fun name => ⟨some name.name, type⟩

mutual

def type (loader : Loader) (scope : Scope) : TypeExpr → Resolution Descriptor
  | .name package name args =>
      if args.isEmpty then namedType scope package name
      else fail (.unsupportedType name "generic type instantiations are not supported")
  | .pointer target => return .pointer (← type loader scope target)
  | .slice element => return .sequence none (← type loader scope element)
  | .array length element => do
      let length ← arrayLength loader scope length
      return .sequence (some length) (← type loader scope element)
  | .map key value => do
      let key ← type loader scope key
      return .map key (← type loader scope value)
  | .chan direction element => return .channel direction (← type loader scope element)
  | .func ⟨params, results⟩ => do
      let params ← parameters loader scope params
      return .function params (← parameters loader scope results)
  | .interface [] => return .emptyInterface
  | .interface _ =>
      fail (.unsupportedType "interface\x7b...\x7d"
        "anonymous interfaces with methods are not supported")
  | .struct [] => return .emptyStruct
  | .struct _ =>
      fail (.unsupportedType "struct\x7b...\x7d" "anonymous structs with fields are not supported")
  | .paren inner => type loader scope inner
  | .ellipsis element => return .variadic (← type loader scope element)

def parameters (loader : Loader) (scope : Scope) : List Field → Resolution (List Parameter)
  | [] => return []
  | ⟨names, fieldType, _, _⟩ :: rest => do
      let descriptor ← type loader scope fieldType
      return parametersOf names descriptor ++ (← parameters loader scope rest)

end

def method (loader : Loader) (scope : Scope) (name : String) (signature : Signature) :
    Resolution Method := do
  let params ← parameters loader scope signature.params
  return ⟨name, params, ← parameters loader scope signature.results⟩

end GoTrace.Resolution
