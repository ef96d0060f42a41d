import GoTrace.Resolve.Type

/-!
# Flattened interfaces

An interface is resolved by going through its elements in order: a method that it declares itself
goes to the end of the set and replaces any method of its name, the methods of an embedded
interface are added where their names are free. A declaration that only names another interface has
the methods of that one.

Embedding leads from interface to interface, so every function below is given the one that resolves
an interface by path and name, and `interface` ties the knot.
-/

namespace GoTrace.Resolution

section

variable (loader : Loader) (resolve : String → String → Resolution Interface)

/-- Resolves an embedded interface of another name; what is not an interface cannot be a member. -/
def embeddedInterface (path name interface : String) : Resolution Interface :=
  tryCatch (resolve path name) fun failure =>
    match failure with
    | .error (.notAnInterface member kind) =>
        fail (.unsupportedMember s!"{member} ({kind})" interface)
    | other => throw other

def embed (scope : Scope) (interface : String) (element : TypeExpr) : Resolution Interface :=
  match element.unparen with
  | .name none name [] =>
      if (scope.package.findType name).isSome then
        embeddedInterface resolve scope.package.path name interface
      else if name = "error" then return .builtinError
      else if name = "comparable" then fail (.unsupportedMember "comparable" interface)
      else fail (.unknownEmbed name interface)
  | .name (some aliasName) name [] => do
      let path ← packagePath scope aliasName
      let foreign ← package loader path
      if (foreign.findType name).isNone then
        fail (.unknownEmbed (aliasName ++ "." ++ name) interface)
      else embeddedInterface resolve path name interface
  | .name _ name _ => fail (.unsupportedType name "generic interfaces cannot be embedded")
  | .interface _ => fail (.unsupportedMember "interface" interface)
  | other => fail (.unsupportedMember other.kindName interface)

def addElement (scope : Scope) (interface : String) (methods : MethodSet) :
    Element → Resolution MethodSet
  | .method name signature _ => return methods.replace (← method loader scope name.name signature)
  | .embed [⟨false, element⟩] _ => do
      let embedded ← embed loader resolve scope interface element
      return embedded.methods.items.foldl Roster.addIfAbsent methods
  | .embed [⟨true, _⟩] _ => fail (.unsupportedMember "approximation element" interface)
  | .embed _ _ => fail (.unsupportedMember "type union" interface)

def members (scope : Scope) (interface : String) (elements : List Element) :
    Resolution MethodSet :=
  elements.foldlM (addElement loader resolve scope interface) Roster.empty

/-- The interface that the declaration of `declared` names, as in `type R io.Reader`. -/
def referenced (scope : Scope) (declared : String) (package : Option String) (name : String)
    (args : List TypeExpr) : Resolution Interface :=
  if !args.isEmpty then fail (.unsupportedType name "generic interfaces cannot be traced")
  else
    match package with
    | some aliasName => do
        let path ← packagePath scope aliasName
        resolve path name
    | none =>
        if (scope.package.findType name).isSome then resolve scope.package.path name
        else if name = "error" then return .builtinError
        else fail (.notAnInterface declared (name ++ " type"))

def declaredInterface (path name : String) : Resolution Interface := do
  let package ← package loader path
  match package.findType name with
  | none => fail (.unknownInterface name path)
  | some (unit, spec) =>
      if !spec.typeParams.isEmpty then
        fail (.unsupportedType (package.name ++ "." ++ name) "generic interfaces cannot be traced")
      else do
        let scope : Scope := ⟨package, unit, ← importTable loader package unit⟩
        match spec.type.unparen with
        | .interface elements =>
            return .new name package.ref (← members loader resolve scope name elements)
        | .name qualifier target args => do
            let interface ← referenced resolve scope name qualifier target args
            return .new name package.ref interface.methods
        | other => fail (.notAnInterface (package.name ++ "." ++ name) other.kindName)

end

/-- The interfaces from the first `key` on, and `key` again: a cycle of embeddings. -/
def cycleFrom (key : InterfaceKey) (resolving : List InterfaceKey) : List String :=
  (resolving.dropWhile (· ≠ key) ++ [key]).map fun entry => entry.1 ++ "." ++ entry.2

/-- The interface `name` of the package at `path`, with embeddings fewer than `bound` deep. -/
def interfaceUpTo (loader : Loader) : Nat → String → String → Resolution Interface
  | 0, _, _ => throw .exhausted
  | bound + 1, path, name => do
      let session ← get
      let key := (path, name)
      match session.interfaces.lookup key with
      | some interface => return interface
      | none =>
          if session.resolving.contains key then
            fail (.cyclicEmbed (cycleFrom key session.resolving))
          else do
            let interface ← whileResolving key
              (declaredInterface loader (interfaceUpTo loader bound) path name)
            modify fun session =>
              { session with interfaces := (key, interface) :: session.interfaces }
            return interface

/-- A bound on the number of interfaces that can be in resolution at a time. They are different
declarations, each of a package that is parsed already, or that is asked for or imported. -/
def depthBound (loader : Loader) (session : Session) : Nat :=
  session.declaredTypes + (session.importCount + loader.extent + 1) * loader.extent +
    session.resolving.length + 2

def interface (loader : Loader) (path name : String) : Resolution Interface := do
  interfaceUpTo loader (depthBound loader (← get)) path name

def resolvedPackage (loader : Loader) (path : String) : Resolution ResolvedPackage := do
  let package ← package loader path
  let interfaces ← package.interfaceNames.mapM fun name => interface loader path name
  return ⟨package.name, package.path, interfaces⟩

end GoTrace.Resolution
