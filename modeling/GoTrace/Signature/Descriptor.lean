import GoTrace.Collection.PathMap
import GoTrace.Syntax.Type

/-!
# Resolved types

A closed description of every type that a parameter or result of a traced method can have. Names of
other packages carry the import path of their package, so a type can be written in any file: a
qualifier says what a package is called there.
-/

namespace GoTrace

/-- A package as a type refers to it: its import path, and the alias that its file uses. -/
structure PackageRef where
  path : String
  aliasName : String
deriving DecidableEq, Repr, Inhabited

/-- A place in a signature: a type, which may have a name. -/
structure Slot (τ : Type) where
  name : Option String
  type : τ
deriving DecidableEq, Repr

inductive Descriptor where
  /-- A predeclared or unexported name without a package, else a name of its package. -/
  | named (package : Option PackageRef) (name : String)
  | pointer (target : Descriptor)
  | sequence (length : Option Nat) (element : Descriptor)
  | map (key value : Descriptor)
  | channel (direction : Direction) (element : Descriptor)
  | function (params results : List (Slot Descriptor))
  | variadic (element : Descriptor)
  | emptyInterface
  | emptyStruct
deriving Repr, Inhabited

abbrev Parameter := Slot Descriptor

/-- What a package is called where a type is written. Without a name the type stands alone. -/
abbrev Qualifier := PackageRef → Option String

namespace Qualifier

/-- Every package under the alias of the file that declares the type. -/
def declared : Qualifier := fun package => some package.aliasName

def localTo (path : String) : Qualifier := fun package =>
  if package.path = path then none else some package.aliasName

end Qualifier

def resultsText : List String → String
  | [] => ""
  | [result] => " " ++ result
  | results => " (" ++ ", ".intercalate results ++ ")"

namespace Descriptor

mutual

def render (qualify : Qualifier) : Descriptor → String
  | .named package name =>
      match package.bind qualify with
      | some aliasName => aliasName ++ "." ++ name
      | none => name
  | .pointer target => "*" ++ target.render qualify
  | .sequence none element => "[]" ++ element.render qualify
  | .sequence (some length) element => "[" ++ toString length ++ "]" ++ element.render qualify
  | .map key value => "map[" ++ key.render qualify ++ "]" ++ value.render qualify
  | .channel .send element => "chan<- " ++ element.render qualify
  | .channel .receive element => "<-chan " ++ element.render qualify
  -- Without parentheses the arrow would belong to the outer channel.
  | .channel .both (.channel .receive element) =>
      "chan (<-chan " ++ element.render qualify ++ ")"
  | .channel .both element => "chan " ++ element.render qualify
  | .function params results =>
      "func(" ++ ", ".intercalate (renderAll qualify params) ++ ")" ++
        resultsText (renderAll qualify results)
  | .variadic element => "..." ++ element.render qualify
  | .emptyInterface => "interface\x7b\x7d"
  | .emptyStruct => "struct\x7b\x7d"

def renderAll (qualify : Qualifier) : List Parameter → List String
  | [] => []
  | ⟨_, type⟩ :: rest => type.render qualify :: renderAll qualify rest

end

mutual

/-- The packages that the type refers to, in the order in which `render` writes them. -/
def references : Descriptor → List PackageRef
  | .named package _ => package.toList
  | .pointer target => target.references
  | .sequence _ element => element.references
  | .map key value => key.references ++ value.references
  | .channel _ element => element.references
  | .function params results => referencesOfAll params ++ referencesOfAll results
  | .variadic element => element.references
  | .emptyInterface => []
  | .emptyStruct => []

def referencesOfAll : List Parameter → List PackageRef
  | [] => []
  | ⟨_, type⟩ :: rest => type.references ++ referencesOfAll rest

end

def isNamed (type : Descriptor) (path name : String) : Bool :=
  match type with
  | .named (some package) typeName => package.path = path && typeName = name
  | _ => false

def isVariadic : Descriptor → Bool
  | .variadic _ => true
  | _ => false

end Descriptor

/-- Records packages with their aliases. The first alias of a path is kept. -/
def PathMap.addPackages (map : PathMap) (packages : List PackageRef) : PathMap :=
  packages.foldl (fun map package => map.addIfAbsent package.path package.aliasName) map

end GoTrace
