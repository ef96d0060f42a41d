import GoTrace.Collection.Roster
import GoTrace.Signature.Descriptor

/-!
# Methods and interfaces

A resolved interface is a set of methods with distinct names, in an order that depends on where each
method comes from. Methods that an interface declares itself are put in with `Roster.replace`, those
of an embedded interface with `Roster.addIfAbsent`.
-/

namespace GoTrace

/-- A method with its signature. -/
structure Method where
  name : String
  params : List Parameter
  results : List Parameter
deriving Repr, Inhabited

namespace Method

def contextParam (method : Method) : Option Nat :=
  method.params.findIdx? fun param => param.type.isNamed "context" "Context"

def isVariadic (method : Method) : Bool :=
  match method.params.getLast? with
  | some param => param.type.isVariadic
  | none => false

def references (method : Method) : List PackageRef :=
  Descriptor.referencesOfAll method.params ++ Descriptor.referencesOfAll method.results

end Method

abbrev MethodSet := Roster Method.name

/-- A resolved interface: everything it embeds is part of its methods. -/
structure Interface where
  name : String
  package : PackageRef
  methods : MethodSet
  /-- The packages that the methods refer to, with the alias to prefer for each. -/
  imports : PathMap
  collected : imports = PathMap.empty.addPackages (methods.items.flatMap Method.references)

namespace Interface

def new (name : String) (package : PackageRef) (methods : MethodSet) : Interface :=
  ⟨name, package, methods, _, rfl⟩

instance : Inhabited Interface := ⟨new "" ⟨"", ""⟩ Roster.empty⟩

def type (interface : Interface) : Descriptor :=
  .named (some interface.package) interface.name

def builtinError : Interface :=
  new "error" ⟨"", ""⟩ (Roster.empty.replace ⟨"Error", [], [⟨none, .named none "string"⟩]⟩)

end Interface

end GoTrace
