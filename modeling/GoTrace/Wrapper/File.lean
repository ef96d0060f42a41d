import GoTrace.Source.Diagnostic
import GoTrace.Wrapper.Backend
import GoTrace.Wrapper.Names

/-!
# Generated files

One file holds wrappers for several interfaces. A wrapper is a struct with the wrapped value and a
tracer, a function that makes one, and for every method of the interface a method that opens a span
around the call it passes on.
-/

namespace GoTrace

/-! ## Errors of generation -/

/-- An error of putting together a generated file. -/
inductive GenerateError where
  | unknownInterface (name : String)
  | duplicateInterface (name first second : String)
deriving DecidableEq, Repr

namespace GenerateError

def diagnostic : GenerateError → Diagnostic
  | unknownInterface name =>
      { message := s!"interface {name} was not added to the generator"
        code := "traceable::generate::unknown_interface"
        help := some "Resolve the interface and pass it to Generator::add_interface first" }
  | duplicateInterface name first second =>
      { message := s!"interfaces {first} and {second} would both generate Traced{name}"
        code := "traceable::generate::duplicate_interface"
        help := some "Generate interfaces that share a name into separate files" }

end GenerateError

/-! ## Files -/

/-- The package of a generated file. -/
structure OutputPackage where
  name : String
  path : String
deriving DecidableEq, Repr

/-- The interfaces that share a generated file, with distinct names. -/
structure WrapperFile where
  output : OutputPackage
  backend : Backend
  interfaces : Roster Interface.name

namespace WrapperFile

def empty (output : OutputPackage) (backend : Backend) : WrapperFile :=
  ⟨output, backend, Roster.empty⟩

/-- Adds an interface. Adding it again changes nothing, and two interfaces of one name from
different packages cannot share a file. The file is left behind also when the interface is refused. -/
def add (file : WrapperFile) (interface : Interface) : Except GenerateError Unit × WrapperFile :=
  match file.interfaces.get? interface.name with
  | some held =>
      if held.package.path = interface.package.path then (.ok (), file)
      else
        (.error (.duplicateInterface interface.name (held.package.path ++ "." ++ held.name)
          (interface.package.path ++ "." ++ interface.name)), file)
  | none => (.ok (), { file with interfaces := file.interfaces.addIfAbsent interface })

def addAll (file : WrapperFile) : List Interface → Except GenerateError Unit × WrapperFile
  | [] => (.ok (), file)
  | interface :: rest =>
      match file.add interface with
      | (.ok (), later) => later.addAll rest
      | (.error cause, later) => (.error cause, later)

/-- The packages that wrappers for the interfaces refer to, with the aliases to prefer. -/
def packages (backend : Backend) (interfaces : List Interface) : PathMap :=
  let wrapped := interfaces.foldl
    (fun map interface =>
      interface.imports.entries.foldl (fun map entry => map.addIfAbsent entry.1 entry.2)
        (map.addPackages interface.type.references))
    PathMap.empty
  let traced := wrapped.addPackages backend.tracerType.references
  if backend.needsBackground &&
      interfaces.any fun interface =>
        interface.methods.items.any fun method => method.contextParam.isNone then
    traced.addIfAbsent contextPath contextPath
  else traced

def padded (width : Nat) (text : String) : String :=
  text ++ String.ofList (List.replicate (width - text.length) ' ')

def methodText (backend : Backend) (imports : FileImports) (interface : Interface)
    (fields : WrapperFields) (method : Method) : String :=
  let names := parameterNames method imports
  let types := Descriptor.renderAll imports.qualifier method.params
  let params := ", ".intercalate (names.zipWith (fun name type => name ++ " " ++ type) types)
  let results := resultsText (Descriptor.renderAll imports.qualifier method.results)
  let parent := match method.contextParam with
    | some index => SpanParent.context (names[index]?.getD "")
    | none => .root (imports.alias? contextPath)
  let package := (imports.qualifier backend.package).getD backend.package.aliasName
  let start := backend.startSpan package ("t." ++ fields.tracer)
    (interface.name ++ "." ++ method.name) parent
  let args := ", ".intercalate names ++ (if method.isVariadic then "..." else "")
  let call := s!"t.{fields.next}.{method.name}({args})"
  s!"\nfunc (t *Traced{interface.name}) {method.name}({params}){results} \x7b\n" ++
    s!"\t{start}\n\t{backend.finishSpan}\n\n" ++
    (if method.results.isEmpty then s!"\t{call}\n" else s!"\treturn {call}\n") ++
    "\x7d\n"

/-- The wrapper for one interface: its type, the function that makes one, and its methods. -/
def wrapperText (backend : Backend) (imports : FileImports) (interface : Interface) : String :=
  let wrapper := "Traced" ++ interface.name
  let wrapped := interface.type.render imports.qualifier
  let tracer := backend.tracerType.render imports.qualifier
  let fields := WrapperFields.ofMethods interface.methods
  let next := padded fields.width fields.next
  let tracerField := padded fields.width fields.tracer
  s!"\n// {wrapper} wraps {wrapped} and records a span around every call.\n" ++
    s!"type {wrapper} struct \x7b\n" ++
    s!"\t{next} {wrapped}\n" ++
    s!"\t{tracerField} {tracer}\n" ++
    "\x7d\n" ++
    s!"\n// New{wrapper} returns a {wrapper} delegating to next.\n" ++
    s!"func New{wrapper}(next {wrapped}, tracer {tracer}) *{wrapper} \x7b\n" ++
    s!"\treturn &{wrapper}\x7b{fields.next}: next, {fields.tracer}: tracer\x7d\n" ++
    "\x7d\n" ++
    String.join (interface.methods.items.map (methodText backend imports interface fields))

def header : String := "// Code generated by traceable. DO NOT EDIT."

def render (output : OutputPackage) (backend : Backend) (interfaces : List Interface) : String :=
  let imports := FileImports.ofPackages output.path (packages backend interfaces)
  header ++ "\n\n" ++
    s!"package {output.name}\n" ++
    (if imports.aliases.isEmpty then "" else "\n" ++ imports.render) ++
    String.join (interfaces.map (wrapperText backend imports))

def text (file : WrapperFile) : String :=
  render file.output file.backend file.interfaces.items

def textOf (file : WrapperFile) (name : String) : Except GenerateError String :=
  match file.interfaces.get? name with
  | some interface => .ok (render file.output file.backend [interface])
  | none => .error (.unknownInterface name)

end WrapperFile

end GoTrace
