import GoTrace.Proofs.Wrapper.Text

/-!
# What generated code is put together from

A wrapper is a sequence of parts: texts that stay the same in every file, and names, which are written
with the qualifier that the file has for their package. Types are taken apart down to their names, and
bodies of methods down to the functions of other packages that they call.
-/

namespace GoTrace

/-- A piece of generated code. -/
inductive Fragment where
  | plain (text : String)
  /-- A predeclared name, or the name of something that a package declares. -/
  | name (package : Option PackageRef) (name : String)

namespace Fragment

def write (qualify : Qualifier) : Fragment → String
  | .plain text => text
  | .name package declared => (Descriptor.named package declared).render qualify

def name? : Fragment → Option (Option PackageRef × String)
  | .plain _ => none
  | .name package declared => some (package, declared)

def writeAll (qualify : Qualifier) (parts : List Fragment) : String :=
  String.join (parts.map (write qualify))

def names (parts : List Fragment) : List (Option PackageRef × String) := parts.filterMap name?

def separated : List (List Fragment) → List Fragment := List.intercalate [plain ", "]

def results : List (List Fragment) → List Fragment
  | [] => []
  | [result] => plain " " :: result
  | results => plain " (" :: (separated results ++ [plain ")"])

variable {qualify : Qualifier}

@[simp] theorem writeAll_nil : writeAll qualify [] = "" := rfl

@[simp] theorem writeAll_plain (text : String) (rest : List Fragment) :
    writeAll qualify (plain text :: rest) = text ++ writeAll qualify rest :=
  String.join_cons

@[simp] theorem writeAll_name (package : Option PackageRef) (name : String) (rest : List Fragment) :
    writeAll qualify (.name package name :: rest) =
      (Descriptor.named package name).render qualify ++ writeAll qualify rest :=
  String.join_cons

@[simp] theorem writeAll_append (first second : List Fragment) :
    writeAll qualify (first ++ second) = writeAll qualify first ++ writeAll qualify second := by
  rw [writeAll, List.map_append, String.join_append]
  rfl

theorem writeAll_flatMap {α : Type} (values : List α) (parts : α → List Fragment) :
    writeAll qualify (values.flatMap parts) =
      String.join (values.map fun value => writeAll qualify (parts value)) := by
  induction values with
  | nil => rfl
  | cons value rest ih =>
      rw [List.flatMap_cons, writeAll_append, ih, List.map_cons, String.join_cons]

theorem writeAll_separated (items : List (List Fragment)) :
    writeAll qualify (separated items) = ", ".intercalate (items.map (writeAll qualify)) := by
  induction items with
  | nil => rfl
  | cons first rest ih =>
      cases rest with
      | nil => simp [separated]
      | cons second others =>
          rw [separated, List.intercalate_cons_cons, writeAll_append, writeAll_append,
            List.map_cons, List.map_cons, String.intercalate_cons_cons, ← List.map_cons, ← ih]
          simp [separated]

theorem writeAll_results (items : List (List Fragment)) :
    writeAll qualify (results items) = resultsText (items.map (writeAll qualify)) := by
  match items with
  | [] => rfl
  | [result] => simp [results, resultsText]
  | first :: second :: others => simp [results, resultsText, writeAll_separated, String.append_assoc]

@[simp] theorem names_nil : names [] = [] := rfl

@[simp] theorem names_plain (text : String) (rest : List Fragment) :
    names (plain text :: rest) = names rest := rfl

@[simp] theorem names_name (package : Option PackageRef) (name : String) (rest : List Fragment) :
    names (.name package name :: rest) = (package, name) :: names rest := rfl

@[simp] theorem names_append (first second : List Fragment) :
    names (first ++ second) = names first ++ names second :=
  List.filterMap_append

theorem names_flatMap {α : Type} (values : List α) (parts : α → List Fragment) :
    names (values.flatMap parts) = values.flatMap fun value => names (parts value) :=
  List.filterMap_flatMap

theorem names_separated (items : List (List Fragment)) :
    names (separated items) = items.flatMap names := by
  induction items with
  | nil => rfl
  | cons first rest ih =>
      cases rest with
      | nil => simp [separated]
      | cons second others =>
          rw [separated, List.intercalate_cons_cons, names_append, names_append, List.flatMap_cons,
            ← ih]
          simp [separated]

theorem names_results (items : List (List Fragment)) :
    names (results items) = items.flatMap names := by
  match items with
  | [] => rfl
  | [result] => simp [results]
  | first :: second :: others => simp [results, names_separated]

end Fragment

/-! ## Types -/

namespace Descriptor

open Fragment

mutual

def parts : Descriptor → List Fragment
  | .named package typeName => [name package typeName]
  | .pointer target => plain "*" :: target.parts
  | .sequence none element => plain "[]" :: element.parts
  | .sequence (some length) element => plain ("[" ++ toString length ++ "]") :: element.parts
  | .map key value => plain "map[" :: (key.parts ++ plain "]" :: value.parts)
  | .channel .send element => plain "chan<- " :: element.parts
  | .channel .receive element => plain "<-chan " :: element.parts
  | .channel .both element =>
      if element.isReceive then plain "chan (" :: (element.parts ++ [plain ")"])
      else plain "chan " :: element.parts
  | .function params results =>
      plain "func(" :: (separated (partsOfAll params) ++
        plain ")" :: Fragment.results (partsOfAll results))
  | .variadic element => plain "..." :: element.parts
  | .emptyInterface => [plain "interface\x7b\x7d"]
  | .emptyStruct => [plain "struct\x7b\x7d"]

/-- The parts of the types of parameters or results. -/
def partsOfAll : List Parameter → List (List Fragment)
  | [] => []
  | ⟨_, type⟩ :: rest => type.parts :: partsOfAll rest

end

variable (qualify : Qualifier)

mutual

theorem writeAll_parts (type : Descriptor) : writeAll qualify type.parts = type.render qualify := by
  match type with
  | .named package typeName => simp [parts]
  | .pointer target => simp [parts, render, writeAll_parts target]
  | .sequence none element => simp [parts, render, writeAll_parts element]
  | .sequence (some length) element => simp [parts, render, writeAll_parts element]
  | .map key value =>
      simp [parts, render, writeAll_parts key, writeAll_parts value, String.append_assoc]
  | .channel .send element => simp [parts, render, writeAll_parts element]
  | .channel .receive element => simp [parts, render, writeAll_parts element]
  | .channel .both element =>
      cases hreceive : element.isReceive with
      | true =>
          rw [← String.toList_inj, toList_render_both_receive hreceive]
          simp [parts, hreceive, writeAll_parts element]
      | false =>
          rw [← String.toList_inj, toList_render_both hreceive]
          simp [parts, hreceive, writeAll_parts element]
  | .function params results =>
      simp [parts, render, writeAll_separated, writeAll_results, writeAll_partsOfAll params,
        writeAll_partsOfAll results, String.append_assoc]
  | .variadic element => simp [parts, render, writeAll_parts element]
  | .emptyInterface => simp [parts, render]
  | .emptyStruct => simp [parts, render]

theorem writeAll_partsOfAll (slots : List Parameter) :
    (partsOfAll slots).map (writeAll qualify) = renderAll qualify slots := by
  match slots with
  | [] => rfl
  | ⟨_, type⟩ :: rest =>
      rw [partsOfAll, renderAll, List.map_cons, writeAll_parts type, writeAll_partsOfAll rest]

end

mutual

theorem names_parts (type : Descriptor) : Fragment.names type.parts = type.names := by
  match type with
  | .named package typeName => simp [parts, names]
  | .pointer target => simp [parts, names, names_parts target]
  | .sequence none element => simp [parts, names, names_parts element]
  | .sequence (some length) element => simp [parts, names, names_parts element]
  | .map key value => simp [parts, names, names_parts key, names_parts value]
  | .channel .send element => simp [parts, names, names_parts element]
  | .channel .receive element => simp [parts, names, names_parts element]
  | .channel .both element =>
      cases hreceive : element.isReceive with
      | true => simp [parts, names, hreceive, names_parts element]
      | false => simp [parts, names, hreceive, names_parts element]
  | .function params results =>
      simp [parts, names, names_separated, names_results, names_partsOfAll params,
        names_partsOfAll results]
  | .variadic element => simp [parts, names, names_parts element]
  | .emptyInterface => simp [parts, names]
  | .emptyStruct => simp [parts, names]

theorem names_partsOfAll (slots : List Parameter) :
    (partsOfAll slots).flatMap Fragment.names = namesOfAll slots := by
  match slots with
  | [] => rfl
  | ⟨_, type⟩ :: rest =>
      rw [partsOfAll, namesOfAll, List.flatMap_cons, names_parts type, names_partsOfAll rest]

end

end Descriptor

/-! ## Wrappers -/

namespace WrapperFile

open Fragment

def contextPackage : PackageRef := ⟨contextPath, contextPath⟩

def fieldParts (width : Nat) (fieldName : String) (type : List Fragment) : List Fragment :=
  plain ("\t" ++ padded width fieldName ++ " ") :: (type ++ [plain "\n"])

def structParts (backend : Backend) (interface : Interface) : List Fragment :=
  let wrapper := "Traced" ++ interface.name
  let wrapped := interface.type.parts
  let fields := WrapperFields.ofMethods interface.methods
  plain ("\n// " ++ wrapper ++ " wraps ") :: (wrapped ++
    plain (" and records a span around every call.\n" ++ ("type " ++ wrapper ++ " struct \x7b\n")) ::
      (fieldParts fields.width fields.next wrapped ++
        fieldParts fields.width fields.tracer backend.tracerType.parts ++ [plain "\x7d\n"]))

def constructorParts (backend : Backend) (interface : Interface) : List Fragment :=
  let wrapper := "Traced" ++ interface.name
  let fields := WrapperFields.ofMethods interface.methods
  plain (("\n// New" ++ wrapper ++ " returns a " ++ wrapper ++ " delegating to next.\n") ++
      ("func New" ++ wrapper ++ "(next ")) ::
    (interface.type.parts ++ plain ", tracer " :: (backend.tracerType.parts ++
      [plain (") *" ++ wrapper ++ " \x7b\n" ++ ("\treturn &" ++ wrapper ++ "\x7b" ++ fields.next ++
        ": next, " ++ fields.tracer ++ ": tracer\x7d\n") ++ "\x7d\n")]))

/-- The statement that opens the span `spanName`. Its parent comes from the context parameter, if
there is one. -/
def startParts (backend : Backend) (tracer spanName : String) (context : Option String) :
    List Fragment :=
  let quoted := Text.quote spanName
  match backend, context with
  | .openTracing, some ctx =>
      [plain ("span, " ++ ctx ++ " := "),
        name (some backend.package) "StartSpanFromContextWithTracer",
        plain ("(" ++ ctx ++ ", " ++ tracer ++ ", " ++ quoted ++ ")")]
  | .openTracing, none => [plain ("span := " ++ tracer ++ ".StartSpan(" ++ quoted ++ ")")]
  | .openTelemetry, some ctx =>
      [plain (ctx ++ ", span := " ++ tracer ++ ".Start(" ++ ctx ++ ", " ++ quoted ++ ")")]
  | .openTelemetry, none =>
      [plain ("_, span := " ++ tracer ++ ".Start("), name (some contextPackage) "Background",
        plain ("(), " ++ quoted ++ ")")]

def contextName (imports : FileImports) (method : Method) : Option String :=
  method.contextParam.map fun index => (parameterNames method imports)[index]?.getD ""

def bodyParts (backend : Backend) (imports : FileImports) (interface : Interface)
    (fields : WrapperFields) (method : Method) : List Fragment :=
  let call := callText imports fields method
  plain "\n" :: plain "\t" :: (startParts backend ("t." ++ fields.tracer)
    (interface.name ++ "." ++ method.name) (contextName imports method) ++
      [plain ("\n\t" ++ backend.finishSpan ++ "\n\n" ++
        (if method.results.isEmpty then "\t" ++ call ++ "\n" else "\treturn " ++ call ++ "\n"))])

def paramParts (names : List String) (slots : List Parameter) : List (List Fragment) :=
  names.zipWith (fun name type => plain (name ++ " ") :: type) (Descriptor.partsOfAll slots)

def methodParts (backend : Backend) (imports : FileImports) (interface : Interface)
    (method : Method) : List Fragment :=
  plain ("\nfunc (t *Traced" ++ interface.name ++ ") " ++ method.name ++ "(") ::
    (separated (paramParts (parameterNames method imports) method.params) ++ plain ")" ::
      (Fragment.results (Descriptor.partsOfAll method.results) ++ plain " \x7b" ::
        (bodyParts backend imports interface (WrapperFields.ofMethods interface.methods) method ++
          [plain "\x7d\n"])))

def wrapperParts (backend : Backend) (imports : FileImports) (interface : Interface) : List Fragment :=
  structParts backend interface ++ constructorParts backend interface ++
    interface.methods.items.flatMap (methodParts backend imports interface)

variable {backend : Backend} {imports : FileImports} {interface : Interface} {method : Method}

theorem writeAll_structParts : writeAll imports.qualifier (structParts backend interface) =
    structText backend imports interface := by
  simp [structParts, structText, fieldParts, fieldLine, Descriptor.writeAll_parts,
    String.append_assoc]

theorem writeAll_constructorParts : writeAll imports.qualifier (constructorParts backend interface) =
    constructorText backend imports interface := by
  simp [constructorParts, constructorText, Descriptor.writeAll_parts, String.append_assoc]

/-- The backend's package and `context` are called what the statement says, unless the file is in one
of them. -/
theorem writeAll_startParts (hbackend : imports.localPath ≠ backend.package.path)
    (hcontext : imports.localPath ≠ contextPath) (tracer spanName : String) :
    writeAll imports.qualifier (startParts backend tracer spanName (contextName imports method)) =
      backend.startSpan ((imports.qualifier backend.package).getD backend.package.aliasName) tracer
        spanName (spanParent imports method) := by
  have hbackendName : imports.qualifier backend.package =
      some ((imports.alias? backend.package.path).getD backend.package.aliasName) :=
    if_neg hbackend.symm
  have hcontextName : imports.qualifier contextPackage =
      some ((imports.alias? contextPath).getD contextPath) :=
    if_neg hcontext.symm
  -- A literal that ends inside a call is split behind the name of the function.
  have hstart (rest : String) : ".StartSpanFromContextWithTracer(" ++ rest =
      ".StartSpanFromContextWithTracer" ++ ("(" ++ rest) := by
    rw [← String.append_assoc]
    rfl
  have hbackground (rest : String) :
      ".Background(), " ++ rest = ".Background" ++ ("(), " ++ rest) := by
    rw [← String.append_assoc]
    rfl
  unfold spanParent contextName
  cases method.contextParam with
  | some index =>
      cases backend with
      | openTracing =>
          simp [startParts, Backend.startSpan_openTracing_context, Descriptor.render, hbackendName,
            String.append_assoc, hstart]
      | openTelemetry =>
          simp [startParts, Backend.startSpan_openTelemetry_context, String.append_assoc]
  | none =>
      cases backend with
      | openTracing => simp [startParts, Backend.startSpan_openTracing_root, String.append_assoc]
      | openTelemetry =>
          simp [startParts, Backend.startSpan_openTelemetry_root, Descriptor.render, hcontextName,
            String.append_assoc, hbackground]

theorem writeAll_bodyParts (hbackend : imports.localPath ≠ backend.package.path)
    (hcontext : imports.localPath ≠ contextPath) (fields : WrapperFields) :
    writeAll imports.qualifier (bodyParts backend imports interface fields method) =
      bodyText backend imports interface fields method := by
  simp [bodyParts, bodyText, writeAll_startParts hbackend hcontext, String.append_assoc]

theorem writeAll_paramParts {qualify : Qualifier} (names : List String) (slots : List Parameter) :
    (paramParts names slots).map (writeAll qualify) =
      names.zipWith (fun name type => name ++ " " ++ type) (Descriptor.renderAll qualify slots) := by
  rw [← Descriptor.writeAll_partsOfAll, paramParts, List.map_zipWith, List.zipWith_map_right]
  simp

theorem writeAll_methodParts (hbackend : imports.localPath ≠ backend.package.path)
    (hcontext : imports.localPath ≠ contextPath) :
    writeAll imports.qualifier (methodParts backend imports interface method) =
      methodText backend imports interface (WrapperFields.ofMethods interface.methods) method := by
  rw [methodText_eq]
  simp [methodParts, writeAll_bodyParts hbackend hcontext, writeAll_separated, writeAll_paramParts,
    writeAll_results, Descriptor.writeAll_partsOfAll, String.append_assoc]

theorem writeAll_wrapperParts (hbackend : imports.localPath ≠ backend.package.path)
    (hcontext : imports.localPath ≠ contextPath) :
    writeAll imports.qualifier (wrapperParts backend imports interface) =
      wrapperText backend imports interface := by
  rw [wrapperText_eq, wrapperParts, writeAll_append, writeAll_append, writeAll_structParts,
    writeAll_constructorParts, writeAll_flatMap]
  simp only [writeAll_methodParts hbackend hcontext]

end WrapperFile

end GoTrace
