import GoTrace.Proofs.Wrapper.Parts

/-!
# A generated file imports what it mentions

The packages of a file are collected from the interfaces, and the code is written from the interfaces
again. Both go by the same names, so each package that the code mentions is imported, under the alias
that the code uses, and nothing else is.
-/

namespace GoTrace

open Fragment

/-! ## What a wrapper mentions -/

/-- The functions of other packages that a wrapper of the method calls. -/
def Backend.calls (backend : Backend) (method : Method) : List (Option PackageRef × String) :=
  match backend, method.contextParam with
  | .openTracing, some _ => [(some backend.package, "StartSpanFromContextWithTracer")]
  | .openTracing, none => []
  | .openTelemetry, some _ => []
  | .openTelemetry, none => [(some WrapperFile.contextPackage, "Background")]

def Interface.mention (interface : Interface) : Option PackageRef × String :=
  (some interface.package, interface.name)

def Backend.mention (backend : Backend) : Option PackageRef × String :=
  (some backend.package, "Tracer")

/-- The names in the code of a wrapper, in order: the interface and the type of tracers, once as types
of fields and once as types of parameters, and the names in each method. -/
def Interface.mentions (backend : Backend) (interface : Interface) :
    List (Option PackageRef × String) :=
  [interface.mention, backend.mention, interface.mention, backend.mention] ++
    interface.methods.items.flatMap fun method => method.names ++ backend.calls method

namespace WrapperFile

variable {backend : Backend} {imports : FileImports} {interface : Interface} {method : Method}

theorem names_startParts (tracer spanName : String) :
    names (startParts backend tracer spanName (contextName imports method)) =
      backend.calls method := by
  unfold contextName Backend.calls
  cases method.contextParam <;> cases backend <;> rfl

theorem names_paramParts (slots : List Parameter) (names : List String)
    (h : names.length = slots.length) :
    (paramParts names slots).flatMap Fragment.names = Descriptor.namesOfAll slots := by
  induction slots generalizing names with
  | nil =>
      rw [List.length_eq_zero_iff.mp h]
      rfl
  | cons slot rest ih =>
      obtain ⟨name, names, rfl⟩ := List.exists_cons_of_length_eq_add_one h
      have hrest := ih names (Nat.succ.inj h)
      rw [paramParts] at hrest ⊢
      rw [Descriptor.partsOfAll, List.zipWith_cons_cons, List.flatMap_cons, hrest,
        Descriptor.namesOfAll, names_plain, Descriptor.names_parts]

theorem names_methodParts : names (methodParts backend imports interface method) =
    method.names ++ backend.calls method := by
  have hlength := length_parameterNames method imports
  simp [methodParts, bodyParts, names_separated, names_results, names_startParts, Method.names,
    names_paramParts _ _ hlength, Descriptor.names_partsOfAll]

/-- The names in a wrapper: the one in the comment above it, and those in its code. -/
theorem names_wrapperParts : names (wrapperParts backend imports interface) =
    interface.mention :: interface.mentions backend := by
  simp [wrapperParts, structParts, constructorParts, fieldParts, Interface.type, Backend.tracerType,
    Descriptor.parts, names_flatMap, names_methodParts, Interface.mention, Interface.mentions,
    Backend.mention]

theorem package_of_mem_calls {package : PackageRef} {name : String}
    (h : (some package, name) ∈ backend.calls method) :
    package = backend.package ∨ package = contextPackage ∧ backend.needsBackground = true ∧
      method.contextParam = none := by
  unfold Backend.calls at h
  cases hcontext : method.contextParam <;> cases backend <;> simp_all [Backend.needsBackground]

variable {interfaces : List Interface}

theorem mem_paths_iff_mention (hsome : interfaces ≠ []) {path : String} :
    path ∈ (packages backend interfaces).paths ↔
      ∃ interface ∈ interfaces, ∃ package name,
        (some package, name) ∈ interface.mentions backend ∧ package.path = path := by
  rw [mem_paths_packages]
  constructor
  · rintro (rfl | ⟨interface, hinterface, package, hrefers, rfl⟩ |
      ⟨rfl, hneeds, interface, hinterface, method, hmethod, hcontext⟩)
    · obtain ⟨interface, hinterface⟩ := List.exists_mem_of_ne_nil _ hsome
      exact ⟨interface, hinterface, backend.package, "Tracer",
        List.mem_append_left _ (List.mem_cons_of_mem _ List.mem_cons_self), rfl⟩
    · rcases List.mem_cons.mp hrefers with rfl | hrefers
      · exact ⟨interface, hinterface, interface.package, interface.name,
          List.mem_append_left _ List.mem_cons_self, rfl⟩
      · obtain ⟨method, hmethod, hrefers⟩ := List.mem_flatMap.mp hrefers
        rw [method.references_eq, List.mem_filterMap] at hrefers
        obtain ⟨⟨_, name⟩, hname, rfl⟩ := hrefers
        exact ⟨interface, hinterface, package, name, List.mem_append_right _
          (List.mem_flatMap.mpr ⟨method, hmethod, List.mem_append_left _ hname⟩), rfl⟩
    · have hcalls : (some contextPackage, "Background") ∈ backend.calls method := by
        obtain rfl := of_decide_eq_true hneeds
        simp [Backend.calls, hcontext]
      exact ⟨interface, hinterface, contextPackage, "Background", List.mem_append_right _
        (List.mem_flatMap.mpr ⟨method, hmethod, List.mem_append_right _ hcalls⟩), rfl⟩
  · rintro ⟨interface, hinterface, package, name, hmention, rfl⟩
    rcases List.mem_append.mp hmention with hmention | hmention
    · have hpackage : package = interface.package ∨ package = backend.package := by
        simp [Interface.mention, Backend.mention] at hmention
        tauto
      rcases hpackage with rfl | rfl
      · exact .inr (.inl ⟨interface, hinterface, _, List.mem_cons_self, rfl⟩)
      · exact .inl rfl
    · obtain ⟨method, hmethod, hmention⟩ := List.mem_flatMap.mp hmention
      rcases List.mem_append.mp hmention with hname | hcall
      · refine .inr (.inl ⟨interface, hinterface, package, ?_, rfl⟩)
        refine List.mem_cons_of_mem _ (List.mem_flatMap.mpr ⟨method, hmethod, ?_⟩)
        rw [method.references_eq, List.mem_filterMap]
        exact ⟨_, hname, rfl⟩
      · rcases package_of_mem_calls hcall with rfl | ⟨rfl, hneeds, hcontext⟩
        · exact .inl rfl
        · exact .inr (.inr ⟨rfl, hneeds, interface, hinterface, method, hmethod, hcontext⟩)

end WrapperFile

/-! ## What the file calls it -/

/-- How a part is written in a file with the imports: names of the file's own package stand alone, and
those of another package have the alias that was assigned to exactly its path. -/
inductive FileImports.Writes (imports : FileImports) : Fragment → String → Prop
  | plain (text : String) : Writes imports (.plain text) text
  | predeclared (name : String) : Writes imports (.name none name) name
  | own {package : PackageRef} (name : String) :
      package.path = imports.localPath → Writes imports (.name (some package) name) name
  | imported {package : PackageRef} {aliasName : String} (name : String) :
      package.path ≠ imports.localPath → (package.path, aliasName) ∈ imports.aliases →
        Writes imports (.name (some package) name) (aliasName ++ "." ++ name)

theorem FileImports.writes_write {localPath : String} {packages : PathMap} {part : Fragment}
    (h : ∀ package name, part.name? = some (some package, name) →
      package.path ∈ packages.paths ∧ package.path ≠ "") :
    (ofPackages localPath packages).Writes part
      (part.write (ofPackages localPath packages).qualifier) := by
  cases part with
  | plain text => exact .plain text
  | name package name =>
      cases package with
      | none => exact .predeclared name
      | some package =>
          by_cases hlocal : package.path = localPath
          · have hqualifier : (ofPackages localPath packages).qualifier package = none :=
              if_pos hlocal
            simp only [write, Descriptor.render, Option.bind_some, hqualifier]
            exact .own name hlocal
          · obtain ⟨hmem, hempty⟩ := h package name rfl
            obtain ⟨aliasName, halias⟩ := exists_alias? hmem hlocal hempty
            have hqualifier : (ofPackages localPath packages).qualifier package = some aliasName := by
              rw [qualifier, halias, Option.getD_some]
              exact if_neg hlocal
            simp only [write, Descriptor.render, Option.bind_some, hqualifier]
            exact .imported name hlocal (mem_of_alias? halias)

namespace WrapperFile

/-- The text of a file with wrappers for the interfaces, whose imports are what its code mentions. -/
structure ImportsMatch (output : OutputPackage) (backend : Backend) (imports : FileImports)
    (interfaces : List Interface) (text : String) : Prop where
  /-- Behind the import declaration every part is written as the imports say. -/
  written : ∃ texts,
    List.Forall₂ imports.Writes (interfaces.flatMap (wrapperParts backend imports)) texts ∧
      text = header ++ "\n\npackage " ++ output.name ++ "\n\n" ++ imports.render ++ String.join texts
  /-- The names in the parts are those of the comment and of the code of each wrapper. -/
  names : Fragment.names (interfaces.flatMap (wrapperParts backend imports)) =
    interfaces.flatMap fun interface => interface.mention :: interface.mentions backend
  paths : (imports.aliases.map (·.1)).Nodup
  aliases : (imports.aliases.map (·.2)).Nodup
  /-- The code of a wrapper mentions each package that is imported, with its alias. -/
  used : ∀ entry ∈ imports.aliases, entry.1 ≠ output.path ∧
    ∃ interface ∈ interfaces, ∃ package name,
      (some package, name) ∈ interface.mentions backend ∧ package.path = entry.1

variable {output : OutputPackage} {backend : Backend} {interfaces : List Interface}

theorem path_ne_empty
    (hpaths : ∀ interface ∈ interfaces, ∀ package ∈ interface.references, package.path ≠ "")
    {path : String} (h : path ∈ (packages backend interfaces).paths) : path ≠ "" := by
  rcases mem_paths_packages.mp h with rfl | ⟨interface, hinterface, package, hrefers, rfl⟩ | ⟨rfl, -⟩
  · cases backend <;> decide
  · exact hpaths interface hinterface package hrefers
  · decide

theorem path_mem_of_name {imports : FileImports} {part : Fragment}
    (hpart : part ∈ interfaces.flatMap (wrapperParts backend imports)) {package : PackageRef}
    {name : String} (hname : part.name? = some (some package, name)) :
    package.path ∈ (packages backend interfaces).paths := by
  obtain ⟨interface, hinterface, hpart⟩ := List.mem_flatMap.mp hpart
  have hmem : (some package, name) ∈ Fragment.names (wrapperParts backend imports interface) :=
    List.mem_filterMap.mpr ⟨part, hpart, hname⟩
  have hmention : (some package, name) ∈ interface.mentions backend := by
    rw [names_wrapperParts] at hmem
    rcases List.mem_cons.mp hmem with heq | hmem
    · rw [heq]
      exact List.mem_append_left _ List.mem_cons_self
    · exact hmem
  rw [mem_paths_iff_mention (List.ne_nil_of_mem hinterface)]
  exact ⟨interface, hinterface, package, name, hmention, rfl⟩

theorem render_eq_writeAll
    (hpaths : ∀ interface ∈ interfaces, ∀ package ∈ interface.references, package.path ≠ "")
    (hcontext : output.path ≠ contextPath) (hbackend : output.path ≠ backend.package.path) :
    render output backend interfaces =
      header ++ "\n\npackage " ++ output.name ++ "\n\n" ++
        (importsOf output backend interfaces).render ++
          writeAll (importsOf output backend interfaces).qualifier
            (interfaces.flatMap (wrapperParts backend (importsOf output backend interfaces))) := by
  have himports : (importsOf output backend interfaces).aliases.isEmpty = false := by
    have hmem : backend.package.path ∈ (packages backend interfaces).paths :=
      mem_paths_packages.mpr (.inl rfl)
    obtain ⟨aliasName, halias⟩ :=
      FileImports.exists_alias? hmem hbackend.symm (path_ne_empty hpaths hmem)
    exact List.isEmpty_eq_false_iff.mpr (List.ne_nil_of_mem (FileImports.mem_of_alias? halias))
  have hwrappers : writeAll (importsOf output backend interfaces).qualifier
      (interfaces.flatMap (wrapperParts backend (importsOf output backend interfaces))) =
        String.join (interfaces.map
          (wrapperText backend (importsOf output backend interfaces))) := by
    rw [writeAll_flatMap]
    congr 1
    exact List.map_congr_left fun interface _ => writeAll_wrapperParts hbackend hcontext
  change header ++ "\n\n" ++ ("package " ++ output.name ++ "\n") ++
    (if (importsOf output backend interfaces).aliases.isEmpty then ""
      else "\n" ++ (importsOf output backend interfaces).render) ++ String.join (interfaces.map
        (wrapperText backend (importsOf output backend interfaces))) = _
  have hhead : "\n\npackage " = "\n\n" ++ "package " := rfl
  have hlines (rest : String) : "\n\n" ++ rest = "\n" ++ ("\n" ++ rest) := by
    rw [← String.append_assoc]
    rfl
  rw [hwrappers, himports, hhead]
  simp only [Bool.false_eq_true, if_false, String.append_assoc, hlines]

theorem importsMatch_render (hsome : interfaces ≠ [])
    (hpaths : ∀ interface ∈ interfaces, ∀ package ∈ interface.references, package.path ≠ "")
    (hcontext : output.path ≠ contextPath) (hbackend : output.path ≠ backend.package.path) :
    ImportsMatch output backend (importsOf output backend interfaces) interfaces
      (render output backend interfaces) where
  written := by
    refine ⟨_, ?_, render_eq_writeAll hpaths hcontext hbackend⟩
    rw [List.forall₂_map_right_iff, List.forall₂_same]
    intro part hpart
    refine FileImports.writes_write fun package name hname => ?_
    have hmem := path_mem_of_name hpart hname
    exact ⟨hmem, path_ne_empty hpaths hmem⟩
  names := by
    rw [names_flatMap]
    simp only [names_wrapperParts]
  paths := FileImports.nodup_map_fst_aliases
  aliases := FileImports.nodup_assign _ _
  used entry hentry := by
    obtain ⟨hmem, hlocal⟩ := FileImports.path_of_mem_aliases hentry
    exact ⟨hlocal, (mem_paths_iff_mention hsome).mp hmem⟩

/-- The texts that a file gives: one with wrappers for all its interfaces, and one for each of them. -/
inductive Gives (file : WrapperFile) : List Interface → String → Prop
  | all : Gives file file.interfaces.items file.text
  | one {name text : String} {interface : Interface} : file.interfaces.get? name = some interface →
      file.textOf name = .ok text → Gives file [interface] text

/-- Each text that a file gives imports exactly the packages that its code mentions, and the code
mentions them under the aliases of the imports. -/
theorem Gives.importsMatch {file : WrapperFile} {interfaces : List Interface} {text : String}
    (h : file.Gives interfaces text) (hsome : interfaces ≠ [])
    (hpaths : ∀ interface ∈ interfaces, ∀ package ∈ interface.references, package.path ≠ "")
    (hcontext : file.output.path ≠ contextPath)
    (hbackend : file.output.path ≠ file.backend.package.path) :
    ImportsMatch file.output file.backend (importsOf file.output file.backend interfaces) interfaces
      text := by
  have hrender : text = render file.output file.backend interfaces := by
    cases h with
    | all => rfl
    | one hget htext =>
        rw [textOf, hget] at htext
        exact (Except.ok.inj htext).symm
  rw [hrender]
  exact importsMatch_render hsome hpaths hcontext hbackend

/-- An interface that is in the package of the file it is written to, with two packages of one name. -/
def opener : Interface :=
  .new "Opener" ⟨"x/io", "io"⟩ <| Roster.empty.replace
    ⟨"Open", [⟨some "io", .named none "string"⟩,
      ⟨none, .function [⟨none, .channel .both (.named (some ⟨"y/io", "io"⟩) "Mode")⟩] []⟩],
      [⟨none, .map (.named (some ⟨"x/io", "io"⟩) "Name") (.named (some ⟨"z/fs", ""⟩) "File")⟩]⟩

/-- A file in the package of the interface that it wraps. -/
def openerFile : WrapperFile :=
  ⟨⟨"io", "x/io"⟩, .openTelemetry, Roster.empty.addIfAbsent opener⟩

/-- The file does not import its own package, and calls two others by names of their own. -/
theorem importsMatch_opener :
    (importsOf ⟨"io", "x/io"⟩ .openTelemetry [opener]).aliases =
      [("context", "context"), ("go.opentelemetry.io/otel/trace", "trace"), ("y/io", "io"),
        ("z/fs", "fs")] ∧
    ∃ text, openerFile.textOf "Opener" = .ok text ∧
      ImportsMatch ⟨"io", "x/io"⟩ .openTelemetry (importsOf ⟨"io", "x/io"⟩ .openTelemetry [opener])
        [opener] text := by
  have hget : openerFile.interfaces.get? "Opener" = some opener := rfl
  have htext : openerFile.textOf "Opener" = .ok (render openerFile.output openerFile.backend [opener]) :=
    rfl
  have hpaths : ∀ interface ∈ [opener], ∀ package ∈ interface.references, package.path ≠ "" := by
    decide +kernel
  exact ⟨by decide +kernel, _, htext,
    Gives.importsMatch (.one hget htext) (by simp) hpaths (by decide) (by decide)⟩

end WrapperFile

end GoTrace
