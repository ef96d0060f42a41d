import GoTrace.Proofs.Wrapper.Text

/-!
# Generated files are read back

A generated file is read as what it was written for: its package, its imports in order, and for every
interface a struct, a function that makes one and the methods of the interface. The names in the
types of the methods stand for what the imports say, and so read they are the types that were written.
-/

namespace GoTrace

open Lexeme Grammar Descriptor Resolution GoTrace.Parser

/-! ## Interfaces -/

/-- What a file in the package at `localPath` needs of an interface for which it has a wrapper: only
parameters are variadic, names of packages are exported, and import paths are printable. -/
structure Interface.Writable (localPath : String) (interface : Interface) : Prop where
  params : ∀ method ∈ interface.methods.items, dotsOnParamsOfAll true method.params = true
  results : ∀ method ∈ interface.methods.items, dotsOnParamsOfAll false method.results = true
  exported : ∀ method ∈ interface.methods.items, ∀ entry ∈ method.names,
    entry.1.isSome = true → isExported entry.2 = true
  paths : ∀ package ∈ interface.references, package.path ≠ localPath →
    package.path ≠ "" ∧ ∀ c ∈ package.path.toList, Text.IsPrintableAscii c

instance (localPath : String) (interface : Interface) : Decidable (interface.Writable localPath) :=
  decidable_of_iff
    ((∀ method ∈ interface.methods.items, dotsOnParamsOfAll true method.params = true) ∧
      (∀ method ∈ interface.methods.items, dotsOnParamsOfAll false method.results = true) ∧
      (∀ method ∈ interface.methods.items, ∀ entry ∈ method.names,
        entry.1.isSome = true → isExported entry.2 = true) ∧
      ∀ package ∈ interface.references, package.path ≠ localPath →
        package.path ≠ "" ∧ ∀ c ∈ package.path.toList, Text.IsPrintableAscii c)
    ⟨fun ⟨params, results, exported, paths⟩ => ⟨params, results, exported, paths⟩,
      fun h => ⟨h.params, h.results, h.exported, h.paths⟩⟩

namespace WrapperFile

variable {output : OutputPackage} {backend : Backend} {interfaces : List Interface}

/-! ## Imports -/

theorem isIdentifier_aliases (h : ∀ interface ∈ interfaces, interface.Named) :
    ∀ entry ∈ (packages backend interfaces).entries, IsIdentifier entry.2 :=
  isIdentifier_of_mem_packages h

theorem isPrintable_paths (h : ∀ interface ∈ interfaces, interface.Writable output.path) :
    ∀ path ∈ (packages backend interfaces).paths, path ≠ output.path →
      ∀ c ∈ path.toList, Text.IsPrintableAscii c := by
  have hbackend : ∀ c ∈ backend.package.path.toList, Text.IsPrintableAscii c := by
    cases backend <;> decide
  have hcontext : ∀ c ∈ contextPath.toList, Text.IsPrintableAscii c := by decide
  have hentries : ∀ entry ∈ (packages backend interfaces).entries, entry.1 ≠ output.path →
      ∀ c ∈ entry.1.toList, Text.IsPrintableAscii c := by
    refine forall_mem_packages (fun _ => hbackend) (fun _ => hcontext) ?_
    intro interface hinterface package hrefers hlocal
    exact ((h interface hinterface).paths package hrefers hlocal).2
  intro path hpath
  obtain ⟨entry, hentry, rfl⟩ := List.mem_map.mp hpath
  exact hentries entry hentry

/-- The types of a method are written so that their names stand for the same in the file. -/
theorem plainAll_of_mem (hnamed : ∀ interface ∈ interfaces, interface.Named)
    (h : ∀ interface ∈ interfaces, interface.Writable output.path) {interface : Interface}
    (hmem : interface ∈ interfaces) (hlegible : interface.Legible)
    {method : Method} (hmethod : method ∈ interface.methods.items) :
    PlainAll (NameWritten (importsOf output backend interfaces).qualifier
        (importsOf output backend interfaces).naming PackageRef.unaliased) true method.params ∧
      PlainAll (NameWritten (importsOf output backend interfaces).qualifier
        (importsOf output backend interfaces).naming PackageRef.unaliased) false method.results := by
  have hwritable := h interface hmem
  have hmethodLegible := hlegible.methods method hmethod
  have hwritten (entry : Option PackageRef × String) (hentry : entry ∈ method.names)
      (hnames : PackageRef.Names entry.1 entry.2) :
      NameWritten (importsOf output backend interfaces).qualifier
        (importsOf output backend interfaces).naming PackageRef.unaliased entry.1 entry.2 := by
    have hrefers {package : PackageRef} (hpackage : entry.1 = some package) :
        package ∈ interface.references := by
      have hreference : package ∈ method.references := by
        rw [method.references_eq, List.mem_filterMap]
        exact ⟨entry, hentry, hpackage⟩
      exact List.mem_cons_of_mem _ (List.mem_flatMap.mpr ⟨method, hmethod, hreference⟩)
    refine FileImports.nameWritten (isIdentifier_aliases hnamed) hnames
      (hwritable.exported method hmethod entry hentry)
      (fun package hpackage => hnamed interface hmem package (hrefers hpackage)) ?_
    intro package hpackage hlocal
    exact ⟨mem_paths_packages.mpr (.inr (.inl ⟨interface, hmem, package, hrefers hpackage, rfl⟩)),
      (hwritable.paths package (hrefers hpackage) hlocal).1⟩
  refine ⟨hmethodLegible.params.plainAll _ (hwritable.params method hmethod) ?_,
    hmethodLegible.results.plainAll _ (hwritable.results method hmethod) ?_⟩
  · intro entry hentry
    exact hwritten entry (List.mem_append_left _ hentry)
  · intro entry hentry
    exact hwritten entry (List.mem_append_right _ hentry)

/-! ## Declarations -/

/-- What the declarations of a wrapper are read as, one by one. -/
def wrapperAccepts (imports : FileImports) (interface : Interface) : List (Declaration → Prop) :=
  IsWrapperStruct interface :: IsWrapperConstructor interface ::
    interface.methods.items.map (IsWrapperMethod imports interface)

def wrapperChunks (backend : Backend) (imports : FileImports) (interface : Interface) :
    List (List Char) :=
  (structText backend imports interface).toList ::
    (constructorText backend imports interface).toList ::
      interface.methods.items.map fun method => (methodText backend imports interface
        (WrapperFields.ofMethods interface.methods) method).toList

theorem toList_wrapperText (imports : FileImports) (interface : Interface) :
    (wrapperText backend imports interface).toList =
      (wrapperChunks backend imports interface).flatten := by
  rw [wrapperText_eq, String.toList_append, String.toList_append, String.toList_join,
    wrapperChunks, List.flatten_cons, List.flatten_cons, List.append_assoc, List.flatMap_map]
  rfl

theorem chunks_wrapper (hnamed : ∀ interface ∈ interfaces, interface.Named)
    (h : ∀ interface ∈ interfaces, interface.Writable output.path) {interface : Interface}
    (hmem : interface ∈ interfaces) (hlegible : interface.Legible) :
    List.Forall₂ (Chunk topLevelDecl)
      (wrapperChunks backend (importsOf output backend interfaces) interface)
      ((wrapperAccepts (importsOf output backend interfaces) interface).map Alone) := by
  have himports : (importsOf output backend interfaces).Legible :=
    FileImports.legible_ofPackages (isIdentifier_aliases hnamed)
  have hpackage : IsIdentifier interface.package.aliasName :=
    hnamed interface hmem _ List.mem_cons_self
  refine .cons (chunk_structText himports hlegible hpackage)
    (.cons (chunk_constructorText himports hlegible hpackage) ?_)
  rw [List.map_map, List.forall₂_map_left_iff, List.forall₂_map_right_iff, List.forall₂_same]
  intro method hmethod
  obtain ⟨hparams, hresults⟩ := plainAll_of_mem hnamed h hmem hlegible hmethod
  exact chunk_methodText himports hlegible.name (hlegible.methods method hmethod) hparams hresults

theorem forall₂_flatMap {α β γ : Type} {related : β → γ → Prop} {values : List α}
    {f : α → List β} {g : α → List γ} (h : ∀ value ∈ values, List.Forall₂ related (f value) (g value)) :
    List.Forall₂ related (values.flatMap f) (values.flatMap g) := by
  induction values with
  | nil => exact .nil
  | cons value rest ih =>
      obtain ⟨hvalue, hrest⟩ := List.forall_mem_cons.mp h
      exact List.rel_append hvalue (ih hrest)

/-! ## Files -/

/-- The import declaration of a file as a text, if it has one. -/
def importChunks (imports : FileImports) : List (List Char) :=
  if imports.aliases.isEmpty then [] else [("\n" ++ imports.render).toList]

theorem noLineEnd_header :
    " Code generated by traceable. DO NOT EDIT.".toList.all (!isLineEnd ·) = true := by
  decide

theorem toList_render (output : OutputPackage) (backend : Backend) (interfaces : List Interface) :
    (render output backend interfaces).toList = '/' :: '/' ::
      (" Code generated by traceable. DO NOT EDIT.".toList ++ '\n' :: '\n' :: ("package".toList ++
        ' ' :: (output.name.toList ++ '\n' ::
          ((importChunks (importsOf output backend interfaces)).flatten ++ (interfaces.flatMap
            (wrapperChunks backend (importsOf output backend interfaces))).flatten)))) := by
  have hheader : header.toList =
      '/' :: '/' :: " Code generated by traceable. DO NOT EDIT.".toList := rfl
  have hwrappers : (String.join (interfaces.map
      (wrapperText backend (importsOf output backend interfaces)))).toList =
        (interfaces.flatMap
          (wrapperChunks backend (importsOf output backend interfaces))).flatten := by
    rw [String.toList_join, List.flatMap_map]
    simp only [toList_wrapperText, List.flatMap, List.flatten_flatten, List.map_map]
    rfl
  have himports : (if (importsOf output backend interfaces).aliases.isEmpty then ""
      else "\n" ++ (importsOf output backend interfaces).render).toList =
        (importChunks (importsOf output backend interfaces)).flatten := by
    unfold importChunks
    split
    · rfl
    · simp
  change (header ++ "\n\n" ++ ("package " ++ output.name ++ "\n") ++
    (if (importsOf output backend interfaces).aliases.isEmpty then ""
      else "\n" ++ (importsOf output backend interfaces).render) ++ String.join (interfaces.map
        (wrapperText backend (importsOf output backend interfaces)))).toList = _
  rw [String.toList_append, String.toList_append, hwrappers, himports, String.toList_append,
    String.toList_append, hheader]
  simp

def importAccepts (imports : FileImports) : List (List ImportSpec → Prop) :=
  if imports.aliases.isEmpty then []
  else [fun specs => specs.map FileImports.specRead = imports.aliases.map FileImports.lineRead]

theorem chunks_imports {imports : FileImports} (h : imports.Legible)
    (hpaths : ∀ entry ∈ imports.aliases, ∀ c ∈ entry.1.toList, Text.IsPrintableAscii c) :
    List.Forall₂ (Chunk importDecl) (importChunks imports) (importAccepts imports) := by
  unfold importChunks importAccepts
  split
  · exact .nil
  · rename_i hne
    refine .cons (FileImports.chunk_render (by simpa using hne) (fun entry hentry => ?_) id ?_) .nil
    · exact .inr (h entry hentry)
    · exact fun entry hentry => Literal.unquote?_quote (hpaths entry hentry)

theorem map_specRead_of_meets {imports : FileImports} {groups : List (List ImportSpec)}
    (h : Meets (importAccepts imports) groups) :
    groups.flatten.map FileImports.specRead = imports.aliases.map FileImports.lineRead := by
  unfold importAccepts at h
  split at h
  · rename_i hempty
    cases h
    rw [List.isEmpty_iff.mp hempty]
    rfl
  · cases h with
    | cons hgroup hnil =>
        cases hnil
        rw [List.flatten_singleton]
        exact hgroup

/-- What a file with wrappers for the interfaces is read as. -/
structure IsReadBack (output : OutputPackage) (imports : FileImports)
    (interfaces : List Interface) (parsed : SourceFile) : Prop where
  package : parsed.package.name = output.name
  paths : parsed.imports.map (·.path) = imports.aliases.map (·.1)
  increasing : (parsed.imports.map (·.path)).Pairwise
    fun first second => Text.bytes first < Text.bytes second
  declarations : Meets (interfaces.flatMap (wrapperAccepts imports)) parsed.declarations

theorem parse_render (hname : IsIdentifier output.name)
    (hlegible : ∀ interface ∈ interfaces, interface.Legible)
    (hnamed : ∀ interface ∈ interfaces, interface.Named)
    (h : ∀ interface ∈ interfaces, interface.Writable output.path) (sourceName : Option String) :
    ∃ parsed, SourceFile.parse (render output backend interfaces) sourceName = .ok parsed ∧
      IsReadBack output (importsOf output backend interfaces) interfaces parsed ∧
        parsed.imports.map FileImports.specRead =
          (importsOf output backend interfaces).aliases.map FileImports.lineRead := by
  have himports : (importsOf output backend interfaces).Legible :=
    FileImports.legible_ofPackages (isIdentifier_aliases hnamed)
  have hpaths : ∀ entry ∈ (importsOf output backend interfaces).aliases,
      ∀ c ∈ entry.1.toList, Text.IsPrintableAscii c := by
    intro entry hentry
    obtain ⟨hmem, hlocal⟩ := FileImports.path_of_mem_aliases hentry
    exact isPrintable_paths h entry.1 hmem hlocal
  have hdecls : List.Forall₂ (Chunk topLevelDecl)
      (interfaces.flatMap (wrapperChunks backend (importsOf output backend interfaces)))
      ((interfaces.flatMap (wrapperAccepts (importsOf output backend interfaces))).map Alone) := by
    rw [List.map_flatMap]
    exact forall₂_flatMap fun interface hmem => chunks_wrapper hnamed h hmem (hlegible interface hmem)
  have hread := reads_sourceFile sourceName noLineEnd_header hname (chunks_imports himports hpaths) hdecls
  rw [← toList_render] at hread
  obtain ⟨parsed, hparsed, hpackage, hgroups, hdeclarations⟩ := Parser.run_of_reads hread _
  obtain ⟨groups, hmeets, hparsedImports⟩ := hgroups
  obtain ⟨declGroups, hdeclMeets, hparsedDecls⟩ := hdeclarations
  have hread : parsed.imports.map FileImports.specRead =
      (importsOf output backend interfaces).aliases.map FileImports.lineRead := by
    rw [hparsedImports]
    exact map_specRead_of_meets hmeets
  have hlisted : parsed.imports.map (·.path) =
      (importsOf output backend interfaces).aliases.map (·.1) := by
    simpa [Function.comp_def, FileImports.specRead, FileImports.lineRead] using
      congrArg (List.map Prod.snd) hread
  refine ⟨parsed, hparsed, ⟨hpackage, hlisted, ?_, ?_⟩, hread⟩
  · rw [hlisted]
    exact FileImports.pairwise_bytes
  · rw [hparsedDecls]
    exact meets_flatten_of_alone hdeclMeets

/-- A file is not read if no import starts on the first line of its import declaration. -/
theorem parse_render_ne (hname : IsIdentifier output.name) {entry : String × String}
    {others : List (String × String)}
    (haliases : (importsOf output backend interfaces).aliases = entry :: others) {c : Char}
    {line : List Char} (hline : (FileImports.importLine entry).toList = '\t' :: c :: line)
    (h : startsNoImport c = true) (hc : c ∉ [')', ';', '\n', '\r']) (sourceName : Option String)
    (parsed : SourceFile) :
    SourceFile.parse (render output backend interfaces) sourceName ≠ .ok parsed := by
  have hchunks : importChunks (importsOf output backend interfaces) =
      [("\n" ++ (importsOf output backend interfaces).render).toList] :=
    if_neg (by rw [haliases]; exact Bool.false_ne_true)
  obtain ⟨text, hbody, himport⟩ := FileImports.refuses_render haliases hline h hc (interfaces.flatMap
    (wrapperChunks backend (importsOf output backend interfaces))).flatten
  have hdecl : Refuses topLevelDecl .spaced ("import".toList ++ ' ' :: text) := by
    have hword : wordAhead ("import".toList ++ ' ' :: text) = "import".toList :=
      wordAhead_append (by decide) (by decide : isIdentChar ' ' = false)
    refine refuses_topLevelDecl ?_
    rw [hword]
    decide
  refine Refuses.run_ne ?_ parsed
  rw [toList_render, hchunks, List.flatten_singleton]
  refine refuses_sourceFile sourceName noLineEnd_header hname ?_ ?_ ?_
  · rwa [hbody]
  · rwa [hbody]
  · rw [hbody]
    exact List.cons_ne_nil _ _

/-! ## Adding interfaces -/

theorem add_eq_ok {file later : WrapperFile} {interface : Interface}
    (h : file.add interface = (.ok (), later)) :
    later = { file with interfaces := file.interfaces.addIfAbsent interface } := by
  unfold add at h
  cases hheld : file.interfaces.get? interface.name with
  | none =>
      rw [hheld] at h
      cases h
      rfl
  | some held =>
      rw [hheld] at h
      dsimp only at h
      split at h
      · cases h
        obtain ⟨hmem, hname⟩ := Roster.get?_eq_some_iff.mp hheld
        have hcontains : file.interfaces.contains interface.name = true :=
          List.any_eq_true.mpr ⟨held, hmem, decide_eq_true hname⟩
        have hsame : file.interfaces.addIfAbsent interface = file.interfaces := dif_pos hcontains
        rw [hsame]
      · cases h

/-- What is held of interfaces that are all accepted: each name once, in the order in which they were
added. -/
theorem addAll_eq_ok {file later : WrapperFile} {interfaces : List Interface}
    (h : file.addAll interfaces = (.ok (), later)) :
    later = { file with interfaces := interfaces.foldl Roster.addIfAbsent file.interfaces } := by
  induction interfaces generalizing file with
  | nil =>
      cases h
      rfl
  | cons interface rest ih =>
      unfold addAll at h
      split at h
      · rename_i between hadd
        rw [ih h, add_eq_ok hadd]
        rfl
      · cases h

/-- A file with wrappers for interfaces that a resolver gave is read, and so are its imports. -/
theorem parse_of_added {output : OutputPackage} (houtput : IsIdentifier output.name)
    {interfaces : List Interface} (hresolved : ∀ interface ∈ interfaces, interface.Resolved)
    (hnamed : ∀ interface ∈ interfaces, interface.Named)
    (hwritable : ∀ interface ∈ interfaces, interface.Writable output.path) {backend : Backend}
    {file : WrapperFile} (hfile : (empty output backend).addAll interfaces = (.ok (), file))
    (sourceName : Option String) :
    ∃ parsed, SourceFile.parse file.text sourceName = .ok parsed ∧
      IsReadBack output (importsOf output backend file.interfaces.items) file.interfaces.items
        parsed ∧
      parsed.imports.map FileImports.specRead =
        (importsOf output backend file.interfaces.items).aliases.map FileImports.lineRead := by
  obtain rfl := addAll_eq_ok hfile
  have hmem : ∀ interface ∈ (interfaces.foldl Roster.addIfAbsent
      (Roster.empty : Roster Interface.name)).items, interface ∈ interfaces := by
    intro interface hinterface
    rcases Roster.mem_of_mem_foldl_addIfAbsent hinterface with h | h
    · cases h
    · exact h
  exact parse_render houtput
    (fun interface hinterface => (hresolved interface (hmem interface hinterface)).legible)
    (fun interface hinterface => hnamed interface (hmem interface hinterface))
    (fun interface hinterface => hwritable interface (hmem interface hinterface)) sourceName

/-- Whatever interfaces a resolver gave, the file with their wrappers is read back when the packages that
they refer to have identifiers for names: its package, the paths it imports, and for every interface the
struct, the function and the methods that it was written with. -/
theorem parse_text {output : OutputPackage} (houtput : IsIdentifier output.name)
    {interfaces : List Interface} (hresolved : ∀ interface ∈ interfaces, interface.Resolved)
    (hnamed : ∀ interface ∈ interfaces, interface.Named)
    (hwritable : ∀ interface ∈ interfaces, interface.Writable output.path) {backend : Backend}
    {file : WrapperFile} (hfile : (empty output backend).addAll interfaces = (.ok (), file))
    (sourceName : Option String) :
    ∃ parsed, SourceFile.parse file.text sourceName = .ok parsed ∧
      IsReadBack output (importsOf output backend file.interfaces.items) file.interfaces.items
        parsed := by
  obtain ⟨parsed, hparsed, hread, -⟩ :=
    parse_of_added houtput hresolved hnamed hwritable hfile sourceName
  exact ⟨parsed, hparsed, hread⟩

/-- Two packages of one name, and two interfaces that use them: one with a variadic parameter, functions
and channels, and one that is embedded and has no context. -/
def traced : Library :=
  ((Library.empty.add "x/io" ⟨"io.go", "package io\ntype Reader interface \x7b Read(n int) error \x7d"⟩).add
    "y/io" ⟨"io.go", "package io\ntype Mode int"⟩).add "a" ⟨"a.go", "package a\n" ++
      "import (\n\t\"x/io\"\n\tyio \"y/io\"\n)\n" ++
      "type A interface \x7b\n\tOpen(next string, m yio.Mode, f func(n int) (A, error)) " ++
      "chan (<-chan io.Reader)\n\tio.Reader\n\tPrint(format string, args ...interface\x7b\x7d)\n\x7d\n"⟩

/-- The file with wrappers for both is read back. -/
theorem parse_text_traced :
    ∃ first second file parsed, first.Resolved ∧ second.Resolved ∧ first.Named ∧ second.Named ∧
      first.Writable "out" ∧ second.Writable "out" ∧
      (empty ⟨"out", "out"⟩ .openTelemetry).addAll [first, second] = (.ok (), file) ∧
      SourceFile.parse file.text none = .ok parsed ∧
      IsReadBack ⟨"out", "out"⟩ (importsOf ⟨"out", "out"⟩ .openTelemetry file.interfaces.items)
        file.interfaces.items parsed := by
  have hchecks : ((answer (Resolution.interface traced.loader "a" "A") Session.empty).toOption.any
      fun first => (answer (Resolution.interface traced.loader "x/io" "Reader")
        Session.empty).toOption.any fun second =>
          decide ((first.Named ∧ second.Named) ∧ first.Writable "out" ∧ second.Writable "out" ∧
            ((empty ⟨"out", "out"⟩ .openTelemetry).addAll [first, second]).1 = .ok ())) = true := by
    decide +kernel
  obtain ⟨first, hfirst, hchecks⟩ := exists_of_any_toOption hchecks
  obtain ⟨second, hsecond, hchecks⟩ := exists_of_any_toOption hchecks
  obtain ⟨⟨hfirstNamed, hsecondNamed⟩, hfirstWritable, hsecondWritable, hadded⟩ :=
    of_decide_eq_true hchecks
  have hfirstResolved : first.Resolved := ⟨_, .empty, "a", "A", .empty, hfirst⟩
  have hsecondResolved : second.Resolved := ⟨_, .empty, "x/io", "Reader", .empty, hsecond⟩
  have hboth {property : Interface → Prop} (hfirst : property first) (hsecond : property second) :
      ∀ interface ∈ [first, second], property interface := by
    simp only [List.forall_mem_cons]
    exact ⟨hfirst, hsecond, nofun⟩
  have hfile : (empty ⟨"out", "out"⟩ .openTelemetry).addAll [first, second] =
      (.ok (), ((empty ⟨"out", "out"⟩ .openTelemetry).addAll [first, second]).2) :=
    Prod.ext hadded rfl
  obtain ⟨parsed, hparsed, hread⟩ := parse_text (by decide) (hboth hfirstResolved hsecondResolved)
    (hboth hfirstNamed hsecondNamed) (hboth hfirstWritable hsecondWritable) hfile none
  exact ⟨first, second, _, parsed, hfirstResolved, hsecondResolved, hfirstNamed, hsecondNamed,
    hfirstWritable, hsecondWritable, hfile, hparsed, hread⟩

/-- A package that is added under a name which is no identifier. -/
def misnamed : LoadedPackage :=
  ⟨"e/api", "2bad", [⟨"api.go", "package api\ntype A interface \x7b M() \x7d\n"⟩]⟩

/-- Its interface resolves and is accepted, but the file imports the package under that name, and is not
read. -/
theorem parse_text_misnamed :
    ∃ interface file, interface.Resolved ∧ interface.Writable "out" ∧
      (empty ⟨"out", "out"⟩ .openTracing).addAll [interface] = (.ok (), file) ∧
      ∀ parsed, SourceFile.parse file.text none ≠ .ok parsed := by
  have hchecks : ((answer (Resolution.interface Library.empty.loader "e/api" "A")
      (after (Resolution.addPackage misnamed) Session.empty)).toOption.any fun interface =>
        decide (interface.Writable "out" ∧ (importsOf ⟨"out", "out"⟩ .openTracing [interface]).aliases =
          [("e/api", "2bad"), ("github.com/opentracing/opentracing-go", "opentracing")])) = true := by
    decide +kernel
  obtain ⟨interface, hinterface, hchecks⟩ := exists_of_any_toOption hchecks
  obtain ⟨hwritable, haliases⟩ := of_decide_eq_true hchecks
  have hused : Session.Reached (fun _ => True) (fun _ => .any)
      (after (Resolution.addPackage misnamed) .empty) :=
    .call .empty trivial (.addPackage trivial : Call Library.empty.loader _ _) (by decide +kernel)
  have hline : (FileImports.importLine ("e/api", "2bad")).toList =
      '\t' :: '2' :: "bad \"e/api\"\n".toList := by
    decide +kernel
  refine ⟨interface, ((empty ⟨"out", "out"⟩ .openTracing).addAll [interface]).2,
    ⟨_, _, "e/api", "A", hused, hinterface⟩, hwritable, rfl, fun parsed => ?_⟩
  exact parse_render_ne (by decide) haliases hline (by decide) (by decide) none parsed

end WrapperFile

end GoTrace
