import GoTrace.Proofs.Resolve.Answer

/-!
# Sessions that agree with their loader

What a session keeps of packages, their names and their import tables is what the loader would give
again. A loader does so when it is steady: the package it loads for a path has that path, and has the
name that the loader tells without loading it. In such a session packages and import tables answer as
they do from nothing, whatever has been found out before.
-/

namespace GoTrace

/-! ## What a loader gives -/

namespace Loader

variable (loader : Loader)

/-- The name of the package at `path`, when there is one. -/
def nameOf (path : String) : Option String :=
  (loader.locate path).map fun info => info.name.getD (fallbackName path)

/-- The package at `path`, loaded and parsed. -/
def parsed (path : String) : Except ResolveFailure Package :=
  match loader.load path with
  | .error cause => .error (.error cause)
  | .ok none => .error (.error (.load [path]))
  | .ok (some loaded) => Package.parse loaded

/-- The package is the one that the loader gives for its path. -/
def Holds (package : Package) : Prop := loader.parsed package.path = .ok package

theorem Holds.parsed {loader : Loader} {package : Package} (h : loader.Holds package) :
    loader.parsed package.path = .ok package := h

def tableOf (package : Package) (unit : Nat) : Except ResolveFailure ImportTable :=
  (ImportTable.resolve loader ((package.units[unit]?.map (·.imports)).getD [])).mapError .error

/-- Packages come with the path they are asked for, and with the name that is told for it. -/
structure Steady : Prop where
  path : ∀ {path loaded}, loader.load path = .ok (some loaded) → loaded.path = path
  name : ∀ {path loaded}, loader.load path = .ok (some loaded) →
    loader.nameOf path = some loaded.name

end Loader

theorem Library.steady (library : Library) : library.loader.Steady where
  path h := by
    simp only [loader, Except.ok.injEq, Option.map_eq_some_iff] at h
    obtain ⟨units, -, rfl⟩ := h
    rfl
  name h := by
    simp only [loader, Except.ok.injEq, Option.map_eq_some_iff] at h
    obtain ⟨units, hunits, rfl⟩ := h
    simp [Loader.nameOf, loader, hunits]

theorem Package.exists_of_findInUnits {α : Type} {find : SourceFile → Option α} {units : List SourceFile}
    {unit : Nat} {found : α} (h : findInUnits find units = some (unit, found)) :
    ∃ file ∈ units, find file = some found := by
  obtain ⟨⟨file, place⟩, hfile, hfound⟩ := List.exists_of_findSome?_eq_some h
  obtain ⟨found, hfind, heq⟩ := Option.map_eq_some_iff.mp hfound
  cases heq
  exact ⟨file, List.fst_mem_of_mem_zipIdx hfile, hfind⟩

theorem Package.parse_eq_ok {loaded : LoadedPackage} {package : Package}
    (h : Package.parse loaded = .ok package) :
    package.path = loaded.path ∧ package.name = loaded.name := by
  unfold Package.parse at h
  cases hunits : loaded.units.mapM fun unit =>
      (SourceFile.parse unit.text (some unit.fileName)).mapError
        (Failure.map (ResolveError.parse unit.fileName)) with
  | error failure => simp [hunits, bind, Except.bind] at h
  | ok units =>
      simp only [hunits, bind, Except.bind, pure, Except.pure, Except.ok.injEq] at h
      exact ⟨h ▸ rfl, h ▸ rfl⟩

namespace Loader

variable {loader : Loader}

theorem exists_load_of_parsed {path : String} {package : Package}
    (h : loader.parsed path = .ok package) :
    ∃ loaded, loader.load path = .ok (some loaded) ∧ Package.parse loaded = .ok package := by
  unfold parsed at h
  split at h
  · cases h
  · cases h
  · rename_i loaded hload
    exact ⟨loaded, hload, h⟩

theorem Steady.path_of_parsed (steady : loader.Steady) {path : String} {package : Package}
    (h : loader.parsed path = .ok package) : package.path = path := by
  obtain ⟨loaded, hload, hparse⟩ := exists_load_of_parsed h
  rw [(Package.parse_eq_ok hparse).1, steady.path hload]

theorem Steady.holds_of_parsed (steady : loader.Steady) {path : String} {package : Package}
    (h : loader.parsed path = .ok package) : loader.Holds package := by
  rw [Holds, steady.path_of_parsed h, h]

theorem Steady.name_of_parsed (steady : loader.Steady) {path : String} {package : Package}
    (h : loader.parsed path = .ok package) : loader.nameOf path = some package.name := by
  obtain ⟨loaded, hload, hparse⟩ := exists_load_of_parsed h
  rw [(Package.parse_eq_ok hparse).2, steady.name hload]

end Loader

theorem Parser.run_ne_exhausted {α : Type} (p : Parser α) (name text : String) :
    p.run name text ≠ .error .exhausted := by
  unfold run
  dsimp only
  split <;> nofun

theorem exists_error_of_mapM {α β ε : Type} {f : α → Except ε β} {values : List α} {cause : ε}
    (h : values.mapM f = .error cause) : ∃ value ∈ values, f value = .error cause := by
  induction values with
  | nil => cases h
  | cons value rest ih =>
      rw [List.mapM_cons] at h
      cases hvalue : f value with
      | error other =>
          rw [hvalue] at h
          cases h
          exact ⟨value, List.mem_cons_self, hvalue⟩
      | ok result =>
          cases hrest : rest.mapM f with
          | error other =>
              rw [hvalue, hrest] at h
              cases h
              obtain ⟨found, hmem, hfound⟩ := ih hrest
              exact ⟨found, List.mem_cons_of_mem _ hmem, hfound⟩
          | ok results =>
              rw [hvalue, hrest] at h
              cases h

theorem Package.exists_parse_error {loaded : LoadedPackage} {failure : ResolveFailure}
    (h : Package.parse loaded = .error failure) :
    ∃ unit ∈ loaded.units, ∃ cause,
      SourceFile.parse unit.text (some unit.fileName) = .error cause ∧
        failure = cause.map (ResolveError.parse unit.fileName) := by
  rw [Package.parse] at h
  cases hunits : loaded.units.mapM fun unit =>
      (SourceFile.parse unit.text (some unit.fileName)).mapError
        (Failure.map (ResolveError.parse unit.fileName)) with
  | ok units =>
      rw [hunits] at h
      cases h
  | error failure =>
      rw [hunits] at h
      cases h
      obtain ⟨unit, hmem, hunit⟩ := exists_error_of_mapM hunits
      cases hfile : SourceFile.parse unit.text (some unit.fileName) with
      | ok file =>
          rw [hfile] at hunit
          cases hunit
      | error cause =>
          rw [hfile] at hunit
          cases hunit
          exact ⟨unit, hmem, cause, hfile, rfl⟩

theorem Package.parse_ne_exhausted (loaded : LoadedPackage) :
    Package.parse loaded ≠ .error .exhausted := by
  intro h
  obtain ⟨unit, -, cause, hfile, heq⟩ := Package.exists_parse_error h
  have hread : SourceFile.parse unit.text (some unit.fileName) ≠ .error .exhausted :=
    Parser.run_ne_exhausted _ _ _
  cases cause with
  | error cause => cases heq
  | splitCharacter => cases heq
  | exhausted => exact hread hfile

namespace Loader

theorem parsed_ne_exhausted (loader : Loader) (path : String) :
    loader.parsed path ≠ .error .exhausted := by
  unfold parsed
  split
  · nofun
  · nofun
  · exact Package.parse_ne_exhausted _

end Loader

/-! ## Names of imported packages -/

theorem filter_eraseDups {α : Type} [BEq α] [LawfulBEq α] (accepts : α → Bool) (values : List α) :
    values.eraseDups.filter accepts = (values.filter accepts).eraseDups := by
  match values with
  | [] => rfl
  | value :: rest =>
      have ih := filter_eraseDups accepts (rest.filter fun other => !other == value)
      rw [List.eraseDups_cons, List.filter_cons, List.filter_cons, ih]
      split
      · rw [List.eraseDups_cons, List.filter_filter, List.filter_filter]
        simp only [Bool.and_comm]
      · rename_i hvalue
        rw [List.filter_filter]
        congr 1
        refine List.filter_congr fun other _ => ?_
        by_cases h : other = value
        · simp [h, hvalue]
        · simp [h]
termination_by values.length
decreasing_by
  exact Nat.lt_succ_of_le (List.length_filter_le _ _)

namespace Loader

variable {loader : Loader}

def missing (loader : Loader) (paths : List String) : List String :=
  paths.eraseDups.filter fun path => (loader.locate path).isNone

theorem lookup_names (paths : List String) (path : String) :
    (paths.filterMap fun path => (loader.locate path).map fun info =>
        (path, info.name.getD (fallbackName path))).lookup path =
      if path ∈ paths then loader.nameOf path else none := by
  induction paths with
  | nil => simp
  | cons first rest ih =>
      cases hfirst : loader.locate first with
      | none =>
          simp only [List.filterMap_cons, hfirst, Option.map_none, ih, List.mem_cons]
          by_cases heq : path = first
          · subst heq
            simp [nameOf, hfirst]
          · simp [heq]
      | some info =>
          simp only [List.filterMap_cons, hfirst, Option.map_some, List.lookup_cons, ih,
            List.mem_cons]
          by_cases heq : path = first
          · subst heq
            simp [nameOf, hfirst]
          · have hbeq : (path == first) = false := by simpa using heq
            simp [heq, hbeq]

end Loader

theorem eraseDups_eq_foldl {α : Type} [BEq α] [LawfulBEq α] (values : List α) :
    values.eraseDups =
      values.foldl (fun seen value => if seen.contains value then seen else seen ++ [value]) [] := by
  have hloop (seen : List α) : List.eraseDupsBy.loop (· == ·) values seen =
      values.foldl (fun seen value => if seen.contains value then seen else seen ++ [value])
        seen.reverse := by
    induction values generalizing seen with
    | nil => rfl
    | cons value rest ih =>
        have hseen : seen.any (value == ·) = seen.reverse.contains value := by
          rw [List.any_beq, List.contains_reverse]
        rw [List.eraseDupsBy.loop, hseen, List.foldl_cons]
        cases seen.reverse.contains value with
        | true => exact ih seen
        | false =>
            rw [← List.reverse_cons]
            exact ih (value :: seen)
  exact hloop []

namespace NameSearch

variable {loader : Loader}

def ofAsked (loader : Loader) (asked : List String) : NameSearch where
  names := asked.filterMap fun path =>
    (loader.locate path).map fun info => (path, info.name.getD (fallbackName path))
  missing := asked.filter fun path => (loader.locate path).isNone
  asked := asked

theorem seen_ofAsked (asked : List String) (path : String) :
    (((ofAsked loader asked).names.lookup path).isSome ||
      (ofAsked loader asked).missing.contains path) = asked.contains path := by
  rw [Bool.eq_iff_iff, ofAsked, Loader.lookup_names]
  cases hlocate : loader.locate path with
  | none => simp [Loader.nameOf, hlocate]
  | some info => simp [Loader.nameOf, hlocate]

theorem look_ofAsked (asked : List String) (path : String) :
    look loader (ofAsked loader asked) path =
      ofAsked loader (if asked.contains path then asked else asked ++ [path]) := by
  unfold look
  rw [seen_ofAsked]
  cases asked.contains path with
  | true => rfl
  | false => cases hlocate : loader.locate path <;> simp [ofAsked, hlocate]

theorem among_eq (paths : List String) : among loader paths = ofAsked loader paths.eraseDups := by
  have hfold (asked : List String) : paths.foldl (look loader) (ofAsked loader asked) =
      ofAsked loader (paths.foldl
        (fun seen path => if seen.contains path then seen else seen ++ [path]) asked) := by
    induction paths generalizing asked with
    | nil => rfl
    | cons path rest ih => rw [List.foldl_cons, look_ofAsked, ih, List.foldl_cons]
  rw [eraseDups_eq_foldl]
  exact hfold []

theorem result_among (paths : List String) : (among loader paths).result = loader.namesOf paths := rfl

theorem asked_among (paths : List String) : (among loader paths).asked = paths.eraseDups := by
  rw [among_eq]
  rfl

end NameSearch

namespace Loader

variable {loader : Loader}

theorem namesOf_eq_error {paths : List String} (h : loader.missing paths ≠ []) :
    loader.namesOf paths = .error (.load (loader.missing paths)) := by
  unfold missing at h
  simp [namesOf, NameSearch.result, NameSearch.among_eq, NameSearch.ofAsked, missing, h]

theorem namesOf_eq_ok {paths : List String} (h : loader.missing paths = []) :
    loader.namesOf paths = .ok (paths.eraseDups.filterMap fun path =>
      (loader.locate path).map fun info => (path, info.name.getD (fallbackName path))) := by
  unfold missing at h
  simp [namesOf, NameSearch.result, NameSearch.among_eq, NameSearch.ofAsked, h]

/-- Paths that have a package may be left out: the others that are missing stay the same. -/
theorem missing_filter (paths : List String) {asked : String → Bool}
    (h : ∀ path, loader.locate path = none → asked path = true) :
    loader.missing (paths.filter asked) = loader.missing paths := by
  unfold missing
  rw [filter_eraseDups, filter_eraseDups, List.filter_filter]
  congr 1
  refine List.filter_congr fun path _ => ?_
  cases hpath : loader.locate path with
  | none => simp [h path hpath]
  | some info => simp

end Loader

/-- A table depends on the names of those packages only that are imported without an alias. -/
theorem ImportTable.ofSpecs_congr {specs : List ImportSpec} {first second : String → Option String}
    (h : ∀ spec ∈ specs, spec.needsName = true → first spec.path = second spec.path) :
    ofSpecs specs first = ofSpecs specs second := by
  unfold ofSpecs
  have hstep : ∀ table : ImportTable, ∀ spec ∈ specs.filter ImportSpec.bindsAlias,
      table.insert (spec.aliasBy first) spec.path =
        table.insert (spec.aliasBy second) spec.path := by
    intro table spec hmem
    obtain ⟨hmem, hbinds⟩ := List.mem_filter.mp hmem
    obtain ⟨name, path, span⟩ := spec
    simp only [ImportSpec.bindsAlias, Bool.and_eq_true, decide_eq_true_eq] at hbinds
    match name with
    | none =>
        have heq := h _ hmem (by simp [ImportSpec.needsName, hbinds.1.1])
        simp only [ImportSpec.aliasBy] at heq ⊢
        rw [heq]
    | some (.named aliasName) => rfl
    | some .dot => simp at hbinds
    | some .blank => simp at hbinds
  generalize specs.filter ImportSpec.bindsAlias = binding at hstep
  generalize Roster.empty = table
  induction binding generalizing table with
  | nil => rfl
  | cons spec rest ih =>
      rw [List.foldl_cons, List.foldl_cons, hstep table spec List.mem_cons_self]
      exact ih (fun table spec hmem => hstep table spec (List.mem_cons_of_mem _ hmem)) _

namespace Loader

variable {loader : Loader}

/-- The paths whose names a list of imports asks for. -/
def neededPaths (specs : List ImportSpec) : List String :=
  (specs.filter ImportSpec.needsName).map (·.path)

theorem resolve_eq_ok {specs : List ImportSpec}
    (h : loader.missing (neededPaths specs) = []) :
    ImportTable.resolve loader specs = .ok (ImportTable.ofSpecs specs loader.nameOf) := by
  rw [ImportTable.resolve, ← neededPaths, namesOf_eq_ok h]
  simp only [Except.map, Except.ok.injEq]
  refine ImportTable.ofSpecs_congr fun spec hspec hneeds => ?_
  have hmem : spec.path ∈ neededPaths specs :=
    List.mem_map_of_mem (List.mem_filter.mpr ⟨hspec, hneeds⟩)
  rw [lookup_names, if_pos (List.mem_eraseDups.mpr hmem)]

def unknownPaths (specs : List ImportSpec) (known : List (String × String)) : List String :=
  (specs.filter fun spec => spec.needsName && (known.lookup spec.path).isNone).map (·.path)

theorem unknownPaths_eq_filter (specs : List ImportSpec) (known : List (String × String)) :
    unknownPaths specs known =
      (neededPaths specs).filter fun path => (known.lookup path).isNone := by
  rw [unknownPaths, neededPaths, List.filter_map, List.filter_filter]
  congr 1
  refine List.filter_congr fun spec _ => ?_
  rw [Bool.and_comm]
  rfl

variable {specs : List ImportSpec} {known found : List (String × String)}
  (hknown : ∀ {path name}, known.lookup path = some name → loader.nameOf path = some name)

include hknown

theorem missing_unknownPaths :
    loader.missing (unknownPaths specs known) = loader.missing (neededPaths specs) := by
  rw [unknownPaths_eq_filter]
  refine missing_filter _ fun path hpath => ?_
  cases hlookup : known.lookup path with
  | none => rfl
  | some name =>
      have hname := hknown hlookup
      simp [nameOf, hpath] at hname

/-- What is known may be left out of the questions: the same paths are missing. -/
theorem resolve_eq_error_of_known {cause : ResolveError}
    (h : loader.namesOf (unknownPaths specs known) = .error cause) :
    ImportTable.resolve loader specs = .error cause := by
  by_cases hmissing : loader.missing (unknownPaths specs known) = []
  · rw [namesOf_eq_ok hmissing] at h
    cases h
  · rw [namesOf_eq_error hmissing, missing_unknownPaths hknown] at h
    rw [missing_unknownPaths hknown] at hmissing
    rw [ImportTable.resolve, ← neededPaths, namesOf_eq_error hmissing, h]
    rfl

theorem lookup_names_append (h : loader.namesOf (unknownPaths specs known) = .ok found)
    {path name : String} (hname : (found ++ known).lookup path = some name) :
    loader.nameOf path = some name := by
  by_cases hmissing : loader.missing (unknownPaths specs known) = []
  · rw [namesOf_eq_ok hmissing, Except.ok.injEq] at h
    subst h
    rw [List.lookup_append, lookup_names, Option.or_eq_some_iff] at hname
    rcases hname with hname | ⟨-, hname⟩
    · split at hname
      · exact hname
      · cases hname
    · exact hknown hname
  · rw [namesOf_eq_error hmissing] at h
    cases h

theorem resolve_eq_ok_of_known (h : loader.namesOf (unknownPaths specs known) = .ok found) :
    ImportTable.resolve loader specs =
      .ok (ImportTable.ofSpecs specs fun path => (found ++ known).lookup path) := by
  have hmissing : loader.missing (unknownPaths specs known) = [] := by
    by_cases hempty : loader.missing (unknownPaths specs known) = []
    · exact hempty
    · rw [namesOf_eq_error hempty] at h
      cases h
  have hall := hmissing
  rw [missing_unknownPaths hknown] at hall
  rw [resolve_eq_ok hall, Except.ok.injEq]
  refine ImportTable.ofSpecs_congr fun spec hspec hneeds => ?_
  have hmem : spec.path ∈ neededPaths specs :=
    List.mem_map_of_mem (List.mem_filter.mpr ⟨hspec, hneeds⟩)
  rw [namesOf_eq_ok hmissing, Except.ok.injEq] at h
  subst h
  simp only [List.lookup_append, lookup_names, List.mem_eraseDups, unknownPaths_eq_filter]
  cases hlookup : known.lookup spec.path with
  | some name => simp [hlookup, hknown hlookup]
  | none => simp [hmem, hlookup]

end Loader

/-! ## Coherent sessions -/

/-- What the session keeps is what the loader gives. -/
structure Session.Coherent (loader : Loader) (session : Session) : Prop where
  packages : ∀ {path package}, session.packages.lookup path = some package →
    loader.parsed path = .ok package
  names : ∀ {path name}, session.packageNames.lookup path = some name →
    loader.nameOf path = some name
  tables : ∀ {path unit table package}, session.importTables.lookup (path, unit) = some table →
    loader.parsed path = .ok package → loader.tableOf package unit = .ok table

theorem Session.coherent_empty (loader : Loader) : Session.empty.Coherent loader where
  packages h := nomatch h
  names h := nomatch h
  tables h := nomatch h

theorem Session.Coherent.record {loader : Loader} {session : Session} (hs : session.Coherent loader)
    (requests : List LoaderRequest) :
    ({ session with requests := requests } : Session).Coherent loader :=
  ⟨hs.packages, hs.names, hs.tables⟩

namespace Resolution

variable {α β : Type} {loader : Loader}

/-- The action answers `result` in every coherent session, leaves it coherent, and does not touch
its interfaces. -/
structure Settles (loader : Loader) (action : Resolution α) (result : Except ResolveFailure α) :
    Prop where
  answer : ∀ {session}, session.Coherent loader → answer action session = result
  coherent : ∀ {session}, session.Coherent loader → (after action session).Coherent loader
  interfaces : ∀ {session}, session.Coherent loader →
    (after action session).interfaces = session.interfaces
  resolving : ∀ {session}, session.Coherent loader →
    (after action session).resolving = session.resolving

theorem settles_ofExcept (result : Except ResolveFailure α) :
    Settles loader (ofExcept result) result where
  answer _ := answer_ofExcept _ _
  coherent h := by rwa [after_ofExcept]
  interfaces _ := by rw [after_ofExcept]
  resolving _ := by rw [after_ofExcept]

theorem settles_pure (value : α) : Settles loader (pure value) (.ok value) :=
  settles_ofExcept (.ok value)

theorem settles_throw (failure : ResolveFailure) :
    Settles loader (throw failure : Resolution α) (.error failure) :=
  settles_ofExcept (.error failure)

theorem Settles.bind {action : Resolution α} {next : α → Resolution β} {value : α}
    {result : Except ResolveFailure β} (h : Settles loader action (.ok value))
    (h' : Settles loader (next value) result) : Settles loader (action >>= next) result where
  answer hs := by
    rw [answer_bind, h.answer hs]
    exact h'.answer (h.coherent hs)
  coherent hs := by
    rw [after_bind, h.answer hs]
    exact h'.coherent (h.coherent hs)
  interfaces hs := by
    rw [after_bind, h.answer hs]
    exact (h'.interfaces (h.coherent hs)).trans (h.interfaces hs)
  resolving hs := by
    rw [after_bind, h.answer hs]
    exact (h'.resolving (h.coherent hs)).trans (h.resolving hs)

theorem Settles.bind_error {action : Resolution α} {next : α → Resolution β}
    {failure : ResolveFailure} (h : Settles loader action (.error failure)) :
    Settles loader (action >>= next) (.error failure) where
  answer hs := by rw [answer_bind, h.answer hs]
  coherent hs := by
    rw [after_bind, h.answer hs]
    exact h.coherent hs
  interfaces hs := by
    rw [after_bind, h.answer hs]
    exact h.interfaces hs
  resolving hs := by
    rw [after_bind, h.answer hs]
    exact h.resolving hs

theorem Settles.of_forall {action : Resolution α} {result : Except ResolveFailure α}
    (h : ∀ session, session.Coherent loader → Resolution.answer action session = result ∧
      (after action session).Coherent loader ∧
      (after action session).interfaces = session.interfaces ∧
      (after action session).resolving = session.resolving) : Settles loader action result where
  answer hs := (h _ hs).1
  coherent hs := (h _ hs).2.1
  interfaces hs := (h _ hs).2.2.1
  resolving hs := (h _ hs).2.2.2

/-! ## Packages and import tables -/

theorem addPackage_settles (steady : loader.Steady) {path : String} {loaded : LoadedPackage}
    (hload : loader.load path = .ok (some loaded)) :
    Settles loader (addPackage loaded) (loader.parsed path) := by
  have hparsed : loader.parsed path = Package.parse loaded := by
    rw [Loader.parsed, hload]
  have hpath : loaded.path = path := steady.path hload
  refine .of_forall fun session hs => ?_
  simp only [addPackage, answer_bind, after_bind, answer_get, after_get, hpath]
  cases hkept : session.packages.lookup path with
  | some package =>
      simp only [answer_pure, after_pure]
      exact ⟨(hs.packages hkept).symm, hs, trivial, trivial⟩
  | none =>
      simp only [answer_bind, after_bind, answer_ofExcept, after_ofExcept]
      rw [← hparsed]
      cases hresult : loader.parsed path with
      | error failure => exact ⟨rfl, hs, rfl, rfl⟩
      | ok package =>
          simp only [answer_modify, after_modify, answer_pure, after_pure]
          rw [steady.path_of_parsed hresult]
          refine ⟨trivial, ⟨?_, ?_, ?_⟩, trivial, trivial⟩
          · intro other found hfound
            rw [List.lookup_cons] at hfound
            split at hfound
            · rename_i heq
              cases hfound
              rw [eq_of_beq heq, hresult]
            · exact hs.packages hfound
          · intro other name hname
            rw [List.lookup_cons] at hname
            split at hname
            · rename_i heq
              cases hname
              rw [eq_of_beq heq, steady.name_of_parsed hresult]
            · exact hs.names hname
          · exact hs.tables

theorem package_settles (steady : loader.Steady) (path : String) :
    Settles loader (package loader path) (loader.parsed path) := by
  refine .of_forall fun session hs => ?_
  simp only [package, answer_bind, after_bind, answer_get, after_get]
  cases hkept : session.packages.lookup path with
  | some found =>
      simp only [answer_pure, after_pure]
      exact ⟨(hs.packages hkept).symm, hs, trivial, trivial⟩
  | none =>
      simp only [answer_bind, after_bind, record, answer_modify, after_modify]
      have hrecorded := hs.record ([LoaderRequest.load path].reverse ++ session.requests)
      split
      · rename_i cause hload
        simp only [answer_fail, after_fail, Loader.parsed, hload]
        exact ⟨trivial, hrecorded, trivial, trivial⟩
      · rename_i hload
        simp only [answer_fail, after_fail, Loader.parsed, hload]
        exact ⟨trivial, hrecorded, trivial, trivial⟩
      · rename_i loaded hload
        have hadd := addPackage_settles steady hload
        exact ⟨hadd.answer hrecorded, hadd.coherent hrecorded, hadd.interfaces hrecorded,
          hadd.resolving hrecorded⟩

theorem importTable_settles {package : Package} (hpackage : loader.Holds package) (unit : Nat) :
    Settles loader (importTable loader package unit) (loader.tableOf package unit) := by
  refine .of_forall fun session hs => ?_
  simp only [importTable, answer_bind, after_bind, answer_get, after_get]
  cases hkept : session.importTables.lookup (package.path, unit) with
  | some table =>
      simp only [answer_pure, after_pure]
      exact ⟨(hs.tables hkept hpackage).symm, hs, trivial, trivial⟩
  | none =>
      simp only [answer_bind, after_bind, answer_get, after_get, record, answer_modify,
        after_modify, answer_ofExcept, after_ofExcept]
      generalize hspecs : (package.units[unit]?.map (·.imports)).getD [] = specs
      have htable : loader.tableOf package unit =
          (ImportTable.resolve loader specs).mapError .error := by
        rw [Loader.tableOf, hspecs]
      have hrecorded := hs.record
        (((NameSearch.among loader (Loader.unknownPaths specs session.packageNames)).asked.map
          .locate).reverse ++ session.requests)
      rw [← Loader.unknownPaths, htable, NameSearch.result_among]
      cases hnames : loader.namesOf (Loader.unknownPaths specs session.packageNames) with
      | error cause =>
          rw [Loader.resolve_eq_error_of_known hs.names hnames]
          exact ⟨rfl, hrecorded, rfl, rfl⟩
      | ok found =>
          have hresolved := Loader.resolve_eq_ok_of_known hs.names hnames
          rw [hresolved]
          refine ⟨rfl, ⟨hs.packages, Loader.lookup_names_append hs.names hnames, ?_⟩, rfl, rfl⟩
          intro path other table declared hlookup hdeclared
          simp only [mapError_ok, after_pure, List.lookup_cons] at hlookup
          split at hlookup
          · rename_i heq
            cases hlookup
            obtain ⟨rfl, rfl⟩ := Prod.mk.inj (eq_of_beq heq)
            rw [Loader.Holds.parsed hpackage, Except.ok.injEq] at hdeclared
            rw [← hdeclared, htable, hresolved]
            rfl
          · exact hs.tables hlookup hdeclared

end Resolution

end GoTrace
