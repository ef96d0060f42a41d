import GoTrace.Proofs.Resolve.Sound
import Mathlib.Logic.Relation

/-!
# What happens to a session

Packages are added, names of packages are found out, interfaces are entered, left and kept, and the
loader is asked questions. Nothing is asked that is known, and what is known stays.
-/

namespace GoTrace

open Resolution

/-- Packages come with the path they are asked for. -/
def Loader.KeepsPaths (loader : Loader) : Prop :=
  ∀ ⦃path loaded⦄, loader.load path = .ok (some loaded) → loaded.path = path

theorem Library.keepsPaths (library : Library) : library.loader.KeepsPaths :=
  fun _ _ => library.steady.path

theorem Loader.KeepsPaths.path_of_parsed {loader : Loader} (keeps : loader.KeepsPaths)
    {path : String} {package : Package} (h : loader.parsed path = .ok package) :
    package.path = path := by
  obtain ⟨loaded, hload, hparse⟩ := Loader.exists_load_of_parsed h
  rw [(Package.parse_eq_ok hparse).1, keeps hload]

namespace Session

def asking (session : Session) (requests : List LoaderRequest) : Session :=
  { session with requests := requests.reverse ++ session.requests }

def adding (session : Session) (package : Package) : Session :=
  { session with
    packageNames := (package.path, package.name) :: session.packageNames
    packages := (package.path, package) :: session.packages }

/-- The session with some more names of packages, and one more import table. -/
def naming (session : Session) (found : List (String × String)) (key : String × Nat)
    (table : ImportTable) : Session :=
  { session with
    packageNames := found ++ session.packageNames
    importTables := (key, table) :: session.importTables }

def keeping (session : Session) (key : InterfaceKey) (interface : Interface) : Session :=
  { session with interfaces := (key, interface) :: session.interfaces }

def Knows (session : Session) : LoaderRequest → Prop
  | .locate path => (session.packageNames.lookup path).isSome = true
  | .load path => (session.packages.lookup path).isSome = true

/-- The imports of `package` in one unit whose names the session has not found out. -/
def unknownPaths (session : Session) (package : Package) (unit : Nat) : List String :=
  Loader.unknownPaths ((package.units[unit]?.map (·.imports)).getD []) session.packageNames

/-- The import table of `package` in one unit when `found` has been found out for it. -/
def tableWith (session : Session) (package : Package) (unit : Nat)
    (found : List (String × String)) : ImportTable :=
  ImportTable.ofSpecs ((package.units[unit]?.map (·.imports)).getD []) fun path =>
    (found ++ session.packageNames).lookup path

/-- What can happen to a session: nothing is asked that it knows, no package and no import table is
replaced, and no name of a package is found out twice. -/
inductive Change (session : Session) : Session → Prop
  | ask {requests : List LoaderRequest} :
      (∀ request ∈ requests, ¬ session.Knows request) → Change session (session.asking requests)
  | add {package : Package} :
      session.packages.lookup package.path = none → Change session (session.adding package)
  | name {found : List (String × String)} {key : String × Nat} (table : ImportTable) :
      session.importTables.lookup key = none →
        (∀ path, session.Knows (.locate path) → found.lookup path = none) →
          Change session (session.naming found key table)
  | enter (key : InterfaceKey) : Change session (entering session key)
  | leave (key : InterfaceKey) : Change session (leaving session key)
  | keep {path : String} {package : Package} (interface : Interface) :
      session.packages.lookup path = some package → interface.package = package.ref →
        Change session (session.keeping (path, interface.name) interface)

abbrev Changes : Session → Session → Prop := Relation.ReflTransGen Change

end Session

namespace Resolution

variable {loader : Loader} {session : Session}

/-! ## What packages and import tables leave behind -/

theorem answer_addPackage_of_kept {loaded : LoadedPackage} {package : Package}
    (h : session.packages.lookup loaded.path = some package) :
    answer (addPackage loaded) session = .ok package := by
  simp [addPackage, answer_bind, h]

theorem after_addPackage_of_kept {loaded : LoadedPackage} {package : Package}
    (h : session.packages.lookup loaded.path = some package) :
    after (addPackage loaded) session = session := by
  simp [addPackage, after_bind, h]

theorem answer_addPackage_of_new {loaded : LoadedPackage}
    (h : session.packages.lookup loaded.path = none) :
    answer (addPackage loaded) session = Package.parse loaded := by
  simp only [addPackage, answer_bind, answer_get, after_get, h, answer_ofExcept, answer_modify]
  cases Package.parse loaded <;> rfl

theorem after_addPackage_of_new {loaded : LoadedPackage}
    (h : session.packages.lookup loaded.path = none) :
    after (addPackage loaded) session =
      match Package.parse loaded with
      | .ok package => session.adding package
      | .error _ => session := by
  simp only [addPackage, after_bind, answer_get, after_get, h, answer_ofExcept, after_ofExcept]
  cases Package.parse loaded <;> rfl

theorem answer_package_of_kept {path : String} {package : Package}
    (h : session.packages.lookup path = some package) :
    answer (Resolution.package loader path) session = .ok package := by
  simp [Resolution.package, answer_bind, h]

theorem after_package_of_kept {path : String} {package : Package}
    (h : session.packages.lookup path = some package) :
    after (Resolution.package loader path) session = session := by
  simp [Resolution.package, after_bind, h]

theorem answer_package_of_new (keeps : loader.KeepsPaths) {path : String}
    (h : session.packages.lookup path = none) :
    answer (package loader path) session = loader.parsed path := by
  simp only [package, answer_bind, answer_get, after_get, h, record, answer_modify, after_modify]
  unfold Loader.parsed
  cases hload : loader.load path with
  | error cause => rfl
  | ok found =>
      cases found with
      | none => rfl
      | some loaded => exact answer_addPackage_of_new (by rwa [keeps hload])

theorem after_package_of_new (keeps : loader.KeepsPaths) {path : String}
    (h : session.packages.lookup path = none) :
    after (package loader path) session =
      match loader.parsed path with
      | .ok package => (session.asking [.load path]).adding package
      | .error _ => session.asking [.load path] := by
  simp only [package, after_bind, answer_get, after_get, h, record, answer_modify, after_modify]
  unfold Loader.parsed
  cases hload : loader.load path with
  | error cause => rfl
  | ok found =>
      cases found with
      | none => rfl
      | some loaded => exact after_addPackage_of_new (by rwa [keeps hload])

theorem after_importTable_of_kept {package : Package} {unit : Nat} {table : ImportTable}
    (h : session.importTables.lookup (package.path, unit) = some table) :
    after (importTable loader package unit) session = session := by
  simp [importTable, after_bind, h]

theorem answer_importTable_of_new {package : Package} {unit : Nat}
    (h : session.importTables.lookup (package.path, unit) = none) :
    answer (importTable loader package unit) session =
      match loader.namesOf (session.unknownPaths package unit) with
      | .ok found => .ok (session.tableWith package unit found)
      | .error cause => .error (.error cause) := by
  simp only [importTable, answer_bind, answer_get, after_get, h, record, answer_modify,
    after_modify, answer_ofExcept, NameSearch.result_among]
  unfold Session.unknownPaths Loader.unknownPaths
  cases loader.namesOf _ <;> rfl

theorem after_importTable_of_new {package : Package} {unit : Nat}
    (h : session.importTables.lookup (package.path, unit) = none) :
    after (importTable loader package unit) session =
      let unknown := session.unknownPaths package unit
      let asked := session.asking (unknown.eraseDups.map .locate)
      match loader.namesOf unknown with
      | .ok found => asked.naming found (package.path, unit) (session.tableWith package unit found)
      | .error _ => asked := by
  simp only [importTable, after_bind, answer_get, after_get, h, record, answer_modify, after_modify,
    answer_ofExcept, after_ofExcept, NameSearch.result_among, NameSearch.asked_among]
  unfold Session.unknownPaths Loader.unknownPaths
  cases loader.namesOf _ <;> rfl

/-! ## A package that was handed out is there -/

theorem lookup_of_answer_addPackage {loaded : LoadedPackage} {package : Package}
    (h : answer (addPackage loaded) session = .ok package) :
    (after (addPackage loaded) session).packages.lookup loaded.path = some package := by
  cases hkept : session.packages.lookup loaded.path with
  | some found =>
      rw [answer_addPackage_of_kept hkept] at h
      rw [after_addPackage_of_kept hkept, hkept, Except.ok.inj h]
  | none =>
      rw [answer_addPackage_of_new hkept] at h
      rw [after_addPackage_of_new hkept, h, ← (Package.parse_eq_ok h).1]
      exact List.lookup_cons_self

theorem lookup_of_answer_package (keeps : loader.KeepsPaths) {path : String} {package : Package}
    (h : answer (Resolution.package loader path) session = .ok package) :
    (after (Resolution.package loader path) session).packages.lookup path = some package := by
  cases hkept : session.packages.lookup path with
  | some found =>
      rw [answer_package_of_kept hkept] at h
      rw [after_package_of_kept hkept, hkept, Except.ok.inj h]
  | none =>
      rw [answer_package_of_new keeps hkept] at h
      rw [after_package_of_new keeps hkept, h, ← keeps.path_of_parsed h]
      exact List.lookup_cons_self

theorem lookup_of_answer_importTable {package : Package} {unit : Nat} {table : ImportTable}
    (h : answer (importTable loader package unit) session = .ok table) :
    (after (importTable loader package unit) session).importTables.lookup (package.path, unit) =
      some table := by
  cases hkept : session.importTables.lookup (package.path, unit) with
  | some found =>
      rw [after_importTable_of_kept hkept, hkept]
      simpa [importTable, answer_bind, hkept] using h
  | none =>
      rw [answer_importTable_of_new hkept] at h
      rw [after_importTable_of_new hkept]
      dsimp only
      cases hnames : loader.namesOf (session.unknownPaths package unit) with
      | error cause =>
          rw [hnames] at h
          cases h
      | ok found =>
          rw [hnames, Except.ok.injEq] at h
          rw [← h]
          exact List.lookup_cons_self

end Resolution

namespace Session

variable {session later : Session}

/-! ## Packages and import tables bring changes -/

theorem mem_unknownPaths {package : Package} {unit : Nat} {path : String}
    (h : path ∈ session.unknownPaths package unit) : ¬ session.Knows (.locate path) := by
  rw [unknownPaths, Loader.unknownPaths_eq_filter, List.mem_filter] at h
  rw [Knows, Option.isNone_iff_eq_none.mp h.2]
  nofun

theorem lookup_of_namesOf {loader : Loader} {paths : List String} {found : List (String × String)}
    (h : loader.namesOf paths = .ok found) {path : String} (hpath : path ∉ paths) :
    found.lookup path = none := by
  by_cases hmissing : loader.missing paths = []
  · rw [Loader.namesOf_eq_ok hmissing, Except.ok.injEq] at h
    rw [← h, Loader.lookup_names, if_neg (by rwa [List.mem_eraseDups])]
  · rw [Loader.namesOf_eq_error hmissing] at h
    cases h

theorem changes_addPackage (session : Session) (loaded : LoadedPackage) :
    Changes session (after (addPackage loaded) session) := by
  cases hkept : session.packages.lookup loaded.path with
  | some found => rw [after_addPackage_of_kept hkept]
  | none =>
      rw [after_addPackage_of_new hkept]
      cases hparse : Package.parse loaded with
      | error failure => exact .refl
      | ok package => exact .single (.add (by rwa [(Package.parse_eq_ok hparse).1]))

theorem changes_package (session : Session) {loader : Loader} (keeps : loader.KeepsPaths)
    (path : String) : Changes session (after (package loader path) session) := by
  cases hkept : session.packages.lookup path with
  | some found => rw [after_package_of_kept hkept]
  | none =>
      have hasking : Change session (session.asking [.load path]) := by
        refine .ask fun request hmem => ?_
        rw [List.mem_singleton.mp hmem]
        simp [Knows, hkept]
      rw [after_package_of_new keeps hkept]
      cases hparsed : loader.parsed path with
      | error failure => exact .single hasking
      | ok package =>
          have hnew : (session.asking [.load path]).packages.lookup package.path = none := by
            rwa [keeps.path_of_parsed hparsed]
          exact (Relation.ReflTransGen.single hasking).tail (.add hnew)

theorem changes_importTable (session : Session) (loader : Loader) (package : Package)
    (unit : Nat) : Changes session (after (importTable loader package unit) session) := by
  cases hkept : session.importTables.lookup (package.path, unit) with
  | some found => rw [after_importTable_of_kept hkept]
  | none =>
      have hasking : Change session (session.asking
          ((session.unknownPaths package unit).eraseDups.map .locate)) := by
        refine .ask fun request hmem => ?_
        obtain ⟨path, hpath, rfl⟩ := List.mem_map.mp hmem
        exact mem_unknownPaths (List.mem_eraseDups.mp hpath)
      rw [after_importTable_of_new hkept]
      dsimp only
      cases hnames : loader.namesOf (session.unknownPaths package unit) with
      | error cause => exact .single hasking
      | ok found =>
          refine (Relation.ReflTransGen.single hasking).tail (.name _ hkept fun path hknows => ?_)
          exact lookup_of_namesOf hnames fun hmem => mem_unknownPaths hmem hknows

/-! ## Packages stay -/

theorem lookup_adding {path : String} {added package : Package}
    (hnew : session.packages.lookup added.path = none)
    (h : session.packages.lookup path = some package) :
    (session.adding added).packages.lookup path = some package := by
  have hne : (path == added.path) = false := by
    rw [beq_eq_false_iff_ne]
    rintro rfl
    rw [h] at hnew
    cases hnew
  simp only [adding, List.lookup_cons, hne]
  exact h

theorem lookup_adding_cases {added package : Package} {path : String}
    (h : (session.adding added).packages.lookup path = some package) :
    (path = added.path ∧ package = added) ∨ session.packages.lookup path = some package := by
  simp only [adding, List.lookup_cons] at h
  split at h
  · rename_i heq
    exact .inl ⟨eq_of_beq heq, (Option.some.inj h).symm⟩
  · exact .inr h

theorem Changes.lookup_packages (h : Changes session later) {path : String} {package : Package}
    (hlookup : session.packages.lookup path = some package) :
    later.packages.lookup path = some package := by
  induction h with
  | refl => exact hlookup
  | tail _ hchange ih =>
      cases hchange with
      | add hnew => exact lookup_adding hnew ih
      | ask _ => exact ih
      | name _ _ _ => exact ih
      | enter _ => exact ih
      | leave _ => exact ih
      | keep _ _ _ => exact ih

/-! ## Import tables stay -/

theorem lookup_naming {found : List (String × String)} {key other : String × Nat}
    {table kept : ImportTable} (hnew : session.importTables.lookup key = none)
    (h : session.importTables.lookup other = some kept) :
    (session.naming found key table).importTables.lookup other = some kept := by
  have hne : (other == key) = false := by
    rw [beq_eq_false_iff_ne]
    rintro rfl
    rw [h] at hnew
    cases hnew
  simp only [naming, List.lookup_cons, hne]
  exact h

theorem Changes.lookup_importTables (h : Changes session later) {key : String × Nat}
    {table : ImportTable} (hlookup : session.importTables.lookup key = some table) :
    later.importTables.lookup key = some table := by
  induction h with
  | refl => exact hlookup
  | tail _ hchange ih =>
      cases hchange with
      | name _ hnew _ => exact lookup_naming hnew ih
      | add _ => exact ih
      | ask _ => exact ih
      | enter _ => exact ih
      | leave _ => exact ih
      | keep _ _ _ => exact ih

end Session

end GoTrace
