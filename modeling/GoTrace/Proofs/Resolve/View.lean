import GoTrace.Proofs.Resolve.Steps

/-!
# What a session shows

A session shows the packages, their names and the import tables that it keeps, and behind them those
that its loader would give. Asking for a package or for an import table answers what is shown and
leaves it as it was, so that one question does not change the answer to the next.
-/

namespace GoTrace

open Resolution

namespace Session

/-- The package at `path`: the one that is kept, or the one that would be loaded. -/
def packageAt (session : Session) (loader : Loader) (path : String) :
    Except ResolveFailure Package :=
  match session.packages.lookup path with
  | some package => .ok package
  | none => loader.parsed path

/-- The name of the package at `path`: the one that is kept, or the one that the loader tells. -/
def nameAt (session : Session) (loader : Loader) (path : String) : Option String :=
  (session.packageNames.lookup path).or (loader.nameOf path)

/-- The import table of one unit of a package: the one that is kept, or the one that would be made. That
takes the names of all packages which the unit imports without an alias. -/
def tableAt (session : Session) (loader : Loader) (package : Package) (unit : Nat) :
    Option ImportTable :=
  match session.importTables.lookup (package.path, unit) with
  | some table => some table
  | none =>
      let specs := (package.units[unit]?.map (·.imports)).getD []
      if (Loader.neededPaths specs).all fun path => (session.nameAt loader path).isSome then
        some (ImportTable.ofSpecs specs (session.nameAt loader))
      else none

/-- Packages are kept under their paths, and only a package that is kept has a name that its loader
does not tell. -/
structure Grounded (loader : Loader) (session : Session) : Prop where
  path : ∀ {path package}, session.packages.lookup path = some package → package.path = path
  name : ∀ {path name}, session.packages.lookup path = none →
    session.packageNames.lookup path = some name → loader.nameOf path = some name

/-- The session shows what `start` shows. Tables are compared for the packages at their own paths. -/
structure Shows (loader : Loader) (start session : Session) : Prop where
  packages : ∀ path, session.packageAt loader path = start.packageAt loader path
  names : ∀ path, session.nameAt loader path = start.nameAt loader path
  tables : ∀ {package}, start.packageAt loader package.path = .ok package → ∀ unit,
    session.tableAt loader package unit = start.tableAt loader package unit

variable {loader : Loader} {start session later : Session}

theorem Shows.refl (loader : Loader) (session : Session) : Shows loader session session :=
  ⟨fun _ => rfl, fun _ => rfl, fun _ _ => rfl⟩

theorem Shows.trans (h : Shows loader start session) (h' : Shows loader session later) :
    Shows loader start later where
  packages path := (h'.packages path).trans (h.packages path)
  names path := (h'.names path).trans (h.names path)
  tables hpackage unit :=
    (h'.tables ((h.packages _).trans hpackage) unit).trans (h.tables hpackage unit)

theorem tableAt_congr {package : Package} {unit : Nat}
    (hkept : later.importTables.lookup (package.path, unit) =
      session.importTables.lookup (package.path, unit))
    (hnames : ∀ path, later.nameAt loader path = session.nameAt loader path) :
    later.tableAt loader package unit = session.tableAt loader package unit := by
  have hsame : later.nameAt loader = session.nameAt loader := funext hnames
  rw [tableAt, tableAt, hkept, hsame]

theorem shows_asking (loader : Loader) (session : Session) (requests : List LoaderRequest) :
    Shows loader session (session.asking requests) :=
  ⟨fun _ => rfl, fun _ => rfl, fun _ _ => rfl⟩

theorem Grounded.path_of_packageAt (grounded : session.Grounded loader) (keeps : loader.KeepsPaths)
    {path : String} {package : Package} (h : session.packageAt loader path = .ok package) :
    package.path = path := by
  unfold packageAt at h
  split at h
  · rename_i found hkept
    cases h
    exact grounded.path hkept
  · exact keeps.path_of_parsed h

/-! ## Packages -/

theorem grounded_adding (grounded : session.Grounded loader) (package : Package) :
    (session.adding package).Grounded loader where
  path {path found} h := by
    rcases lookup_adding_cases h with ⟨rfl, rfl⟩ | h
    · rfl
    · exact grounded.path h
  name {path name} h hname := by
    simp only [adding, List.lookup_cons] at h hname
    split at h
    · cases h
    · rename_i hne
      rw [hne] at hname
      exact grounded.name h hname

theorem shows_adding (steady : loader.Steady) (grounded : session.Grounded loader) {path : String}
    {package : Package} (hnew : session.packages.lookup path = none)
    (hparsed : loader.parsed path = .ok package) : Shows loader session (session.adding package) := by
  have hpath : package.path = path := steady.path_of_parsed hparsed
  have hnames : ∀ other, (session.adding package).nameAt loader other =
      session.nameAt loader other := by
    intro other
    rw [nameAt, nameAt, adding, List.lookup_cons, hpath]
    split
    · rename_i heq
      obtain rfl := eq_of_beq heq
      have htold := steady.name_of_parsed hparsed
      cases hname : session.packageNames.lookup other with
      | none => rw [Option.none_or, htold, Option.some_or]
      | some name => rw [Option.some_or, Option.some_or, ← htold, grounded.name hnew hname]
    · rfl
  refine ⟨fun other => ?_, hnames, fun _ _ => tableAt_congr rfl hnames⟩
  rw [packageAt, packageAt, adding, List.lookup_cons, hpath]
  by_cases heq : other = path
  · rw [beq_iff_eq.mpr heq, heq, hnew, hparsed]
  · rw [beq_eq_false_iff_ne.mpr heq]

theorem answer_package (keeps : loader.KeepsPaths) (session : Session) (path : String) :
    answer (package loader path) session = session.packageAt loader path := by
  unfold packageAt
  cases hkept : session.packages.lookup path with
  | some package => exact answer_package_of_kept hkept
  | none => exact answer_package_of_new keeps hkept

theorem shows_package (steady : loader.Steady) (grounded : session.Grounded loader) (path : String) :
    Shows loader session (after (package loader path) session) := by
  have keeps : loader.KeepsPaths := fun _ _ => steady.path
  cases hkept : session.packages.lookup path with
  | some package =>
      rw [after_package_of_kept hkept]
      exact .refl _ _
  | none =>
      rw [after_package_of_new keeps hkept]
      have hasked := shows_asking loader session [.load path]
      cases hparsed : loader.parsed path with
      | error failure => exact hasked
      | ok package =>
          have hgrounded : (session.asking [.load path]).Grounded loader :=
            ⟨grounded.path, grounded.name⟩
          exact hasked.trans (shows_adding steady hgrounded hkept hparsed)

theorem grounded_addPackage (grounded : session.Grounded loader) (loaded : LoadedPackage) :
    (after (addPackage loaded) session).Grounded loader := by
  cases hkept : session.packages.lookup loaded.path with
  | some package => rwa [after_addPackage_of_kept hkept]
  | none =>
      rw [after_addPackage_of_new hkept]
      split
      · exact grounded_adding grounded _
      · exact grounded

theorem grounded_package (keeps : loader.KeepsPaths) (grounded : session.Grounded loader)
    (path : String) : (after (package loader path) session).Grounded loader := by
  cases hkept : session.packages.lookup path with
  | some package => rwa [after_package_of_kept hkept]
  | none =>
      have hasked : (session.asking [.load path]).Grounded loader := ⟨grounded.path, grounded.name⟩
      rw [after_package_of_new keeps hkept]
      split
      · exact grounded_adding hasked _
      · exact hasked

/-! ## Import tables -/

/-- The names that a session does not know are there exactly when all names that are needed are
shown. -/
theorem missing_eq_nil_iff {package : Package} {unit : Nat} :
    loader.missing (session.unknownPaths package unit) = [] ↔
      ∀ path ∈ Loader.neededPaths ((package.units[unit]?.map (·.imports)).getD []),
        (session.nameAt loader path).isSome = true := by
  rw [Loader.missing, List.filter_eq_nil_iff]
  simp only [List.mem_eraseDups, unknownPaths, Loader.unknownPaths_eq_filter, List.mem_filter,
    Option.isNone_iff_eq_none, and_imp]
  refine forall₂_congr fun path _ => ?_
  cases hname : session.packageNames.lookup path with
  | some name => simp [nameAt, hname]
  | none => simp [nameAt, hname, Loader.nameOf, Option.isSome_iff_ne_none]

theorem missing_of_namesOf {paths : List String} {found : List (String × String)}
    (h : loader.namesOf paths = .ok found) : loader.missing paths = [] := by
  by_cases hmissing : loader.missing paths = []
  · exact hmissing
  · rw [Loader.namesOf_eq_error hmissing] at h
    cases h

theorem lookup_found {package : Package} {unit : Nat} {found : List (String × String)}
    (hfound : loader.namesOf (session.unknownPaths package unit) = .ok found) (path : String) :
    found.lookup path =
      if path ∈ session.unknownPaths package unit then loader.nameOf path else none := by
  rw [Loader.namesOf_eq_ok (missing_of_namesOf hfound), Except.ok.injEq] at hfound
  rw [← hfound, Loader.lookup_names]
  simp only [List.mem_eraseDups]

theorem tableAt_of_found {package : Package} {unit : Nat} {found : List (String × String)}
    (hnew : session.importTables.lookup (package.path, unit) = none)
    (hfound : loader.namesOf (session.unknownPaths package unit) = .ok found) :
    session.tableAt loader package unit = some (session.tableWith package unit found) := by
  have hshown := missing_eq_nil_iff.mp (missing_of_namesOf hfound)
  simp only [tableAt, hnew, List.all_eq_true.mpr hshown, if_true, tableWith, Option.some.injEq]
  refine ImportTable.ofSpecs_congr fun spec hspec hneeds => ?_
  have hneeded : spec.path ∈ Loader.neededPaths ((package.units[unit]?.map (·.imports)).getD []) :=
    List.mem_map_of_mem (List.mem_filter.mpr ⟨hspec, hneeds⟩)
  rw [List.lookup_append, lookup_found hfound, nameAt]
  cases hname : session.packageNames.lookup spec.path with
  | some name =>
      have hknown : spec.path ∉ session.unknownPaths package unit := by
        intro hmem
        exact mem_unknownPaths hmem (by simp [Knows, hname])
      rw [if_neg hknown, Option.none_or, Option.some_or]
  | none =>
      have hunknown : spec.path ∈ session.unknownPaths package unit := by
        rw [unknownPaths, Loader.unknownPaths_eq_filter, List.mem_filter, hname]
        exact ⟨hneeded, rfl⟩
      rw [if_pos hunknown, Option.or_none, Option.none_or]

theorem tableAt_of_missing {package : Package} {unit : Nat} {cause : ResolveError}
    (hnew : session.importTables.lookup (package.path, unit) = none)
    (hcause : loader.namesOf (session.unknownPaths package unit) = .error cause) :
    session.tableAt loader package unit = none := by
  have hmissing : loader.missing (session.unknownPaths package unit) ≠ [] := by
    intro hmissing
    rw [Loader.namesOf_eq_ok hmissing] at hcause
    cases hcause
  have hhidden := mt missing_eq_nil_iff.mpr hmissing
  simp only [tableAt, hnew]
  rw [if_neg (by rwa [List.all_eq_true])]

theorem answer_importTable_eq_ok_iff {session : Session} {package : Package} {unit : Nat}
    {table : ImportTable} :
    answer (importTable loader package unit) session = .ok table ↔
      session.tableAt loader package unit = some table := by
  cases hkept : session.importTables.lookup (package.path, unit) with
  | some kept =>
      simp [importTable, answer_bind, hkept, tableAt]
  | none =>
      rw [answer_importTable_of_new hkept]
      cases hnames : loader.namesOf (session.unknownPaths package unit) with
      | error cause =>
          rw [tableAt_of_missing hkept hnames]
          simp only [reduceCtorEq]
      | ok found =>
          rw [tableAt_of_found hkept hnames]
          rw [Except.ok.injEq, Option.some.injEq]

theorem nameAt_naming {package : Package} {unit : Nat} {found : List (String × String)}
    (hfound : loader.namesOf (session.unknownPaths package unit) = .ok found)
    (key : String × Nat) (table : ImportTable) (path : String) :
    (session.naming found key table).nameAt loader path = session.nameAt loader path := by
  rw [nameAt, nameAt, naming, List.lookup_append, lookup_found hfound]
  split
  · rename_i hmem
    have hunknown := mem_unknownPaths hmem
    rw [Knows, Bool.not_eq_true, Option.isSome_eq_false_iff, Option.isNone_iff_eq_none] at hunknown
    rw [hunknown, Option.or_none, Option.none_or, Option.or_self]
  · rw [Option.none_or]

theorem shows_naming {package : Package} {unit : Nat} {found : List (String × String)}
    (hpackage : session.packageAt loader package.path = .ok package)
    (hnew : session.importTables.lookup (package.path, unit) = none)
    (hfound : loader.namesOf (session.unknownPaths package unit) = .ok found) :
    Shows loader session
      (session.naming found (package.path, unit) (session.tableWith package unit found)) := by
  have hnames := nameAt_naming hfound (package.path, unit) (session.tableWith package unit found)
  refine ⟨fun _ => rfl, hnames, fun {other} hother place => ?_⟩
  by_cases hkey : (other.path, place) = (package.path, unit)
  · obtain ⟨hpath, rfl⟩ := Prod.mk.inj hkey
    obtain rfl : other = package := by
      rw [hpath, hpackage] at hother
      exact (Except.ok.inj hother).symm
    rw [tableAt_of_found hnew hfound, tableAt, naming, List.lookup_cons_self]
  · refine tableAt_congr ?_ hnames
    rw [naming, List.lookup_cons, beq_eq_false_iff_ne.mpr hkey]

theorem shows_importTable {package : Package}
    (hpackage : session.packageAt loader package.path = .ok package) (unit : Nat) :
    Shows loader session (after (importTable loader package unit) session) := by
  cases hkept : session.importTables.lookup (package.path, unit) with
  | some table =>
      rw [after_importTable_of_kept hkept]
      exact .refl _ _
  | none =>
      rw [after_importTable_of_new hkept]
      have hasked := shows_asking loader session
        ((session.unknownPaths package unit).eraseDups.map .locate)
      dsimp only
      cases hnames : loader.namesOf (session.unknownPaths package unit) with
      | error cause => exact hasked
      | ok found => exact hasked.trans (shows_naming hpackage hkept hnames)

theorem grounded_importTable (grounded : session.Grounded loader) (package : Package) (unit : Nat) :
    (after (importTable loader package unit) session).Grounded loader := by
  cases hkept : session.importTables.lookup (package.path, unit) with
  | some table => rwa [after_importTable_of_kept hkept]
  | none =>
      rw [after_importTable_of_new hkept]
      dsimp only
      cases hnames : loader.namesOf (session.unknownPaths package unit) with
      | error cause => exact ⟨grounded.path, grounded.name⟩
      | ok found =>
          refine ⟨grounded.path, fun {path name} hnew hname => ?_⟩
          simp only [naming, asking, List.lookup_append, lookup_found hnames,
            Option.or_eq_some_iff] at hname
          rcases hname with hname | ⟨-, hname⟩
          · split at hname
            · exact hname
            · cases hname
          · exact grounded.name hnew hname

/-! ## Every session is grounded -/

theorem grounded_empty (loader : Loader) : Session.empty.Grounded loader where
  path h := nomatch h
  name _ h := nomatch h

theorem Step.grounded (h : session.Step loader later) (keeps : loader.KeepsPaths)
    (grounded : session.Grounded loader) : later.Grounded loader := by
  cases h with
  | addPackage loaded => exact grounded_addPackage grounded loaded
  | package path => exact grounded_package keeps grounded path
  | importTable package unit => exact grounded_importTable grounded package unit
  | enter key => exact ⟨grounded.path, grounded.name⟩
  | leave key => exact ⟨grounded.path, grounded.name⟩
  | keep interface _ _ => exact ⟨grounded.path, grounded.name⟩

theorem Steps.grounded (h : Steps loader session later) (keeps : loader.KeepsPaths)
    (grounded : session.Grounded loader) : later.Grounded loader := by
  induction h with
  | refl => exact grounded
  | tail _ hstep ih => exact hstep.grounded keeps ih

/-! ## Calls that pass what the session shows -/

/-- The packages that a session shows itself, and nothing to add. -/
def own (loader : Loader) (session : Session) : Inputs where
  adds _ := False
  passes package := session.packageAt loader package.path = .ok package

/-- Calls over one loader that add nothing, and pass no package but those that the resolver hands out
itself. -/
abbrev Secluded (loader : Loader) : Session → Prop := Reached (· = loader) (own loader)

/-- The scope is one that the resolver hands out itself. -/
structure OwnScope (loader : Loader) (session : Session) (scope : Scope) : Prop where
  package : session.packageAt loader scope.package.path = .ok scope.package
  imports : session.tableAt loader scope.package scope.unit = some scope.imports

/-- A session on the way from `start`. -/
structure Viewing (loader : Loader) (start session : Session) : Prop where
  grounded : session.Grounded loader
  shows : Shows loader start session

theorem Viewing.refl (grounded : session.Grounded loader) : Viewing loader session session :=
  ⟨grounded, .refl _ _⟩

/-- What is kept of interfaces does not count. -/
theorem Viewing.congr (h : Viewing loader start session) (hpackages : later.packages = session.packages)
    (hnames : later.packageNames = session.packageNames)
    (htables : later.importTables = session.importTables) : Viewing loader start later := by
  cases later
  cases session
  subst hpackages hnames htables
  exact ⟨⟨h.grounded.path, h.grounded.name⟩, h.shows.packages, h.shows.names, h.shows.tables⟩

theorem Viewing.package (steady : loader.Steady) (h : Viewing loader start session)
    (path : String) : Viewing loader start (after (Resolution.package loader path) session) where
  grounded := grounded_package (fun _ _ => steady.path) h.grounded path
  shows := h.shows.trans (shows_package steady h.grounded path)

theorem Viewing.importTable (h : Viewing loader start session) {package : Package}
    (hpackage : start.packageAt loader package.path = .ok package) (unit : Nat) :
    Viewing loader start (after (Resolution.importTable loader package unit) session) where
  grounded := grounded_importTable h.grounded package unit
  shows := h.shows.trans (shows_importTable ((h.shows.packages _).trans hpackage) unit)

theorem Viewing.packageAt_of_answer (keeps : loader.KeepsPaths) (h : Viewing loader start session)
    {path : String} {package : Package}
    (hanswer : answer (Resolution.package loader path) session = .ok package) :
    package.path = path ∧ start.packageAt loader package.path = .ok package := by
  rw [answer_package keeps] at hanswer
  have hpath := h.grounded.path_of_packageAt keeps hanswer
  rw [hpath, ← h.shows.packages]
  exact ⟨rfl, hanswer⟩

end Session

namespace Resolution

open Session

variable {loader : Loader}

def showing (steady : loader.Steady) (start : Session) : Inheritance loader where
  good package := start.packageAt loader package.path = .ok package
  holds action := ∀ session, Viewing loader start session →
    Viewing loader start (after action session)
  pure _ _ h := h
  fail _ _ h := h
  bind h h' session hs := by
    rw [after_bind]
    split
    · exact h' _ _ (h _ hs)
    · exact h _ hs
  renamed _ h session hs := by
    rw [after_renamed]
    exact h _ hs
  get _ h := h
  package_bind {_ path _} h session hs := by
    have hpackage := hs.package steady path
    rw [after_bind]
    split
    · rename_i package hanswer
      exact h package (hs.packageAt_of_answer (fun _ _ => steady.path) hanswer).2 _ hpackage
    · exact hpackage
  importTable hgood unit _ hs := hs.importTable hgood unit
  unreadable _ _ _ h := h

theorem interfaceUpTo_shows (steady : loader.Steady) (start : Session) (bound : Nat)
    (path name : String) : (showing steady start).holds (interfaceUpTo loader bound path name) := by
  induction bound generalizing path name with
  | zero => exact fun _ h => h
  | succ bound ih =>
      intro session hs
      have hentered : Viewing loader start (entering session (path, name)) :=
        hs.congr rfl rfl rfl
      have hdeclared : Viewing loader start
          (after (declaredUpTo loader bound (path, name)) (entering session (path, name))) :=
        (showing steady start).declaredInterface ih path name _ hentered
      have hleaves := leaves_interfaceUpTo loader bound path name session
      generalize after (interfaceUpTo loader (bound + 1) path name) session = later at hleaves
      cases hleaves with
      | same => exact hs
      | broken _ _ _ => exact hdeclared
      | failed _ _ _ => exact hdeclared.congr rfl rfl rfl
      | kept _ _ _ => exact hdeclared.congr rfl rfl rfl

theorem ownScope_of_answer (steady : loader.Steady) {session : Session}
    (grounded : session.Grounded loader) {path : String} {unit : Nat} {held : Scope}
    (h : answer (scope loader path unit) session = .ok held) :
    (after (scope loader path unit) session).OwnScope loader held := by
  have keeps : loader.KeepsPaths := fun _ _ => steady.path
  have hscope : (showing steady session).holds (scope loader path unit) :=
    (showing steady session).scope path unit
  have hshows := (hscope session (.refl grounded)).shows
  obtain ⟨package, hpackage, h⟩ := exists_answer_of_bind h
  obtain ⟨table, htable, h⟩ := exists_answer_of_bind h
  cases h
  have hown := (Viewing.refl grounded).packageAt_of_answer keeps hpackage
  have hloaded := (Viewing.refl grounded).package steady path
  refine ⟨(hshows.packages _).trans hown.2, ?_⟩
  rw [hshows.tables hown.2, ← hloaded.shows.tables hown.2]
  exact answer_importTable_eq_ok_iff.mp htable

theorem Call.shows (steady : loader.Steady) {session : Session} (grounded : session.Grounded loader)
    {α : Type} {action : Resolution α} (h : Call loader (session.own loader) action) :
    Viewing loader session (after action session) := by
  have hadds (loaded : LoadedPackage) (h : (session.own loader).adds loaded) :
      (showing steady session).holds (Resolution.addPackage loaded) := h.elim
  exact (showing steady session).call (interfaceUpTo_shows steady session)
    (fun _ hpasses => hpasses) hadds h session (.refl grounded)

end Resolution

namespace Session

variable {loader : Loader} {session : Session}

theorem Reached.viewing (steady : loader.Steady) (h : session.Secluded loader) :
    Viewing loader .empty session := by
  induction h with
  | empty => exact .refl (grounded_empty loader)
  | @call session _ α action _ heq hcall _ ih =>
      subst heq
      obtain ⟨hgrounded, hshows⟩ := hcall.shows steady ih.grounded
      exact ⟨hgrounded, ih.shows.trans hshows⟩

theorem Reached.holds (steady : loader.Steady) (h : session.Secluded loader) {package : Package}
    (hpackage : session.packageAt loader package.path = .ok package) : loader.Holds package := by
  rw [(h.viewing steady).shows.packages] at hpackage
  exact hpackage

end Session

end GoTrace
