import GoTrace.Proofs.Resolve.Legible
import GoTrace.Proofs.Resolve.Made

/-!
# Resolved interfaces are legible

Whatever was asked of a resolver, the interfaces that resolve have identifiers for the names of their
methods and parameters, and legible types, as the files that declare them have. A package may be added
under any name, and a type then belongs to a package of that name. When packages are called by their
package clauses, or are added under names that are identifiers, every package that an interface refers
to has an identifier for its name.
-/

namespace GoTrace

open Lexeme Resolution

/-! ## Methods -/

/-- A name in a resolved signature, with its package. -/
structure PackageRef.Names (package : Option PackageRef) (name : String) : Prop where
  identifier : IsIdentifier name
  bare : package = none → isExported name = false

theorem Scope.Gives.names {scope : Scope} {package : Option PackageRef} {name : String}
    (h : scope.Gives package name) : PackageRef.Names package name where
  identifier := h.identifier
  bare heq := by
    rcases h.source with hsource | ⟨aliasName, path, hsource, -⟩
    · rw [hsource] at heq
      split at heq
      · cases heq
      · rename_i hexported
        exact Bool.eq_false_iff.mpr hexported
    · rw [hsource] at heq
      cases heq

theorem Scope.Gives.isIdentifier_aliasName {scope : Scope} {package : PackageRef} {name : String}
    (h : scope.Gives (some package) name) (hscope : IsIdentifier scope.package.name) :
    IsIdentifier package.aliasName := by
  rcases h.source with hsource | ⟨aliasName, path, hsource, halias, -⟩
  · split at hsource
    · cases hsource
      exact hscope
    · cases hsource
  · cases hsource
    exact halias

/-- A method with identifiers for its names, whose types are legible. -/
structure Method.Legible (method : Method) : Prop where
  name : IsIdentifier method.name
  params : Descriptor.LegibleAll PackageRef.Names method.params
  results : Descriptor.LegibleAll PackageRef.Names method.results
  paramNames : ∀ param ∈ method.params, ∀ name, param.name = some name → IsIdentifier name

def Method.names (method : Method) : List (Option PackageRef × String) :=
  Descriptor.namesOfAll method.params ++ Descriptor.namesOfAll method.results

theorem Method.references_eq (method : Method) :
    method.references = method.names.filterMap (·.1) := by
  rw [Method.references, Method.names, List.filterMap_append, Descriptor.referencesOfAll_eq,
    Descriptor.referencesOfAll_eq]

/-- An interface with an identifier for its name, whose methods are legible. -/
structure Interface.Legible (interface : Interface) : Prop where
  name : IsIdentifier interface.name
  methods : ∀ method ∈ interface.methods.items, method.Legible

/-- The packages that an interface refers to: its own, and those of its methods. -/
def Interface.references (interface : Interface) : List PackageRef :=
  interface.package :: interface.methods.items.flatMap Method.references

namespace Resolution

variable {loader : Loader} {scope : Scope} {session : Session}

theorem isIdentifier_of_parameters {fields : List Field} (hfields : LegibleFields fields)
    {found : List Parameter} (h : answer (parameters loader scope fields) session = .ok found) :
    ∀ param ∈ found, ∀ name, param.name = some name → IsIdentifier name := by
  induction fields generalizing session found with
  | nil =>
      cases h
      exact nofun
  | cons field rest ih =>
      obtain ⟨names, fieldType, tag, span⟩ := field
      obtain ⟨descriptor, -, h⟩ := exists_answer_of_bind h
      obtain ⟨others, hothers, h⟩ := exists_answer_of_bind h
      cases h
      intro param hparam name hname
      rcases List.mem_append.mp hparam with hparam | hparam
      · unfold parametersOf at hparam
        split at hparam
        · obtain rfl := List.mem_singleton.mp hparam
          cases hname
        · obtain ⟨ident, hident, rfl⟩ := List.mem_map.mp hparam
          cases hname
          exact hfields.1 ident hident
      · exact ih hfields.2.2 hothers param hparam name hname

theorem gives_of_answer_method {name : String} {signature : Signature}
    (hsignature : signature.Legible) {found : Method}
    (h : answer (method loader scope name signature) session = .ok found) :
    Descriptor.LegibleAll scope.Gives found.params ∧
      Descriptor.LegibleAll scope.Gives found.results := by
  obtain ⟨params, hparams, h⟩ := exists_answer_of_bind h
  obtain ⟨results, hresults, h⟩ := exists_answer_of_bind h
  cases h
  exact ⟨legibleAll_of_parameters _ hsignature.1 hparams,
    legibleAll_of_parameters _ hsignature.2 hresults⟩

theorem legible_of_answer_method {name : String} (hname : IsIdentifier name)
    {signature : Signature} (hsignature : signature.Legible) {found : Method}
    (h : answer (method loader scope name signature) session = .ok found) : found.Legible := by
  obtain ⟨hparams, hresults⟩ := gives_of_answer_method hsignature h
  obtain ⟨params, hread, h⟩ := exists_answer_of_bind h
  obtain ⟨results, -, h⟩ := exists_answer_of_bind h
  cases h
  have hnames (package : Option PackageRef) (name : String) (hgives : scope.Gives package name) :
      PackageRef.Names package name := hgives.names
  exact ⟨hname, .imp hnames _ hparams, .imp hnames _ hresults,
    isIdentifier_of_parameters hsignature.1 hread⟩

theorem fitting_legible : Fitting Package.IsParsed Method.Legible where
  parsed := id
  error method hmethod := by
    rcases Roster.mem_of_mem_replace hmethod with rfl | hmethod
    · refine ⟨by decide, trivial, ⟨?_, trivial⟩, nofun⟩
      exact ⟨by decide, fun _ => by decide⟩
    · cases hmethod
  method _ _ hname hsignature h := legible_of_answer_method hname hsignature h

end Resolution

/-- An interface that a resolver gave, whatever it was asked before and whichever packages were added to
it. -/
def Interface.Resolved (interface : Interface) : Prop :=
  ∃ (loader : Loader) (session : Session) (path name : String),
    session.Reached (fun _ => True) (fun _ => .any) ∧
      answer (Resolution.interface loader path name) session = .ok interface

theorem Interface.Resolved.legible {interface : Interface} (h : interface.Resolved) :
    interface.Legible := by
  obtain ⟨loader, session, path, name, hsession, hanswer⟩ := h
  have hgives (loader : Loader) : loader.Gives Package.IsParsed :=
    fun _ loaded _ _ hparse => ⟨loaded, hparse⟩
  have hmade := hsession.madeOf fitting_legible (fun loader _ => hgives loader)
    fun {_ loaded _} _ hparse => ⟨loaded, hparse⟩
  have hfound := hmade.of_answer fitting_legible (hgives loader) hanswer
  exact ⟨hfound.name, hfound.methods⟩

/-! ## Names of packages -/

/-- Every package that the interface refers to has an identifier for its name. -/
def Interface.Named (interface : Interface) : Prop :=
  ∀ package ∈ interface.references, IsIdentifier package.aliasName

instance (interface : Interface) : Decidable interface.Named :=
  inferInstanceAs (Decidable (∀ package ∈ interface.references, IsIdentifier package.aliasName))

/-- The package is called by the first of its files with a package clause, and by its path when there is
none. -/
def LoadedPackage.Faithful (loaded : LoadedPackage) : Prop :=
  loaded.name = (packageNameOf (loaded.units.map (·.text))).getD (fallbackName loaded.path)

def Loader.Faithful (loader : Loader) : Prop :=
  ∀ ⦃path loaded⦄, loader.load path = .ok (some loaded) → loaded.Faithful

theorem Library.faithful (library : Library) : library.loader.Faithful := by
  intro path loaded h
  simp only [loader, Except.ok.injEq, Option.map_eq_some_iff] at h
  obtain ⟨units, -, rfl⟩ := h
  exact rfl

theorem isIdentifier_of_packageName {text name : String}
    (h : SourceFile.packageName text = .ok name) : IsIdentifier name := by
  unfold SourceFile.packageName at h
  cases hrun : Grammar.packageHeader.run ParseError.unnamedSource text with
  | error failure =>
      rw [hrun] at h
      cases h
  | ok ident =>
      rw [hrun] at h
      cases h
      have hheader : Parser.Yields Grammar.packageHeader fun ident => IsIdentifier ident.name :=
        .rule (.after fun _ => .after fun _ => .after fun _ => Grammar.packageClause_yields)
      exact hheader.of_run hrun

/-- A parsed package that has an identifier for its name, unless it has no files. -/
structure Package.Named (package : Package) : Prop where
  parsed : package.IsParsed
  name : package.units ≠ [] → IsIdentifier package.name

theorem LoadedPackage.Faithful.named {loaded : LoadedPackage} (faithful : loaded.Faithful)
    {package : Package} (hparse : Package.parse loaded = .ok package) : package.Named := by
  refine ⟨⟨loaded, hparse⟩, fun hunits => ?_⟩
  obtain ⟨file, hfile⟩ := List.exists_mem_of_ne_nil _ hunits
  obtain ⟨unit, hunit, hread⟩ := Package.exists_parse_of_mem hparse hfile
  have hsome : (packageNameOf (loaded.units.map (·.text))).isSome = true := by
    rw [packageNameOf, List.findSome?_isSome_iff]
    refine ⟨unit.text, List.mem_map_of_mem hunit, ?_⟩
    rw [SourceFile.packageName_of_parse hread]
    rfl
  obtain ⟨name, hname⟩ := Option.isSome_iff_exists.mp hsome
  obtain ⟨text, -, htext⟩ := List.exists_of_findSome?_eq_some hname
  have hpackage : package.name = name := by
    rw [(Package.parse_eq_ok hparse).2, faithful, hname]
    rfl
  rw [hpackage]
  cases hfound : SourceFile.packageName text with
  | error failure =>
      rw [hfound] at htext
      cases htext
  | ok found =>
      rw [hfound] at htext
      cases htext
      exact isIdentifier_of_packageName hfound

/-- The methods that are read in named packages refer to packages with identifiers for names. -/
theorem Resolution.fitting_named : Fitting Package.Named fun method =>
    ∀ package ∈ method.references, IsIdentifier package.aliasName where
  parsed := Package.Named.parsed
  error method hmethod := by
    rcases Roster.mem_of_mem_replace hmethod with rfl | hmethod
    · exact nofun
    · cases hmethod
  method {loader scope name signature session found} hscope hunits _ hsignature h package hmem := by
    obtain ⟨hparams, hresults⟩ := gives_of_answer_method hsignature h
    rw [Method.references_eq, List.mem_filterMap] at hmem
    obtain ⟨entry, hentry, hpackage⟩ := hmem
    obtain ⟨held, text⟩ := entry
    obtain rfl : held = some package := hpackage
    have hgives : scope.Gives (some package) text := by
      rcases List.mem_append.mp hentry with hentry | hentry
      · exact hparams.of_mem_names _ _ hentry
      · exact hresults.of_mem_names _ _ hentry
    exact hgives.isIdentifier_aliasName (hscope.name hunits)

/-- What may be passed to a resolver for its interfaces to refer to packages with identifiers for names:
any package to look into, and packages to add that are faithful or have such a name. -/
def Resolution.Inputs.named : Inputs :=
  ⟨fun loaded => loaded.Faithful ∨ IsIdentifier loaded.name, fun _ => True⟩

/-- As long as loaders give faithful packages, and only packages are added that are faithful or have an
identifier for a name, the packages that an interface refers to have identifiers for names. -/
theorem Session.Reached.named {session : Session}
    (h : session.Reached Loader.Faithful fun _ => .named) {loader : Loader}
    (faithful : loader.Faithful) {path name : String} {found : Interface}
    (hanswer : answer (interface loader path name) session = .ok found) : found.Named := by
  have hgives (loader : Loader) (faithful : loader.Faithful) : loader.Gives Package.Named :=
    fun _ _ _ hload hparse => (faithful hload).named hparse
  have hadds {loaded : LoadedPackage} {package : Package}
      (hadded : loaded.Faithful ∨ IsIdentifier loaded.name)
      (hparse : Package.parse loaded = .ok package) : package.Named := by
    rcases hadded with faithful | hname
    · exact faithful.named hparse
    · exact ⟨⟨loaded, hparse⟩, fun _ => (Package.parse_eq_ok hparse).2 ▸ hname⟩
  have hmade := h.madeOf fitting_named hgives hadds
  obtain ⟨-, ⟨package, hpackage, hunits, href⟩, hmethods⟩ :=
    hmade.of_answer fitting_named (hgives loader faithful) hanswer
  rw [Interface.Named, Interface.references, List.forall_mem_cons, href]
  refine ⟨hpackage.name hunits, fun other hother => ?_⟩
  obtain ⟨method, hmethod, hother⟩ := List.mem_flatMap.mp hother
  exact hmethods method hmethod other hother

end GoTrace
