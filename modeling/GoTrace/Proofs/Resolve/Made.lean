import GoTrace.Proofs.Collection.Roster
import GoTrace.Proofs.Grammar.LegibleFile
import GoTrace.Proofs.Resolve.Depth

/-!
# What interfaces are made of

An interface that resolves is made of methods, and each of these was read in the package of some
declaration. When a resolver holds good packages only, and what is read in good packages fits, then the
methods of its interfaces fit, whatever was asked before and over whichever loaders.
-/

namespace GoTrace

open Lexeme Resolution

/-- The package is the parsed form of sources. -/
def Package.IsParsed (package : Package) : Prop := ∃ loaded, Package.parse loaded = .ok package

theorem Package.IsParsed.legible_of_findType {package : Package} (h : package.IsParsed)
    {name : String} {unit : Nat} {spec : TypeSpec}
    (hfound : package.findType name = some (unit, spec)) :
    package.units ≠ [] ∧ IsIdentifier name ∧ spec.type.Legible := by
  obtain ⟨loaded, hparse⟩ := h
  obtain ⟨file, hfile, hspec, rfl⟩ := Package.mem_typeSpecs_of_findType hfound
  obtain ⟨source, -, hread⟩ := Package.exists_parse_of_mem hparse hfile
  exact ⟨List.ne_nil_of_mem hfile, (SourceFile.legible_of_parse hread).typeSpecs hspec⟩

/-- Everything that the loader gives is a good package. -/
def Loader.Gives (loader : Loader) (good : Package → Prop) : Prop :=
  ∀ ⦃path loaded package⦄, loader.load path = .ok (some loaded) →
    Package.parse loaded = .ok package → good package

/-- The interface is called by an identifier, belongs to a good package, and has methods that fit. -/
structure Interface.MadeOf (good : Package → Prop) (fits : Method → Prop) (interface : Interface) :
    Prop where
  name : IsIdentifier interface.name
  package : ∃ package, good package ∧ package.units ≠ [] ∧ interface.package = package.ref
  methods : ∀ method ∈ interface.methods.items, fits method

/-- The session holds good packages, and interfaces with methods that fit. -/
structure Session.MadeOf (good : Package → Prop) (fits : Method → Prop) (session : Session) :
    Prop where
  packages : ∀ ⦃path package⦄, session.packages.lookup path = some package → good package
  interfaces : ∀ ⦃key interface⦄, session.interfaces.lookup key = some interface →
    interface.MadeOf good fits

/-- What is read in good packages fits. -/
structure Fitting (good : Package → Prop) (fits : Method → Prop) : Prop where
  parsed : ∀ {package}, good package → package.IsParsed
  error : ∀ method ∈ Interface.builtinError.methods.items, fits method
  method : ∀ {loader : Loader} {scope : Scope} {name : String} {signature : Signature}
    {session : Session} {found : Method}, good scope.package → scope.package.units ≠ [] →
      IsIdentifier name → signature.Legible →
        answer (method loader scope name signature) session = .ok found → fits found

namespace Resolution

variable {α β : Type} {good : Package → Prop} {fits : Method → Prop} {loader : Loader}

/-- The operation keeps what sessions are made of, and its values have the property. -/
def Makes (good : Package → Prop) (fits : Method → Prop) (property : α → Prop)
    (action : Resolution α) : Prop :=
  ∀ session : Session, session.MadeOf good fits → (after action session).MadeOf good fits ∧
    ∀ value, answer action session = .ok value → property value

namespace Makes

variable {property : α → Prop} {property' : β → Prop}

theorem pure {value : α} (h : property value) :
    Makes good fits property (pure value : Resolution α) :=
  fun _ hs => ⟨hs, fun _ heq => Except.ok.inj heq ▸ h⟩

theorem fail {cause : ResolveError} : Makes good fits property (fail cause : Resolution α) :=
  fun _ hs => ⟨hs, nofun⟩

theorem bind {action : Resolution α} {next : α → Resolution β}
    (h : Makes good fits property action)
    (h' : ∀ value, property value → Makes good fits property' (next value)) :
    Makes good fits property' (action >>= next) := by
  intro session hs
  obtain ⟨hkeeps, hgives⟩ := h session hs
  rw [after_bind, answer_bind]
  cases hanswer : answer action session with
  | error failure => exact ⟨hkeeps, nofun⟩
  | ok value => exact h' value (hgives value hanswer) _ hkeeps

theorem imp {stronger : α → Prop} {action : Resolution α} (h : Makes good fits stronger action)
    (himp : ∀ value, stronger value → property value) : Makes good fits property action :=
  fun session hs => ⟨(h session hs).1, fun value heq => himp value ((h session hs).2 value heq)⟩

theorem renamed {action : Resolution α} (h : Makes good fits property action)
    (rename : ResolveError → ResolveError) : Makes good fits property (renamed rename action) := by
  intro session hs
  rw [after_renamed, answer_renamed]
  exact ⟨(h session hs).1, fun value heq => (h session hs).2 value (mapError_eq_ok.mp heq)⟩

/-! ## Packages -/

theorem addPackage {loaded : LoadedPackage}
    (hgood : ∀ package, Package.parse loaded = .ok package → good package) :
    Makes good fits good (addPackage loaded) := by
  intro session hs
  cases hkept : session.packages.lookup loaded.path with
  | some found =>
      rw [after_addPackage_of_kept hkept, answer_addPackage_of_kept hkept]
      exact ⟨hs, fun _ heq => Except.ok.inj heq ▸ hs.packages hkept⟩
  | none =>
      rw [after_addPackage_of_new hkept, answer_addPackage_of_new hkept]
      refine ⟨?_, hgood⟩
      cases hparse : Package.parse loaded with
      | error failure => exact hs
      | ok package =>
          refine ⟨fun path found hlookup => ?_, hs.interfaces⟩
          rcases Session.lookup_adding_cases hlookup with ⟨-, rfl⟩ | hlookup
          · exact hgood _ hparse
          · exact hs.packages hlookup

theorem package (hloader : loader.Gives good) (path : String) :
    Makes good fits good (package loader path) := by
  intro session hs
  cases hkept : session.packages.lookup path with
  | some found =>
      rw [after_package_of_kept hkept, answer_package_of_kept hkept]
      exact ⟨hs, fun _ heq => Except.ok.inj heq ▸ hs.packages hkept⟩
  | none =>
      simp only [Resolution.package, answer_bind, after_bind, answer_get, after_get, hkept, record,
        answer_modify, after_modify]
      have hasked : (session.asking [.load path]).MadeOf good fits := ⟨hs.packages, hs.interfaces⟩
      cases hload : loader.load path with
      | error cause => exact fail _ hasked
      | ok found =>
          cases found with
          | none => exact fail _ hasked
          | some loaded => exact addPackage (fun _ => hloader hload) _ hasked

theorem importTable (package : Package) (unit : Nat) :
    Makes good fits (fun _ => True) (importTable loader package unit) := by
  intro session hs
  refine ⟨?_, fun _ _ => trivial⟩
  cases hkept : session.importTables.lookup (package.path, unit) with
  | some table => rwa [after_importTable_of_kept hkept]
  | none =>
      rw [after_importTable_of_new hkept]
      dsimp only
      split <;> exact ⟨hs.packages, hs.interfaces⟩

end Makes

/-- Operations keep what sessions are made of when their parts do. -/
def making (hloader : loader.Gives good) (fits : Method → Prop) : Inheritance loader :=
  Progress.inheritance {
    rel := fun session later => session.MadeOf good fits → later.MadeOf good fits
    refl := fun _ => id
    trans := fun h h' hs => h' (h hs)
    package := fun path session hs => (Makes.package hloader path session hs).1
    importTable := fun package unit session hs => (Makes.importTable package unit session hs).1 }

theorem Makes.of_keeps (hloader : loader.Gives good) {property : α → Prop} {action : Resolution α}
    (h : (making hloader fits).holds action)
    (hgives : ∀ session value, answer action session = .ok value → property value) :
    Makes good fits property action :=
  fun session hs => ⟨h session hs, hgives session⟩

/-! ## Interfaces -/

theorem packagePath_makes (scope : Scope) (aliasName : String) :
    Makes good fits (fun _ => True) (packagePath scope aliasName) := by
  unfold packagePath
  split
  · exact .pure trivial
  · exact .fail

section

variable (hfitting : Fitting good fits) (hloader : loader.Gives good)
  {resolve : String → String → Resolution Interface}
  (hresolve : ∀ path name, Makes good fits (Interface.MadeOf good fits) (resolve path name))
  {scope : Scope} (hscope : good scope.package) (hunits : scope.package.units ≠ [])

include hfitting hresolve

theorem referenced_makes (declared : String) (package : Option String) (name : String)
    (args : List TypeExpr) :
    Makes good fits (fun found => ∀ method ∈ found.methods.items, fits method)
      (referenced resolve scope declared package name args) := by
  have hresolved (path name : String) : Makes good fits
      (fun found => ∀ method ∈ found.methods.items, fits method) (resolve path name) :=
    (hresolve path name).imp fun _ hfound => hfound.methods
  unfold referenced
  split
  · exact .fail
  · split
    · exact (packagePath_makes scope _).bind fun path _ => hresolved path name
    · split
      · exact hresolved _ _
      · split
        · exact .pure hfitting.error
        · exact .fail

include hloader

theorem embed_makes (declared : String) (type : TypeExpr) :
    Makes good fits (fun found => ∀ method ∈ found.methods.items, fits method)
      (embed loader resolve scope declared type) := by
  have hembedded (path name : String) : Makes good fits
      (fun found => ∀ method ∈ found.methods.items, fits method)
      (embeddedInterface resolve path name declared) := by
    rw [embeddedInterface_eq]
    exact ((hresolve path name).renamed _).imp fun _ hfound => hfound.methods
  unfold embed
  split
  · split
    · exact hembedded _ _
    · split
      · exact .pure hfitting.error
      · split
        · exact .fail
        · exact .fail
  · refine (packagePath_makes scope _).bind fun path _ => ?_
    refine (Makes.package hloader path).bind fun foreign _ => ?_
    split
    · exact .fail
    · exact hembedded _ _
  · exact .fail
  · exact .fail
  · exact .fail

include hscope hunits

theorem addElement_makes (declared : String) {methods : MethodSet}
    (hmethods : ∀ method ∈ methods.items, fits method) {element : Element}
    (helement : element.Legible) :
    Makes good fits (fun later : MethodSet => ∀ method ∈ later.items, fits method)
      (addElement loader resolve scope declared methods element) := by
  unfold addElement
  split
  · rename_i name signature span
    have hmethod : Makes good fits fits (method loader scope name.name signature) :=
      .of_keeps hloader ((making hloader fits).method trivial name.name signature)
        fun _ _ h => hfitting.method hscope hunits helement.1 helement.2 h
    refine hmethod.bind fun own hown => .pure fun method hmem => ?_
    rcases Roster.mem_of_mem_replace hmem with rfl | hmem
    · exact hown
    · exact hmethods method hmem
  · refine (embed_makes hfitting hloader hresolve declared _).bind fun embedded hembedded =>
      .pure fun method hmem => ?_
    rcases Roster.mem_of_mem_foldl_addIfAbsent hmem with hmem | hmem
    · exact hmethods method hmem
    · exact hembedded method hmem
  · exact .fail
  · exact .fail

theorem members_makes (declared : String) {elements : List Element}
    (helements : LegibleElements elements) :
    Makes good fits (fun found : MethodSet => ∀ method ∈ found.items, fits method)
      (members loader resolve scope declared elements) := by
  have hstart : ∀ method ∈ (Roster.empty : MethodSet).items, fits method := nofun
  rw [legibleElements_iff] at helements
  unfold members
  generalize Roster.empty = start at hstart
  induction elements generalizing start with
  | nil => exact .pure hstart
  | cons element rest ih =>
      rw [List.foldlM_cons]
      obtain ⟨helement, hrest⟩ := List.forall_mem_cons.mp helements
      exact (addElement_makes hfitting hloader hresolve hscope hunits declared hstart helement).bind
        fun between hbetween => ih hrest between hbetween

theorem declaredIn_makes {name : String} (hname : IsIdentifier name) {spec : TypeSpec}
    (hspec : spec.type.Legible) :
    Makes good fits (Interface.MadeOf good fits) (declaredIn loader resolve name scope spec) := by
  have hunparen := hspec.unparen
  unfold declaredIn
  split
  · rename_i elements helements
    rw [helements] at hunparen
    exact (members_makes hfitting hloader hresolve hscope hunits name hunparen).bind
      fun methods hmethods => .pure ⟨hname, ⟨scope.package, hscope, hunits, rfl⟩, hmethods⟩
  · exact (referenced_makes hfitting hresolve name _ _ _).bind
      fun target hmethods => .pure ⟨hname, ⟨scope.package, hscope, hunits, rfl⟩, hmethods⟩
  · exact .fail

omit hscope hunits

theorem declaredInterface_makes (path name : String) :
    Makes good fits (Interface.MadeOf good fits) (declaredInterface loader resolve path name) := by
  rw [declaredInterface_eq_bind]
  refine (Makes.package hloader path).bind fun package hpackage => ?_
  unfold declaredOf
  split
  · exact .fail
  · rename_i unit spec hfound
    obtain ⟨hunits, hname, hspec⟩ := (hfitting.parsed hpackage).legible_of_findType hfound
    split
    · exact .fail
    · refine (Makes.importTable package unit).bind fun imports _ => ?_
      exact declaredIn_makes hfitting hloader hresolve hpackage hunits hname hspec

end

theorem interfaceUpTo_makes (hfitting : Fitting good fits) (hloader : loader.Gives good)
    (bound : Nat) (path name : String) :
    Makes good fits (Interface.MadeOf good fits) (interfaceUpTo loader bound path name) := by
  induction bound generalizing path name with
  | zero => exact fun _ hs => ⟨hs, nofun⟩
  | succ bound ih =>
      intro session hs
      have hentered : (entering session (path, name)).MadeOf good fits := ⟨hs.packages, hs.interfaces⟩
      obtain ⟨hdeclared, hfound⟩ :=
        declaredInterface_makes hfitting hloader ih path name _ hentered
      constructor
      · have hleaves := leaves_interfaceUpTo loader bound path name session
        generalize after (interfaceUpTo loader (bound + 1) path name) session = later at hleaves
        cases hleaves with
        | same => exact hs
        | broken _ _ _ => exact hdeclared
        | failed _ _ _ => exact ⟨hdeclared.packages, hdeclared.interfaces⟩
        | kept _ _ hanswer =>
            refine ⟨hdeclared.packages, fun key interface hlookup => ?_⟩
            simp only [Session.keeping, List.lookup_cons] at hlookup
            split at hlookup
            · cases hlookup
              exact hfound _ hanswer
            · exact hdeclared.interfaces hlookup
      · intro found h
        obtain hlookup | ⟨-, -, hanswer⟩ := kept_or_declared_of_answer_interfaceUpTo _ h
        · exact hs.interfaces hlookup
        · exact hfound found hanswer

end Resolution

namespace Session

variable {good : Package → Prop} {fits : Method → Prop} {loaders : Loader → Prop}
  {inputs : Session → Inputs} {session : Session}

theorem Reached.madeOf (hfitting : Fitting good fits)
    (hloaders : ∀ loader, loaders loader → loader.Gives good)
    (hadds : ∀ {session loaded package}, (inputs session).adds loaded →
      Package.parse loaded = .ok package → good package)
    (h : session.Reached loaders inputs) : session.MadeOf good fits := by
  induction h with
  | empty => exact ⟨nofun, nofun⟩
  | @call session loader _ _ _ hloader hcall _ ih =>
      have hgives := hloaders loader hloader
      refine (making hgives fits).call ?_ (fun _ _ => trivial) ?_ hcall session ih
      · exact fun bound path name session hs =>
          (interfaceUpTo_makes hfitting hgives bound path name session hs).1
      · exact fun loaded hadded session hs =>
          (Makes.addPackage (fun _ => hadds hadded) session hs).1

theorem MadeOf.of_answer (hs : session.MadeOf good fits) (hfitting : Fitting good fits)
    {loader : Loader} (hloader : loader.Gives good) {path name : String} {found : Interface}
    (h : answer (interface loader path name) session = .ok found) : found.MadeOf good fits := by
  rw [answer_interface] at h
  exact (interfaceUpTo_makes hfitting hloader _ path name session hs).2 found h

/-- Every package of the session is the parsed form of sources. -/
def Parsed (session : Session) : Prop :=
  ∀ ⦃path package⦄, session.packages.lookup path = some package → package.IsParsed

/-- Whatever is asked of a resolver, and whatever its loaders give, packages are parsed. -/
theorem Reached.parsed (h : session.Reached loaders inputs) : session.Parsed := by
  have hfitting : Fitting Package.IsParsed fun _ => True :=
    ⟨id, fun _ _ => trivial, fun _ _ _ _ _ => trivial⟩
  exact (h.madeOf hfitting (fun _ _ _ loaded _ _ hparse => ⟨loaded, hparse⟩)
    fun {_ loaded _} _ hparse => ⟨loaded, hparse⟩).packages

end Session

end GoTrace
