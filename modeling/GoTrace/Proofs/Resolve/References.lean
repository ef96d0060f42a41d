import GoTrace.Proofs.Resolve.View
import Mathlib.Logic.Relation

/-!
# Which declarations refer to which

A declaration refers to the types that it embeds, or to the one that it names, as in `type R X`. Which
types these are is told by the import table of its file, so it depends on the session: on the packages
and tables that it keeps, and on those that its loader would give. What a session keeps stays, and with it
the references of the declarations whose package and table are there.
-/

namespace GoTrace

open Resolution Relation

/-- The declared type that a type expression of the scope is a name of. -/
inductive Scope.Names (scope : Scope) (type : TypeExpr) : InterfaceKey → Prop
  | own {name : String} : type.unparen = .name none name [] →
      (scope.package.findType name).isSome = true → Names scope type (scope.package.path, name)
  | imported {aliasName name path : String} : type.unparen = .name (some aliasName) name [] →
      scope.imports.pathOf aliasName = some path → Names scope type (path, name)

theorem Scope.Names.of_own {scope : Scope} {type : TypeExpr} {target : InterfaceKey}
    (h : scope.Names type target) {name : String} {args : List TypeExpr}
    (htype : type.unparen = .name none name args) :
    target = (scope.package.path, name) ∧ (scope.package.findType name).isSome = true := by
  cases h with
  | own htype' hfound =>
      cases htype.symm.trans htype'
      exact ⟨rfl, hfound⟩
  | imported htype' => cases htype.symm.trans htype'

theorem Scope.Names.of_imported {scope : Scope} {type : TypeExpr} {target : InterfaceKey}
    (h : scope.Names type target) {aliasName name path : String} {args : List TypeExpr}
    (htype : type.unparen = .name (some aliasName) name args)
    (hpath : scope.imports.pathOf aliasName = some path) : target = (path, name) := by
  cases h with
  | own htype' => cases htype.symm.trans htype'
  | imported htype' hpath' =>
      cases htype.symm.trans htype'
      cases hpath.symm.trans hpath'
      rfl

/-- No type that can be reached from `key` by references can be reached from itself again. -/
def AcyclicFrom (refers : InterfaceKey → InterfaceKey → Prop) (key : InterfaceKey) : Prop :=
  ∀ other, ReflTransGen refers key other → ¬ TransGen refers other other

theorem acyclicFrom_of_accessible {refers : InterfaceKey → InterfaceKey → Prop} {key : InterfaceKey}
    (h : Acc (flip refers) key) : AcyclicFrom refers key := by
  have hcycle {other : InterfaceKey} (h : Acc (TransGen (flip refers)) other) :
      ¬ TransGen (flip refers) other other := by
    induction h with
    | intro other _ ih => exact fun hself => ih other hself hself
  intro other hreach
  have hother : Acc (flip refers) other := by
    induction hreach with
    | refl => exact h
    | tail _ hrefers ih => exact ih.inv hrefers
  exact fun hself => hcycle hother.transGen (transGen_swap.mpr hself)

namespace Session

/-- The type `key` is declared by `spec`, and the scope is that of its file. -/
structure DeclaredBy (loader : Loader) (session : Session) (key : InterfaceKey) (scope : Scope)
    (spec : TypeSpec) : Prop where
  package : session.packageAt loader key.1 = .ok scope.package
  found : scope.package.findType key.2 = some (scope.unit, spec)
  imports : session.tableAt loader scope.package scope.unit = some scope.imports

/-- The declaration of the first type refers to the second. -/
inductive Refers (loader : Loader) (session : Session) (key target : InterfaceKey) : Prop
  /-- The declaration is an interface that embeds the second type. -/
  | embed {scope : Scope} {spec : TypeSpec} {elements : List Element} {type : TypeExpr}
      {span : Span} : session.DeclaredBy loader key scope spec →
        spec.type.unparen = .interface elements → .embed [⟨false, type⟩] span ∈ elements →
          scope.Names type target → Refers loader session key target
  | reference {scope : Scope} {spec : TypeSpec} : session.DeclaredBy loader key scope spec →
      scope.Names spec.type target → Refers loader session key target

variable {loader : Loader} {start session later : Session} {key target : InterfaceKey}

theorem Refers.imp (hdeclared : ∀ {scope spec}, session.DeclaredBy loader key scope spec →
    later.DeclaredBy loader key scope spec) (h : session.Refers loader key target) :
    later.Refers loader key target := by
  cases h with
  | embed h htype hmem hnames => exact .embed (hdeclared h) htype hmem hnames
  | reference h hnames => exact .reference (hdeclared h) hnames

theorem Refers.exists_declaredBy (h : session.Refers loader key target) :
    ∃ scope spec, session.DeclaredBy loader key scope spec := by
  cases h with
  | embed hdeclared => exact ⟨_, _, hdeclared⟩
  | reference hdeclared => exact ⟨_, _, hdeclared⟩

theorem DeclaredBy.unique {first second : Scope} {spec spec' : TypeSpec}
    (h : session.DeclaredBy loader key first spec) (h' : session.DeclaredBy loader key second spec') :
    first = second ∧ spec = spec' := by
  obtain ⟨package, unit, imports⟩ := first
  obtain ⟨package', unit', imports'⟩ := second
  obtain rfl : package = package' := Except.ok.inj (h.package.symm.trans h'.package)
  obtain ⟨rfl, rfl⟩ := Prod.mk.inj (Option.some.inj (h.found.symm.trans h'.found))
  obtain rfl : imports = imports' := Option.some.inj (h.imports.symm.trans h'.imports)
  exact ⟨rfl, rfl⟩

theorem Viewing.refers_iff (keeps : loader.KeepsPaths) (grounded : start.Grounded loader)
    (h : Viewing loader start session) :
    session.Refers loader key target ↔ start.Refers loader key target := by
  have hdeclared {scope : Scope} {spec : TypeSpec} :
      session.DeclaredBy loader key scope spec ↔ start.DeclaredBy loader key scope spec := by
    constructor
    · rintro ⟨hpackage, hfound, htable⟩
      rw [h.shows.packages] at hpackage
      refine ⟨hpackage, hfound, ?_⟩
      rwa [h.shows.tables (by rwa [grounded.path_of_packageAt keeps hpackage])] at htable
    · rintro ⟨hpackage, hfound, htable⟩
      refine ⟨(h.shows.packages _).trans hpackage, hfound, ?_⟩
      rwa [h.shows.tables (by rwa [grounded.path_of_packageAt keeps hpackage])]
  exact ⟨.imp hdeclared.mp, .imp hdeclared.mpr⟩

/-! ## Declarations that stay -/

/-- The package of the type is there, and the import table of its file. -/
def Firm (session : Session) (key : InterfaceKey) : Prop :=
  ∃ package, session.packages.lookup key.1 = some package ∧
    ∀ unit spec, package.findType key.2 = some (unit, spec) →
      ∃ table, session.importTables.lookup (package.path, unit) = some table

theorem Firm.of_changes (h : session.Firm key) (hchanges : Changes session later) :
    later.Firm key := by
  obtain ⟨package, hpackage, htables⟩ := h
  refine ⟨package, hchanges.lookup_packages hpackage, fun unit spec hfound => ?_⟩
  obtain ⟨table, htable⟩ := htables unit spec hfound
  exact ⟨table, hchanges.lookup_importTables htable⟩

theorem Firm.refers_of_changes (h : session.Firm key) (hchanges : Changes session later)
    (hrefers : later.Refers loader key target) : session.Refers loader key target := by
  obtain ⟨package, hpackage, htables⟩ := h
  refine hrefers.imp fun {scope spec} hdeclared => ?_
  have hshown := hdeclared.package
  rw [packageAt, hchanges.lookup_packages hpackage, Except.ok.injEq] at hshown
  subst hshown
  obtain ⟨table, htable⟩ := htables _ _ hdeclared.found
  have hlater := hdeclared.imports
  simp only [tableAt, hchanges.lookup_importTables htable] at hlater
  exact ⟨by rw [packageAt, hpackage], hdeclared.found, by simp only [tableAt, htable, hlater]⟩

/-- Everything that can be reached from the type by references is there, and no path of references goes
on for ever. -/
inductive Concluded (loader : Loader) (session : Session) : InterfaceKey → Prop
  | intro {key : InterfaceKey} : session.Firm key →
      (∀ target, session.Refers loader key target → Concluded loader session target) →
        Concluded loader session key

theorem Concluded.accessible (h : session.Concluded loader key) :
    Acc (flip (session.Refers loader)) key := by
  induction h with
  | intro _ _ ih => exact .intro _ ih

theorem Concluded.of_changes (h : session.Concluded loader key)
    (hchanges : Changes session later) : later.Concluded loader key := by
  induction h with
  | intro hfirm _ ih =>
      exact .intro (hfirm.of_changes hchanges) fun target hrefers =>
        ih target (hfirm.refers_of_changes hchanges hrefers)

def Conclusive (loader : Loader) (session : Session) : Prop :=
  ∀ ⦃key interface⦄, session.interfaces.lookup key = some interface →
    session.Concluded loader key

theorem Conclusive.of_changes (h : session.Conclusive loader) (hchanges : Changes session later)
    (hinterfaces : later.interfaces = session.interfaces) : later.Conclusive loader := by
  intro key interface hkept
  rw [hinterfaces] at hkept
  exact (h hkept).of_changes hchanges

end Session

end GoTrace
