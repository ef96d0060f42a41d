import GoTrace.Proofs.Resolve.Changes
import GoTrace.Proofs.Resolve.Operations

/-!
# Calls step by step

Whatever is asked of a resolver, it adds or loads packages, makes import tables, and enters, leaves
and keeps interfaces. So a session is reached by such steps after every call, and at every point
inside one.
-/

namespace GoTrace

open Resolution

namespace Session

/-- A step of a call over a loader. -/
inductive Step (loader : Loader) (session : Session) : Session → Prop
  | addPackage (loaded : LoadedPackage) : Step loader session (after (addPackage loaded) session)
  | package (path : String) : Step loader session (after (package loader path) session)
  | importTable (package : Package) (unit : Nat) :
      Step loader session (after (importTable loader package unit) session)
  | enter (key : InterfaceKey) : Step loader session (entering session key)
  | leave (key : InterfaceKey) : Step loader session (leaving session key)
  /-- An interface is kept under its name and the path of its package, which is there. -/
  | keep {path : String} {package : Package} (interface : Interface) :
      session.packages.lookup path = some package → interface.package = package.ref →
        Step loader session (session.keeping (path, interface.name) interface)

abbrev Steps (loader : Loader) : Session → Session → Prop := Relation.ReflTransGen (Step loader)

/-- Any number of steps, each over a loader of its own, so that a loader is not bound by what it told
before. -/
abbrev Leads : Session → Session → Prop :=
  Relation.ReflTransGen fun session later => ∃ loader : Loader,
    loader.KeepsPaths ∧ Step loader session later

variable {loader : Loader} {session later : Session}

theorem Step.changes (h : session.Step loader later) (keeps : loader.KeepsPaths) :
    Changes session later := by
  cases h with
  | addPackage loaded => exact changes_addPackage session loaded
  | package path => exact changes_package session keeps path
  | importTable package unit => exact changes_importTable session loader package unit
  | enter key => exact .single (.enter key)
  | leave key => exact .single (.leave key)
  | keep interface hpackage href => exact .single (.keep interface hpackage href)

theorem Leads.changes (h : Leads session later) : Changes session later := by
  induction h with
  | refl => exact .refl
  | tail _ hstep ih =>
      obtain ⟨loader, keeps, hstep⟩ := hstep
      exact ih.trans (hstep.changes keeps)

theorem Steps.leads (h : Steps loader session later) (keeps : loader.KeepsPaths) :
    Leads session later :=
  Relation.ReflTransGen.mono (fun _ _ hstep => ⟨loader, keeps, hstep⟩) _ _ h

end Session

namespace Resolution

variable {α : Type} {loader : Loader}

section

variable {session : Session}

/-! ## What interfaces leave behind when they break off -/

theorem after_whileResolving_of_broken (key : InterfaceKey) {action : Resolution α}
    (h : ¬ Lasting (answer action (entering session key))) :
    after (whileResolving key action) session = after action (entering session key) := by
  simp only [whileResolving, after_bind, answer_modify, after_modify, after_tryCatch, answer_bind,
    answer_pure, after_pure]
  rw [← entering]
  cases hresult : answer action (entering session key) with
  | ok value =>
      rw [hresult] at h
      exact absurd trivial h
  | error failure =>
      rw [hresult] at h
      cases failure with
      | error cause => exact absurd trivial h
      | splitCharacter => simp
      | exhausted => simp

theorem after_interfaceUpTo_of_broken (bound : Nat) {path name : String}
    (h : session.interfaces.lookup (path, name) = none) (hnew : (path, name) ∉ session.resolving)
    (hbroken : ¬ Lasting (answer
      (declaredInterface loader (interfaceUpTo loader bound) path name)
        (entering session (path, name)))) :
    after (interfaceUpTo loader (bound + 1) path name) session =
      after (declaredInterface loader (interfaceUpTo loader bound) path name)
        (entering session (path, name)) := by
  simp [interfaceUpTo, after_bind, answer_whileResolving, after_whileResolving_of_broken _ hbroken,
    h, hnew]
  cases hresult : answer (declaredInterface loader (interfaceUpTo loader bound) path name)
    (entering session (path, name)) with
  | ok value =>
      rw [hresult] at hbroken
      exact absurd trivial hbroken
  | error failure => rfl

/-- The declaration of an interface, with embeddings fewer than `bound` deep. -/
def declaredUpTo (loader : Loader) (bound : Nat) (key : InterfaceKey) : Resolution Interface :=
  declaredInterface loader (interfaceUpTo loader bound) key.1 key.2

/-- What asking for an interface can leave behind. -/
inductive Leaves (loader : Loader) (bound : Nat) (key : InterfaceKey) (session : Session) :
    Session → Prop
  | same : Leaves loader bound key session session
  | broken : session.interfaces.lookup key = none → key ∉ session.resolving →
      ¬ Lasting (answer (declaredUpTo loader bound key) (entering session key)) →
        Leaves loader bound key session
          (after (declaredUpTo loader bound key) (entering session key))
  | failed {cause : ResolveError} : session.interfaces.lookup key = none →
      key ∉ session.resolving →
        answer (declaredUpTo loader bound key) (entering session key) = .error (.error cause) →
          Leaves loader bound key session
            (leaving (after (declaredUpTo loader bound key) (entering session key)) key)
  | kept {interface : Interface} : session.interfaces.lookup key = none →
      key ∉ session.resolving →
        answer (declaredUpTo loader bound key) (entering session key) = .ok interface →
          Leaves loader bound key session
            ((leaving (after (declaredUpTo loader bound key) (entering session key)) key).keeping
              key interface)

theorem leaves_interfaceUpTo (loader : Loader) (bound : Nat) (path name : String)
    (session : Session) :
    Leaves loader bound (path, name) session
      (after (interfaceUpTo loader (bound + 1) path name) session) := by
  cases hlookup : session.interfaces.lookup (path, name) with
  | some interface =>
      rw [after_interfaceUpTo_of_kept _ hlookup]
      exact .same
  | none =>
      by_cases hcyclic : (path, name) ∈ session.resolving
      · rw [after_interfaceUpTo_of_cyclic _ hlookup hcyclic]
        exact .same
      · by_cases hlasting : Lasting (answer (declaredUpTo loader bound (path, name))
            (entering session (path, name)))
        · rw [after_interfaceUpTo_of_new _ hlookup hcyclic hlasting]
          cases hanswer : answer (declaredUpTo loader bound (path, name))
              (entering session (path, name)) with
          | ok interface =>
              simp only [declaredUpTo] at hanswer
              simp only [hanswer]
              exact .kept hlookup hcyclic hanswer
          | error failure =>
              rw [hanswer] at hlasting
              cases failure with
              | error cause =>
                  simp only [declaredUpTo] at hanswer
                  simp only [hanswer]
                  exact .failed hlookup hcyclic hanswer
              | splitCharacter => cases hlasting
              | exhausted => cases hlasting
        · rw [after_interfaceUpTo_of_broken _ hlookup hcyclic hlasting]
          exact .broken hlookup hcyclic hlasting

end

/-! ## Every call goes by steps -/

def stepping (loader : Loader) : Inheritance loader :=
  Progress.inheritance {
    rel := Session.Steps loader
    refl := fun _ => .refl
    trans := Relation.ReflTransGen.trans
    package := fun path _ => .single (.package path)
    importTable := fun package unit _ => .single (.importTable package unit) }

theorem step_keeping (keeps : loader.KeepsPaths)
    {resolve : String → String → Resolution Interface}
    (hresolve : ∀ path name, (stepping loader).holds (resolve path name)) {path name : String}
    {session : Session} {interface : Interface}
    (h : answer (declaredInterface loader resolve path name) session = .ok interface) :
    let later := leaving (after (declaredInterface loader resolve path name) session) (path, name)
    later.Step loader (later.keeping (path, name) interface) := by
  rw [declaredInterface_eq_bind] at h ⊢
  obtain ⟨package, hpackage, h⟩ := exists_answer_of_bind h
  obtain ⟨rfl, href⟩ := name_package_of_answer_declaredOf h
  refine .keep interface ?_ href
  have hsteps : (stepping loader).holds (declaredOf loader resolve path interface.name package) :=
    (stepping loader).declaredOf hresolve trivial path interface.name
  have hlookup := ((hsteps _).leads keeps).changes.lookup_packages
    (lookup_of_answer_package keeps hpackage)
  rw [after_bind, hpackage]
  exact hlookup

theorem interfaceUpTo_steps (keeps : loader.KeepsPaths) (bound : Nat) (path name : String) :
    (stepping loader).holds (interfaceUpTo loader bound path name) := by
  induction bound generalizing path name with
  | zero => exact fun _ => .refl
  | succ bound ih =>
      intro session
      have hdeclared : Session.Steps loader session
          (after (declaredUpTo loader bound (path, name)) (entering session (path, name))) :=
        (Relation.ReflTransGen.single (.enter (path, name))).trans
          ((stepping loader).declaredInterface ih path name _)
      have hleaves := leaves_interfaceUpTo loader bound path name session
      generalize after (interfaceUpTo loader (bound + 1) path name) session = later at hleaves
      cases hleaves with
      | same => exact .refl
      | broken _ _ _ => exact hdeclared
      | failed _ _ _ => exact hdeclared.tail (.leave (path, name))
      | kept _ _ hanswer =>
          exact (hdeclared.tail (.leave (path, name))).tail (step_keeping keeps ih hanswer)

theorem Call.steps {inputs : Inputs} {α : Type} {action : Resolution α}
    (h : Call loader inputs action) (keeps : loader.KeepsPaths) (session : Session) :
    Session.Steps loader session (after action session) :=
  (stepping loader).call (interfaceUpTo_steps keeps) (fun _ _ => trivial)
    (fun loaded _ _ => .single (.addPackage loaded)) h session

end Resolution

/-! ## What leaves interfaces alone -/

namespace Resolution

variable {α : Type} {loader : Loader}

theorem untouched_addPackage (loaded : LoadedPackage) (session : Session) :
    (after (addPackage loaded) session).interfaces = session.interfaces ∧
      (after (addPackage loaded) session).resolving = session.resolving := by
  cases hkept : session.packages.lookup loaded.path with
  | some package =>
      rw [after_addPackage_of_kept hkept]
      exact ⟨rfl, rfl⟩
  | none =>
      rw [after_addPackage_of_new hkept]
      split <;> exact ⟨rfl, rfl⟩

theorem untouched_package (keeps : loader.KeepsPaths) (path : String) (session : Session) :
    (after (package loader path) session).interfaces = session.interfaces ∧
      (after (package loader path) session).resolving = session.resolving := by
  cases hkept : session.packages.lookup path with
  | some package =>
      rw [after_package_of_kept hkept]
      exact ⟨rfl, rfl⟩
  | none =>
      rw [after_package_of_new keeps hkept]
      split <;> exact ⟨rfl, rfl⟩

theorem untouched_importTable (package : Package) (unit : Nat) (session : Session) :
    (after (importTable loader package unit) session).interfaces = session.interfaces ∧
      (after (importTable loader package unit) session).resolving = session.resolving := by
  cases hkept : session.importTables.lookup (package.path, unit) with
  | some table =>
      rw [after_importTable_of_kept hkept]
      exact ⟨rfl, rfl⟩
  | none =>
      rw [after_importTable_of_new hkept]
      dsimp only
      split <;> exact ⟨rfl, rfl⟩

def untouching (keeps : loader.KeepsPaths) : Inheritance loader :=
  Progress.inheritance {
    rel := fun session later =>
      later.interfaces = session.interfaces ∧ later.resolving = session.resolving
    refl := fun _ => ⟨rfl, rfl⟩
    trans := fun h h' => ⟨h'.1.trans h.1, h'.2.trans h.2⟩
    package := untouched_package keeps
    importTable := untouched_importTable }

end Resolution

/-! ## One call after the other -/

namespace Session

/-- Sessions that come about by calls which do not break off. Each call goes to one of the loaders, and
is given the inputs that the session admits. -/
inductive Reached (loaders : Loader → Prop) (inputs : Session → Inputs) : Session → Prop
  | empty : Reached loaders inputs .empty
  | call {session : Session} {loader : Loader} {α : Type} {action : Resolution α} :
      Reached loaders inputs session → loaders loader → Call loader (inputs session) action →
        Lasting (answer action session) → Reached loaders inputs (after action session)

theorem Reached.mono {loaders loaders' : Loader → Prop} {inputs inputs' : Session → Inputs}
    (hloaders : ∀ loader, loaders loader → loaders' loader)
    (hinputs : ∀ session, (inputs session).Within (inputs' session)) {session : Session}
    (h : Reached loaders inputs session) : Reached loaders' inputs' session := by
  induction h with
  | empty => exact .empty
  | @call session loader _ _ _ hloader hcall hlasting ih =>
      exact .call ih (hloaders loader hloader) (hcall.mono (hinputs session)) hlasting

/-- Any calls, each with a loader of its own. -/
abbrev Reachable : Session → Prop := Reached Loader.KeepsPaths fun _ => .any

/-- Any calls over one loader. -/
abbrev Used (loader : Loader) : Session → Prop := Reached (· = loader) fun _ => .any

end Session

end GoTrace
