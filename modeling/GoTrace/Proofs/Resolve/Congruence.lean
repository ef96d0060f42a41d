import GoTrace.Proofs.Resolve.Settled

/-!
# What a declaration asks of other interfaces

Resolving a declaration meets other interfaces only through the resolver that it is given. A relation
between resolutions that is kept by the few ways in which a declaration is put together therefore
holds between a declaration under one resolver and under another as soon as it holds between the two
resolvers.
-/

namespace GoTrace

/-- The interface is declared: its package can be loaded and has a type of its name. -/
def Loader.Declares (loader : Loader) (key : InterfaceKey) : Prop :=
  ∃ package, loader.parsed key.1 = .ok package ∧ (package.findType key.2).isSome = true

namespace Resolution

variable {α β : Type} {loader : Loader}

def renamed (rename : ResolveError → ResolveError) (action : Resolution α) : Resolution α :=
  tryCatch action fun failure => throw (failure.map rename)

theorem answer_renamed (rename : ResolveError → ResolveError) (action : Resolution α)
    (session : Session) :
    answer (renamed rename action) session =
      (answer action session).mapError (Failure.map rename) := by
  rw [renamed, answer_tryCatch]
  cases answer action session <;> rfl

theorem after_renamed (rename : ResolveError → ResolveError) (action : Resolution α)
    (session : Session) : after (renamed rename action) session = after action session := by
  rw [renamed, after_tryCatch]
  cases answer action session <;> rfl

/-- A relation between resolutions that declarations keep. -/
structure Congruence (loader : Loader) where
  rel : ∀ {α : Type}, Resolution α → Resolution α → Prop
  settled : ∀ {α : Type} {action : Resolution α}, Settled loader action → rel action action
  bind : ∀ {α β : Type} {first second : Resolution α} {next next' : α → Resolution β},
    rel first second → (∀ value, rel (next value) (next' value)) →
      rel (first >>= next) (second >>= next')
  known : ∀ {α β : Type} {action : Resolution α} {next next' : α → Resolution β},
    Settled loader action →
      (∀ value, Settles loader action (.ok value) → rel (next value) (next' value)) →
        rel (action >>= next) (action >>= next')
  renamed : ∀ {α : Type} {first second : Resolution α} (rename : ResolveError → ResolveError),
    rel first second → rel (renamed rename first) (renamed rename second)

/-- How an error of an embedded interface is told: what is no interface cannot be a member. -/
def memberError (interface : String) : ResolveError → ResolveError
  | .notAnInterface member kind => .unsupportedMember s!"{member} ({kind})" interface
  | cause => cause

theorem embeddedInterface_eq (resolve : String → String → Resolution Interface)
    (path name interface : String) :
    embeddedInterface resolve path name interface =
      renamed (memberError interface) (resolve path name) := by
  unfold embeddedInterface renamed
  congr 1
  funext failure
  cases failure with
  | error cause => cases cause <;> rfl
  | splitCharacter => rfl
  | exhausted => rfl

namespace Congruence

variable (congruence : Congruence loader) (steady : loader.Steady)
  {resolve resolve' : String → String → Resolution Interface}
  (hresolve : ∀ path name, congruence.rel (resolve path name) (resolve' path name))

include hresolve in
theorem embeddedInterface (path name interface : String) :
    congruence.rel (embeddedInterface resolve path name interface)
      (embeddedInterface resolve' path name interface) := by
  rw [embeddedInterface_eq, embeddedInterface_eq]
  exact congruence.renamed _ (hresolve path name)

include steady hresolve

theorem embed (scope : Scope) (interface : String) (element : TypeExpr) :
    congruence.rel (embed loader resolve scope interface element)
      (embed loader resolve' scope interface element) := by
  unfold Resolution.embed
  split
  · split
    · exact congruence.embeddedInterface hresolve _ _ _
    · split
      · exact congruence.settled (settled_pure _)
      · split
        · exact congruence.settled (settled_fail _)
        · exact congruence.settled (settled_fail _)
  · refine congruence.known (packagePath_settled _ _) fun path _ => ?_
    refine congruence.known (package_settled steady path) fun foreign _ => ?_
    split
    · exact congruence.settled (settled_fail _)
    · exact congruence.embeddedInterface hresolve _ _ _
  · exact congruence.settled (settled_fail _)
  · exact congruence.settled (settled_fail _)
  · exact congruence.settled (settled_fail _)

theorem addElement {scope : Scope} (hscope : loader.Holds scope.package) (interface : String)
    (methods : MethodSet) (element : Element) :
    congruence.rel (addElement loader resolve scope interface methods element)
      (addElement loader resolve' scope interface methods element) := by
  unfold Resolution.addElement
  split
  · exact congruence.settled ((method_settled steady hscope _ _).bind fun _ _ => settled_pure _)
  · refine congruence.bind (congruence.embed steady hresolve _ _ _) fun embedded => ?_
    exact congruence.settled (settled_pure _)
  · exact congruence.settled (settled_fail _)
  · exact congruence.settled (settled_fail _)

theorem members {scope : Scope} (hscope : loader.Holds scope.package) (interface : String)
    (elements : List Element) :
    congruence.rel (members loader resolve scope interface elements)
      (members loader resolve' scope interface elements) := by
  unfold Resolution.members
  generalize Roster.empty = methods
  induction elements generalizing methods with
  | nil => exact congruence.settled (settled_pure _)
  | cons element rest ih =>
      rw [List.foldlM_cons, List.foldlM_cons]
      exact congruence.bind (congruence.addElement steady hresolve hscope _ _ _) ih

omit steady in
theorem referenced (scope : Scope) (declared : String) (package : Option String) (name : String)
    (args : List TypeExpr) :
    congruence.rel (referenced resolve scope declared package name args)
      (referenced resolve' scope declared package name args) := by
  unfold Resolution.referenced
  split
  · exact congruence.settled (settled_fail _)
  · split
    · exact congruence.known (packagePath_settled _ _) fun path _ => hresolve _ _
    · split
      · exact hresolve _ _
      · split
        · exact congruence.settled (settled_pure _)
        · exact congruence.settled (settled_fail _)

omit hresolve in
/-- A declaration under one resolver and under another. Where nothing is declared, no resolver is
asked. -/
theorem declaredInterface (path name : String)
    (hresolve : loader.Declares (path, name) →
      ∀ path name, congruence.rel (resolve path name) (resolve' path name)) :
    congruence.rel (declaredInterface loader resolve path name)
      (declaredInterface loader resolve' path name) := by
  unfold Resolution.declaredInterface
  refine congruence.known (package_settled steady path) fun package hpackage => ?_
  have hparsed := (package_settles steady path).unique hpackage
  have hholds := steady.holds_of_parsed hparsed
  split
  · exact congruence.settled (settled_fail _)
  · rename_i unit spec hfound
    have hresolve := hresolve ⟨package, hparsed, by rw [hfound]; rfl⟩
    split
    · exact congruence.settled (settled_fail _)
    · refine congruence.known (importTable_settled hholds unit) fun imports _ => ?_
      dsimp only
      split
      · refine congruence.bind (congruence.members steady hresolve hholds _ _) fun methods => ?_
        exact congruence.settled (settled_pure _)
      · refine congruence.bind (congruence.referenced hresolve _ _ _ _ _) fun interface => ?_
        exact congruence.settled (settled_pure _)
      · exact congruence.settled (settled_fail _)

end Congruence

end Resolution

end GoTrace
