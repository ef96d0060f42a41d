import GoTrace.Proofs.Resolve.Congruence

/-!
# What operations are made of

Operations ask for packages and import tables, go on with what they get, and rename errors. A property
that these few parts have and that is kept by putting them together holds of every operation below the
resolver of interfaces, and of that one by induction on its bound.
-/

namespace GoTrace

/-- The initialiser of some constant of the file, less parentheses, is a text whose first two bytes end
inside a character. -/
def SourceFile.Splits (file : SourceFile) : Prop :=
  ∃ spec ∈ file.constSpecs, ∃ name text, spec.valueOf name = some text ∧
    Literal.readInt (Constant.stripParens text.toList) = .splitCharacter

def ResolveError.isCycle : ResolveError → Bool
  | cyclicEmbed _ => true
  | _ => false

namespace Package

def Splits (package : Package) : Prop :=
  ∃ file ∈ package.units, file.Splits

theorem splits_of_findConst {package : Package} {name text : String} {unit : Nat} {spec : ConstSpec}
    (h : package.findConst name = some (unit, spec)) (htext : spec.valueOf name = some text)
    (hsplit : Literal.readInt (Constant.stripParens text.toList) = .splitCharacter) :
    package.Splits := by
  obtain ⟨file, hfile, hfind⟩ := exists_of_findInUnits h
  exact ⟨file, hfile, spec, List.mem_of_find?_eq_some hfind, name, text, htext, hsplit⟩

end Package

namespace Resolution

/-- What may be passed to a resolver. -/
structure Inputs where
  adds : LoadedPackage → Prop
  /-- The packages that may be looked into, by themselves or in a scope. -/
  passes : Package → Prop

def Inputs.any : Inputs := ⟨fun _ => True, fun _ => True⟩

/-- Any package to look into, and none to add. -/
def Inputs.unadded : Inputs := ⟨fun _ => False, fun _ => True⟩

/-- The calls that a resolver answers, as far as they are given such inputs. -/
inductive Call (loader : Loader) (inputs : Inputs) : {α : Type} → Resolution α → Prop
  | addPackage {loaded : LoadedPackage} :
      inputs.adds loaded → Call loader inputs (addPackage loaded)
  | package (path : String) : Call loader inputs (package loader path)
  | importTable {package : Package} (unit : Nat) :
      inputs.passes package → Call loader inputs (importTable loader package unit)
  | scope (path : String) (unit : Nat) : Call loader inputs (scope loader path unit)
  | resolvedPackage (path : String) : Call loader inputs (resolvedPackage loader path)
  | interface (path name : String) : Call loader inputs (interface loader path name)
  | parameters {scope : Scope} (fields : List Field) :
      inputs.passes scope.package → Call loader inputs (parameters loader scope fields)
  | type {scope : Scope} (expr : TypeExpr) :
      inputs.passes scope.package → Call loader inputs (type loader scope expr)

/-- Whatever may be passed by the one may be passed by the other. -/
structure Inputs.Within (inputs inputs' : Inputs) : Prop where
  adds : ∀ {loaded}, inputs.adds loaded → inputs'.adds loaded
  passes : ∀ {package}, inputs.passes package → inputs'.passes package

theorem Call.mono {loader : Loader} {inputs inputs' : Inputs} (h : inputs.Within inputs') {α : Type}
    {action : Resolution α} (hcall : Call loader inputs action) : Call loader inputs' action := by
  cases hcall with
  | addPackage hadds => exact .addPackage (h.adds hadds)
  | package path => exact .package path
  | importTable unit hpasses => exact .importTable unit (h.passes hpasses)
  | scope path unit => exact .scope path unit
  | resolvedPackage path => exact .resolvedPackage path
  | interface path name => exact .interface path name
  | parameters fields hpasses => exact .parameters fields (h.passes hpasses)
  | type expr hpasses => exact .type expr (h.passes hpasses)

abbrev Operation (loader : Loader) {α : Type} (action : Resolution α) : Prop :=
  Call loader .any action

/-- A property of resolutions that is inherited from their parts, as long as they only go through
packages that are `good`. -/
structure Inheritance (loader : Loader) where
  good : Package → Prop
  holds : ∀ {α : Type}, Resolution α → Prop
  pure : ∀ {α : Type} (value : α), holds (pure value)
  fail : ∀ {α : Type} {cause : ResolveError},
    cause.isCycle = false → holds (fail cause : Resolution α)
  bind : ∀ {α β : Type} {action : Resolution α} {next : α → Resolution β},
    holds action → (∀ value, holds (next value)) → holds (action >>= next)
  renamed : ∀ {α : Type} {action : Resolution α} {rename : ResolveError → ResolveError},
    (∀ cause, (rename cause).isCycle = cause.isCycle) → holds action → holds (renamed rename action)
  get : holds get
  package_bind : ∀ {α : Type} {path : String} {next : Package → Resolution α},
    (∀ package, good package → holds (next package)) → holds (package loader path >>= next)
  importTable : ∀ {package}, good package → ∀ unit, holds (importTable loader package unit)
  /-- The value of a constant that is neither a number nor a reference. -/
  unreadable : ∀ {α : Type} {package : Package}, good package → package.Splits →
    holds (throw .splitCharacter : Resolution α)

theorem memberError_isCycle (declared : String) (cause : ResolveError) :
    (memberError declared cause).isCycle = cause.isCycle := by
  cases cause <;> rfl

def declaredIn (loader : Loader) (resolve : String → String → Resolution Interface)
    (name : String) (scope : Scope) (spec : TypeSpec) : Resolution Interface :=
  match spec.type.unparen with
  | .interface elements =>
      return .new name scope.package.ref (← members loader resolve scope name elements)
  | .name qualifier target args => do
      let interface ← referenced resolve scope name qualifier target args
      return .new name scope.package.ref interface.methods
  | other => fail (.notAnInterface (scope.package.name ++ "." ++ name) other.kindName)

/-- What is left of a declaration when its package is there. -/
def declaredOf (loader : Loader) (resolve : String → String → Resolution Interface)
    (path name : String) (package : Package) : Resolution Interface :=
  match package.findType name with
  | none => fail (.unknownInterface name path)
  | some (unit, spec) =>
      if !spec.typeParams.isEmpty then
        fail (.unsupportedType (package.name ++ "." ++ name) "generic interfaces cannot be traced")
      else do
        let imports ← importTable loader package unit
        declaredIn loader resolve name ⟨package, unit, imports⟩ spec

theorem declaredInterface_eq_bind (loader : Loader)
    (resolve : String → String → Resolution Interface) (path name : String) :
    declaredInterface loader resolve path name =
      package loader path >>= declaredOf loader resolve path name := rfl

/-- A declaration that resolves is one, and its package and import table are there. -/
theorem exists_of_answer_declaredOf {loader : Loader}
    {resolve : String → String → Resolution Interface} {path name : String} {package : Package}
    {session : Session} {interface : Interface}
    (h : answer (declaredOf loader resolve path name package) session = .ok interface) :
    ∃ unit spec imports, package.findType name = some (unit, spec) ∧
      answer (importTable loader package unit) session = .ok imports ∧
      answer (declaredIn loader resolve name ⟨package, unit, imports⟩ spec)
        (after (importTable loader package unit) session) = .ok interface ∧
      after (declaredOf loader resolve path name package) session =
        after (declaredIn loader resolve name ⟨package, unit, imports⟩ spec)
          (after (importTable loader package unit) session) := by
  unfold declaredOf at h ⊢
  cases hfound : package.findType name with
  | none =>
      rw [hfound] at h
      cases h
  | some entry =>
      obtain ⟨unit, spec⟩ := entry
      simp only [hfound] at h ⊢
      split at h
      · cases h
      · rename_i hgeneric
        obtain ⟨imports, himports, h⟩ := exists_answer_of_bind h
        refine ⟨unit, spec, imports, rfl, himports, h, ?_⟩
        rw [if_neg hgeneric, after_bind, himports]

/-- What a declaration resolves to is called as it is declared, in the package of the declaration. -/
theorem name_package_of_answer_declaredOf {loader : Loader}
    {resolve : String → String → Resolution Interface} {path name : String} {package : Package}
    {session : Session} {interface : Interface}
    (h : answer (declaredOf loader resolve path name package) session = .ok interface) :
    interface.name = name ∧ interface.package = package.ref := by
  obtain ⟨unit, spec, imports, -, -, h, -⟩ := exists_of_answer_declaredOf h
  unfold declaredIn at h
  split at h
  · obtain ⟨methods, -, h⟩ := exists_answer_of_bind h
    cases h
    exact ⟨rfl, rfl⟩
  · obtain ⟨target, -, h⟩ := exists_answer_of_bind h
    cases h
    exact ⟨rfl, rfl⟩
  · cases h

namespace Inheritance

variable {loader : Loader} (inherits : Inheritance loader)

theorem package (path : String) : inherits.holds (package loader path) := by
  rw [← bind_pure (Resolution.package loader path)]
  exact inherits.package_bind fun _ _ => inherits.pure _

/-! ## Constants and types -/

theorem packagePath (scope : Scope) (aliasName : String) :
    inherits.holds (packagePath scope aliasName) := by
  unfold Resolution.packagePath
  split
  · exact inherits.pure _
  · exact inherits.fail rfl

theorem constantUpTo (bound : Nat) {package : Package} (hpackage : inherits.good package)
    (name : String) : inherits.holds (constantUpTo loader bound package name) := by
  induction bound generalizing package name with
  | zero => exact inherits.fail rfl
  | succ bound ih =>
      unfold Resolution.constantUpTo
      split
      · exact inherits.fail rfl
      · rename_i unit spec hfind
        split
        · exact inherits.fail rfl
        · rename_i text htext
          dsimp only
          split
          · exact inherits.pure _
          · rename_i hsplit
            exact inherits.unreadable hpackage (Package.splits_of_findConst hfind htext hsplit)
          · split
            · exact ih hpackage _
            · refine inherits.bind (inherits.importTable hpackage _) fun imports => ?_
              refine inherits.bind (inherits.packagePath _ _) fun path => ?_
              exact inherits.package_bind fun foreign hforeign => ih hforeign _
            · exact inherits.fail rfl

theorem arrayLength {scope : Scope} (hscope : inherits.good scope.package) (length : ArrayLength) :
    inherits.holds (arrayLength loader scope length) := by
  unfold Resolution.arrayLength
  split
  · exact inherits.pure _
  · exact inherits.fail rfl
  · exact inherits.fail rfl
  · exact inherits.constantUpTo _ hscope _
  · refine inherits.bind (inherits.packagePath _ _) fun path => ?_
    exact inherits.package_bind fun foreign hforeign => inherits.constantUpTo _ hforeign _

theorem namedType (scope : Scope) (package : Option String) (name : String) :
    inherits.holds (namedType scope package name) := by
  unfold Resolution.namedType
  split
  · split
    · exact inherits.pure _
    · exact inherits.fail rfl
  · exact inherits.pure _

section

variable {scope : Scope} (hscope : inherits.good scope.package)

include hscope

set_option linter.unusedSectionVars false in
mutual

theorem type : (expr : TypeExpr) → inherits.holds (type loader scope expr)
  | .name package name args => by
      unfold Resolution.type
      split
      · exact inherits.namedType _ _ _
      · exact inherits.fail rfl
  | .pointer target => by
      unfold Resolution.type
      exact inherits.bind (type target) fun _ => inherits.pure _
  | .slice element => by
      unfold Resolution.type
      exact inherits.bind (type element) fun _ => inherits.pure _
  | .array length element => by
      unfold Resolution.type
      refine inherits.bind (inherits.arrayLength hscope length) fun _ => ?_
      exact inherits.bind (type element) fun _ => inherits.pure _
  | .map key value => by
      unfold Resolution.type
      refine inherits.bind (type key) fun _ => ?_
      exact inherits.bind (type value) fun _ => inherits.pure _
  | .chan direction element => by
      unfold Resolution.type
      exact inherits.bind (type element) fun _ => inherits.pure _
  | .func ⟨params, results⟩ => by
      unfold Resolution.type
      refine inherits.bind (parameters params) fun _ => ?_
      exact inherits.bind (parameters results) fun _ => inherits.pure _
  | .interface [] => by
      unfold Resolution.type
      exact inherits.pure _
  | .interface (_ :: _) => by
      unfold Resolution.type
      exact inherits.fail rfl
  | .struct [] => by
      unfold Resolution.type
      exact inherits.pure _
  | .struct (_ :: _) => by
      unfold Resolution.type
      exact inherits.fail rfl
  | .paren inner => by
      unfold Resolution.type
      exact type inner
  | .ellipsis element => by
      unfold Resolution.type
      exact inherits.bind (type element) fun _ => inherits.pure _

theorem parameters : (fields : List Field) →
    inherits.holds (parameters loader scope fields)
  | [] => by
      unfold Resolution.parameters
      exact inherits.pure _
  | ⟨names, fieldType, _, _⟩ :: rest => by
      unfold Resolution.parameters
      refine inherits.bind (type fieldType) fun _ => ?_
      exact inherits.bind (parameters rest) fun _ => inherits.pure _

end

theorem method (name : String) (signature : Signature) :
    inherits.holds (method loader scope name signature) := by
  unfold Resolution.method
  refine inherits.bind (inherits.parameters hscope _) fun _ => ?_
  exact inherits.bind (inherits.parameters hscope _) fun _ => inherits.pure _

end

theorem scope (path : String) (unit : Nat) : inherits.holds (scope loader path unit) := by
  unfold Resolution.scope
  refine inherits.package_bind fun _ hpackage => ?_
  exact inherits.bind (inherits.importTable hpackage _) fun _ => inherits.pure _

/-! ## Interfaces, given the resolver of those they refer to -/

section

variable {resolve : String → String → Resolution Interface}
  (hresolve : ∀ path name, inherits.holds (resolve path name))

include hresolve

theorem embeddedInterface (path name interface : String) :
    inherits.holds (embeddedInterface resolve path name interface) := by
  rw [embeddedInterface_eq]
  exact inherits.renamed (memberError_isCycle _) (hresolve path name)

theorem embed (scope : Scope) (interface : String) (element : TypeExpr) :
    inherits.holds (embed loader resolve scope interface element) := by
  unfold Resolution.embed
  split
  · split
    · exact inherits.embeddedInterface hresolve _ _ _
    · split
      · exact inherits.pure _
      · split
        · exact inherits.fail rfl
        · exact inherits.fail rfl
  · refine inherits.bind (inherits.packagePath _ _) fun path => ?_
    refine inherits.bind (inherits.package path) fun foreign => ?_
    split
    · exact inherits.fail rfl
    · exact inherits.embeddedInterface hresolve _ _ _
  · exact inherits.fail rfl
  · exact inherits.fail rfl
  · exact inherits.fail rfl

theorem addElement {scope : Scope} (hscope : inherits.good scope.package) (interface : String)
    (methods : MethodSet) (element : Element) :
    inherits.holds (addElement loader resolve scope interface methods element) := by
  unfold Resolution.addElement
  split
  · exact inherits.bind (inherits.method hscope _ _) fun _ => inherits.pure _
  · exact inherits.bind (inherits.embed hresolve _ _ _) fun _ => inherits.pure _
  · exact inherits.fail rfl
  · exact inherits.fail rfl

theorem members {scope : Scope} (hscope : inherits.good scope.package) (interface : String)
    (elements : List Element) : inherits.holds (members loader resolve scope interface elements) := by
  unfold Resolution.members
  generalize Roster.empty = methods
  induction elements generalizing methods with
  | nil => exact inherits.pure _
  | cons element rest ih =>
      rw [List.foldlM_cons]
      exact inherits.bind (inherits.addElement hresolve hscope _ _ _) ih

theorem referenced (scope : Scope) (declared : String) (package : Option String) (name : String)
    (args : List TypeExpr) :
    inherits.holds (referenced resolve scope declared package name args) := by
  unfold Resolution.referenced
  split
  · exact inherits.fail rfl
  · split
    · exact inherits.bind (inherits.packagePath _ _) fun path => hresolve _ _
    · split
      · exact hresolve _ _
      · split
        · exact inherits.pure _
        · exact inherits.fail rfl

theorem declaredIn (name : String) {scope : Scope} (hscope : inherits.good scope.package)
    (spec : TypeSpec) : inherits.holds (declaredIn loader resolve name scope spec) := by
  unfold Resolution.declaredIn
  split
  · exact inherits.bind (inherits.members hresolve hscope _ _) fun methods => inherits.pure _
  · exact inherits.bind (inherits.referenced hresolve _ _ _ _ _) fun target => inherits.pure _
  · exact inherits.fail rfl

theorem declaredOf {package : Package} (hpackage : inherits.good package) (path name : String) :
    inherits.holds (declaredOf loader resolve path name package) := by
  unfold Resolution.declaredOf
  split
  · exact inherits.fail rfl
  · split
    · exact inherits.fail rfl
    · exact inherits.bind (inherits.importTable hpackage _) fun imports =>
        inherits.declaredIn hresolve name hpackage _

theorem declaredInterface (path name : String) :
    inherits.holds (declaredInterface loader resolve path name) := by
  rw [declaredInterface_eq_bind]
  exact inherits.package_bind fun package hpackage => inherits.declaredOf hresolve hpackage _ _

end

theorem mapM {α β : Type} {f : α → Resolution β} (h : ∀ value, inherits.holds (f value))
    (values : List α) : inherits.holds (values.mapM f) := by
  induction values with
  | nil => exact inherits.pure _
  | cons value rest ih =>
      rw [List.mapM_cons]
      exact inherits.bind (h value) fun _ => inherits.bind ih fun _ => inherits.pure _

theorem interface (h : ∀ bound path name, inherits.holds (interfaceUpTo loader bound path name))
    (path name : String) : inherits.holds (interface loader path name) :=
  inherits.bind inherits.get fun _ => h _ path name

theorem resolvedPackage (h : ∀ path name, inherits.holds (Resolution.interface loader path name))
    (path : String) : inherits.holds (resolvedPackage loader path) := by
  unfold Resolution.resolvedPackage
  refine inherits.bind (inherits.package path) fun package => ?_
  exact inherits.bind (inherits.mapM (fun name => h path name) _) fun _ => inherits.pure _

/-- Every call has the property when resolving interfaces has it, and its inputs do. -/
theorem call {inputs : Inputs}
    (h : ∀ bound path name, inherits.holds (interfaceUpTo loader bound path name))
    (hgood : ∀ package, inputs.passes package → inherits.good package)
    (hadd : ∀ loaded, inputs.adds loaded → inherits.holds (addPackage loaded)) {α : Type}
    {action : Resolution α} (hcall : Call loader inputs action) : inherits.holds action := by
  cases hcall with
  | addPackage hadds => exact hadd _ hadds
  | package path => exact inherits.package path
  | importTable unit hpasses => exact inherits.importTable (hgood _ hpasses) unit
  | scope path unit => exact inherits.scope path unit
  | resolvedPackage path => exact inherits.resolvedPackage (inherits.interface h) path
  | interface path name => exact inherits.interface h path name
  | parameters fields hpasses => exact inherits.parameters (hgood _ hpasses) fields
  | type expr hpasses => exact inherits.type (hgood _ hpasses) expr

end Inheritance

/-- A relation of the session before and the session after, which packages and import tables bring
about. -/
structure Progress (loader : Loader) where
  rel : Session → Session → Prop
  refl : ∀ session, rel session session
  trans : ∀ {first second third}, rel first second → rel second third → rel first third
  package : ∀ path session, rel session (after (package loader path) session)
  importTable : ∀ package unit session,
    rel session (after (importTable loader package unit) session)

/-- Operations bring the relation about when their parts do. -/
def Progress.inheritance {loader : Loader} (progress : Progress loader) : Inheritance loader where
  good _ := True
  holds action := ∀ session, progress.rel session (after action session)
  pure _ session := progress.refl session
  fail _ session := progress.refl session
  bind h h' session := by
    rw [after_bind]
    split
    · exact progress.trans (h session) (h' _ _)
    · exact h session
  renamed _ h session := by
    rw [after_renamed]
    exact h session
  get session := progress.refl session
  package_bind {_ path _} h session := by
    have hpackage := progress.package path session
    rw [after_bind]
    split
    · exact progress.trans hpackage (h _ trivial _)
    · exact hpackage
  importTable _ unit session := progress.importTable _ unit session
  unreadable _ _ session := progress.refl session

end Resolution

end GoTrace
