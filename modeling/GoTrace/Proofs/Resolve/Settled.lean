import GoTrace.Proofs.Resolve.Coherence

/-!
# Types do not depend on what is known

Constants, array lengths, types and methods are put together from packages and import tables, so each
has one answer in all coherent sessions of a loader. They fail in a few ways only.
-/

namespace GoTrace

/-- The failures of packages, and all others but reports of a cycle and of an exhausted bound. -/
structure Loader.Allows (loader : Loader) (accepts : ResolveFailure → Prop) : Prop where
  splitCharacter : accepts .splitCharacter
  error : ∀ {cause : ResolveError}, (∀ chain, cause ≠ .cyclicEmbed chain) → accepts (.error cause)
  parsed : ∀ {path failure}, loader.parsed path = .error failure → accepts failure

theorem Loader.allows_ne_exhausted (loader : Loader) : loader.Allows (· ≠ .exhausted) where
  splitCharacter := nofun
  error _ := nofun
  parsed {path _} h heq := loader.parsed_ne_exhausted path (heq ▸ h)

theorem Loader.Allows.tableOf {loader : Loader} {accepts : ResolveFailure → Prop}
    (allows : loader.Allows accepts) {package : Package} {unit : Nat} {failure : ResolveFailure}
    (h : loader.tableOf package unit = .error failure) : accepts failure := by
  unfold Loader.tableOf ImportTable.resolve Loader.namesOf NameSearch.result at h
  split at h
  · cases h
  · cases h
    exact allows.error nofun

namespace Resolution

variable {α β : Type} {loader : Loader} {accepts : ResolveFailure → Prop}

/-- The action has one answer in all coherent sessions, and `accepts` all its failures. -/
def SettledWithin (loader : Loader) (accepts : ResolveFailure → Prop) (action : Resolution α) :
    Prop :=
  ∃ result, Settles loader action result ∧ ∀ failure, result = .error failure → accepts failure

theorem settledWithin_pure (value : α) : SettledWithin loader accepts (pure value) :=
  ⟨_, settles_pure value, nofun⟩

theorem settledWithin_throw {failure : ResolveFailure} (h : accepts failure) :
    SettledWithin loader accepts (throw failure : Resolution α) := by
  refine ⟨_, settles_throw failure, fun other heq => ?_⟩
  rwa [← Except.error.inj heq]

theorem SettledWithin.bind {action : Resolution α} {next : α → Resolution β}
    (h : SettledWithin loader accepts action)
    (h' : ∀ value, Settles loader action (.ok value) → SettledWithin loader accepts (next value)) :
    SettledWithin loader accepts (action >>= next) := by
  obtain ⟨result, hresult, hfails⟩ := h
  cases result with
  | error failure =>
      refine ⟨_, hresult.bind_error, fun other heq => hfails other ?_⟩
      rw [Except.error.inj heq]
  | ok value =>
      obtain ⟨later, hlater, hfails⟩ := h' value hresult
      exact ⟨later, hresult.bind hlater, hfails⟩

/-- The action has one answer in all coherent sessions, and does not run out of a bound. -/
def Settled (loader : Loader) (action : Resolution α) : Prop :=
  ∃ result, Settles loader action result ∧ result ≠ .error .exhausted

theorem settled_iff {action : Resolution α} :
    Settled loader action ↔ SettledWithin loader (· ≠ .exhausted) action := by
  refine exists_congr fun result => and_congr_right fun _ => ?_
  refine ⟨fun h failure heq hexhausted => h (hexhausted ▸ heq), fun h heq => h _ heq rfl⟩

theorem settled_pure (value : α) : Settled loader (pure value) :=
  settled_iff.mpr (settledWithin_pure value)

theorem settled_fail (cause : ResolveError) :
    Settled loader (fail cause : Resolution α) :=
  settled_iff.mpr (settledWithin_throw nofun)

theorem Settled.bind {action : Resolution α} {next : α → Resolution β}
    (h : Settled loader action)
    (h' : ∀ value, Settles loader action (.ok value) → Settled loader (next value)) :
    Settled loader (action >>= next) :=
  settled_iff.mpr ((settled_iff.mp h).bind fun value hvalue => settled_iff.mp (h' value hvalue))

theorem Settles.unique {action : Resolution α} {first second : Except ResolveFailure α}
    (h : Settles loader action first) (h' : Settles loader action second) : first = second :=
  (h.answer (Session.coherent_empty loader)).symm.trans (h'.answer (Session.coherent_empty loader))

section

variable (allows : loader.Allows accepts)

include allows

theorem settledWithin_fail {cause : ResolveError} (h : ∀ chain, cause ≠ .cyclicEmbed chain) :
    SettledWithin loader accepts (fail cause : Resolution α) :=
  settledWithin_throw (allows.error h)

theorem packagePath_settledWithin (scope : Scope) (aliasName : String) :
    SettledWithin loader accepts (packagePath scope aliasName) := by
  unfold packagePath
  split
  · exact settledWithin_pure _
  · exact settledWithin_fail allows (by simp)

theorem package_settledWithin (steady : loader.Steady) (path : String) :
    SettledWithin loader accepts (package loader path) :=
  ⟨_, package_settles steady path, fun _ h => allows.parsed h⟩

theorem importTable_settledWithin {package : Package} (hpackage : loader.Holds package)
    (unit : Nat) : SettledWithin loader accepts (importTable loader package unit) :=
  ⟨_, importTable_settles hpackage unit, fun _ h => allows.tableOf h⟩

theorem SettledWithin.package_bind (steady : loader.Steady) {path : String}
    {next : Package → Resolution β}
    (h : ∀ package, loader.parsed path = .ok package → loader.Holds package →
      SettledWithin loader accepts (next package)) :
    SettledWithin loader accepts (package loader path >>= next) := by
  refine (package_settledWithin allows steady path).bind fun found hfound => ?_
  have hparsed := (package_settles steady path).unique hfound
  exact h found hparsed (steady.holds_of_parsed hparsed)

variable (steady : loader.Steady)

include steady

theorem constantUpTo_settledWithin (bound : Nat) {package : Package}
    (hpackage : loader.Holds package) (name : String) :
    SettledWithin loader accepts (constantUpTo loader bound package name) := by
  induction bound generalizing package name with
  | zero => exact settledWithin_fail allows (by simp)
  | succ bound ih =>
      unfold constantUpTo
      split
      · exact settledWithin_fail allows (by simp)
      · split
        · exact settledWithin_fail allows (by simp)
        · dsimp only
          split
          · exact settledWithin_pure _
          · exact settledWithin_throw allows.splitCharacter
          · split
            · exact ih hpackage _
            · refine (importTable_settledWithin allows hpackage _).bind fun imports _ => ?_
              refine (packagePath_settledWithin allows _ _).bind fun path _ => ?_
              exact .package_bind allows steady fun foreign _ hforeign => ih hforeign _
            · exact settledWithin_fail allows (by simp)

theorem constant_settledWithin {package : Package} (hpackage : loader.Holds package)
    (name : String) : SettledWithin loader accepts (constant loader package name) :=
  constantUpTo_settledWithin allows steady _ hpackage name

variable {scope : Scope} (hscope : loader.Holds scope.package)

include hscope

theorem arrayLength_settledWithin (length : ArrayLength) :
    SettledWithin loader accepts (arrayLength loader scope length) := by
  unfold arrayLength
  split
  · exact settledWithin_pure _
  · exact settledWithin_fail allows (by simp)
  · exact settledWithin_fail allows (by simp)
  · exact constant_settledWithin allows steady hscope _
  · refine (packagePath_settledWithin allows _ _).bind fun path _ => ?_
    exact .package_bind allows steady fun foreign _ hforeign =>
      constant_settledWithin allows steady hforeign _

omit steady hscope in
theorem namedType_settledWithin (scope : Scope) (package : Option String) (name : String) :
    SettledWithin loader accepts (namedType scope package name) := by
  unfold namedType
  split
  · split
    · exact settledWithin_pure _
    · exact settledWithin_fail allows (by simp)
  · exact settledWithin_pure _

set_option linter.unusedSectionVars false in
mutual

theorem type_settledWithin : (expr : TypeExpr) →
    SettledWithin loader accepts (type loader scope expr)
  | .name package name args => by
      unfold type
      split
      · exact namedType_settledWithin allows _ _ _
      · exact settledWithin_fail allows (by simp)
  | .pointer target => by
      unfold type
      exact (type_settledWithin target).bind fun _ _ => settledWithin_pure _
  | .slice element => by
      unfold type
      exact (type_settledWithin element).bind fun _ _ => settledWithin_pure _
  | .array length element => by
      unfold type
      exact (arrayLength_settledWithin allows steady hscope length).bind fun _ _ =>
        (type_settledWithin element).bind fun _ _ => settledWithin_pure _
  | .map key value => by
      unfold type
      exact (type_settledWithin key).bind fun _ _ =>
        (type_settledWithin value).bind fun _ _ => settledWithin_pure _
  | .chan direction element => by
      unfold type
      exact (type_settledWithin element).bind fun _ _ => settledWithin_pure _
  | .func ⟨params, results⟩ => by
      unfold type
      exact (parameters_settledWithin params).bind fun _ _ =>
        (parameters_settledWithin results).bind fun _ _ => settledWithin_pure _
  | .interface [] => by
      unfold type
      exact settledWithin_pure _
  | .interface (_ :: _) => by
      unfold type
      exact settledWithin_fail allows (by simp)
  | .struct [] => by
      unfold type
      exact settledWithin_pure _
  | .struct (_ :: _) => by
      unfold type
      exact settledWithin_fail allows (by simp)
  | .paren inner => by
      unfold type
      exact type_settledWithin inner
  | .ellipsis element => by
      unfold type
      exact (type_settledWithin element).bind fun _ _ => settledWithin_pure _

theorem parameters_settledWithin : (fields : List Field) →
    SettledWithin loader accepts (parameters loader scope fields)
  | [] => by
      unfold parameters
      exact settledWithin_pure _
  | ⟨names, fieldType, _, _⟩ :: rest => by
      unfold parameters
      exact (type_settledWithin fieldType).bind fun _ _ =>
        (parameters_settledWithin rest).bind fun _ _ => settledWithin_pure _

end

theorem method_settledWithin (name : String) (signature : Signature) :
    SettledWithin loader accepts (method loader scope name signature) := by
  unfold method
  exact (parameters_settledWithin allows steady hscope _).bind fun _ _ =>
    (parameters_settledWithin allows steady hscope _).bind fun _ _ => settledWithin_pure _

end

/-! ## No bound runs out -/

theorem packagePath_settled (scope : Scope) (aliasName : String) :
    Settled loader (packagePath scope aliasName) :=
  settled_iff.mpr (packagePath_settledWithin loader.allows_ne_exhausted scope aliasName)

theorem importTable_settled {package : Package} (hpackage : loader.Holds package) (unit : Nat) :
    Settled loader (importTable loader package unit) :=
  settled_iff.mpr (importTable_settledWithin loader.allows_ne_exhausted hpackage unit)

variable (steady : loader.Steady)

include steady

theorem package_settled (path : String) : Settled loader (package loader path) :=
  settled_iff.mpr (package_settledWithin loader.allows_ne_exhausted steady path)

theorem Settled.package_bind {path : String} {next : Package → Resolution β}
    (h : ∀ package, loader.parsed path = .ok package → loader.Holds package →
      Settled loader (next package)) :
    Settled loader (package loader path >>= next) :=
  settled_iff.mpr <| .package_bind loader.allows_ne_exhausted steady fun package hparsed hholds =>
    settled_iff.mp (h package hparsed hholds)

variable {scope : Scope} (hscope : loader.Holds scope.package)

include hscope

theorem type_settled (expr : TypeExpr) : Settled loader (type loader scope expr) :=
  settled_iff.mpr (type_settledWithin loader.allows_ne_exhausted steady hscope expr)

theorem method_settled (name : String) (signature : Signature) :
    Settled loader (method loader scope name signature) :=
  settled_iff.mpr (method_settledWithin loader.allows_ne_exhausted steady hscope name signature)

end Resolution

end GoTrace
