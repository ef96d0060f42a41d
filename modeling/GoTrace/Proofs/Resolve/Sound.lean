import GoTrace.Proofs.Resolve.Congruence

/-!
# Where kept interfaces come from

A session keeps an interface when its declaration has been resolved, and the declaration asked for
interfaces only that were kept before. So the kept interfaces, oldest first, are built one from the
others, and none of them has an interface below it that is still being resolved.
-/

namespace GoTrace

namespace Resolution

variable {α β : Type} {loader : Loader}

/-- A resolver that knows some interfaces and cannot find out more. -/
def oracle (kept : List (InterfaceKey × Interface)) (path name : String) : Resolution Interface :=
  match kept.lookup (path, name) with
  | some interface => pure interface
  | none => throw .exhausted

theorem lookup_of_answer_oracle {kept : List (InterfaceKey × Interface)} {session : Session}
    {path name : String} {interface : Interface}
    (h : answer (oracle kept path name) session = .ok interface) :
    kept.lookup (path, name) = some interface := by
  unfold oracle at h
  cases hlookup : kept.lookup (path, name) with
  | some found =>
      rw [hlookup] at h
      cases h
      rfl
  | none =>
      rw [hlookup] at h
      cases h

/-- Interfaces each of which is what its declaration gives from the ones after it. -/
inductive Built (loader : Loader) : List (InterfaceKey × Interface) → Prop
  | nil : Built loader []
  | cons {older : List (InterfaceKey × Interface)} {key : InterfaceKey} {interface : Interface} :
      Built loader older → older.lookup key = none →
        Settles loader (declaredInterface loader (oracle older) key.1 key.2) (.ok interface) →
          Built loader ((key, interface) :: older)

/-- An answer after which the resolver can be used again: a value or an error. -/
def Lasting : Except ResolveFailure α → Prop
  | .ok _ => True
  | .error (.error _) => True
  | .error _ => False

instance (result : Except ResolveFailure α) : Decidable (Lasting result) :=
  match result with
  | .ok _ => isTrue trivial
  | .error (.error _) => isTrue trivial
  | .error .splitCharacter => isFalse id
  | .error .exhausted => isFalse id

def Extends (first second : List (InterfaceKey × Interface)) : Prop :=
  ∀ key interface, first.lookup key = some interface → second.lookup key = some interface

theorem Extends.refl (kept : List (InterfaceKey × Interface)) : Extends kept kept := fun _ _ => id

theorem Extends.trans {first second third : List (InterfaceKey × Interface)}
    (h : Extends first second) (h' : Extends second third) : Extends first third :=
  fun _ _ hkept => h' _ _ (h _ _ hkept)

theorem Extends.cons {first second : List (InterfaceKey × Interface)} (h : Extends first second)
    {key : InterfaceKey} (hnew : first.lookup key = none) (interface : Interface) :
    Extends first ((key, interface) :: second) := by
  intro other found hfound
  have hne : (other == key) = false := by
    rw [beq_eq_false_iff_ne]
    intro heq
    rw [heq, hnew] at hfound
    cases hfound
  rw [List.lookup_cons, hne]
  exact h other found hfound

end Resolution

open Resolution

/-- A session in which exactly the interfaces of `stack` are being resolved. -/
structure Session.Sound (loader : Loader) (stack : List InterfaceKey) (session : Session) :
    Prop where
  coherent : session.Coherent loader
  built : Built loader session.interfaces
  resolving : session.resolving = stack
  apart : ∀ key ∈ stack, session.interfaces.lookup key = none

theorem Session.sound_empty (loader : Loader) : Session.empty.Sound loader [] where
  coherent := Session.coherent_empty loader
  built := .nil
  resolving := rfl
  apart := nofun

namespace Resolution

variable {α β : Type} {loader : Loader} {stack : List InterfaceKey}

theorem Settles.sound {action : Resolution α} {result : Except ResolveFailure α}
    (h : Settles loader action result) {session : Session} (hs : session.Sound loader stack) :
    (after action session).Sound loader stack where
  coherent := h.coherent hs.coherent
  built := by
    rw [h.interfaces hs.coherent]
    exact hs.built
  resolving := (h.resolving hs.coherent).trans hs.resolving
  apart := by
    rw [h.interfaces hs.coherent]
    exact hs.apart

theorem Settles.of_answer_ok {action : Resolution α} {result : Except ResolveFailure α}
    (h : Settles loader action result) {session : Session} (hs : session.Sound loader stack)
    {value : α} (hvalue : Resolution.answer action session = .ok value) :
    Settles loader action (.ok value) := by
  rw [h.answer hs.coherent] at hvalue
  exact hvalue ▸ h

/-- Whatever the action answers short of breaking off, the session stays sound and nothing that was
kept is lost. -/
def Keeps (loader : Loader) (stack : List InterfaceKey) (action : Resolution α) : Prop :=
  ∀ session : Session, session.Sound loader stack → Lasting (answer action session) →
    (after action session).Sound loader stack ∧
      Extends session.interfaces (after action session).interfaces

theorem Keeps.of_settles {action : Resolution α} {result : Except ResolveFailure α}
    (h : Settles loader action result) : Keeps loader stack action := by
  intro session hs _
  refine ⟨h.sound hs, ?_⟩
  rw [h.interfaces hs.coherent]
  exact Extends.refl _

theorem Keeps.of_settled {action : Resolution α} (h : Settled loader action) :
    Keeps loader stack action := by
  obtain ⟨result, hresult, -⟩ := h
  exact Keeps.of_settles hresult

theorem Keeps.bind {action : Resolution α} {next : α → Resolution β}
    (h : Keeps loader stack action)
    (h' : ∀ {value session}, session.Sound loader stack → answer action session = .ok value →
      Keeps loader stack (next value)) :
    Keeps loader stack (action >>= next) := by
  intro session hs hlasting
  have hafter := h session hs
  have hnext := fun value => @h' value session hs
  simp only [answer_bind, after_bind] at hlasting ⊢
  cases hresult : answer action session with
  | error failure =>
      simp only [hresult] at hafter hlasting
      exact hafter (by cases failure <;> exact hlasting)
  | ok value =>
      simp only [hresult] at hafter hlasting
      obtain ⟨hsound, hextends⟩ := hafter trivial
      obtain ⟨hsound', hextends'⟩ := hnext value hresult _ hsound hlasting
      exact ⟨hsound', hextends.trans hextends'⟩

theorem lasting_mapError {rename : ResolveError → ResolveError} {result : Except ResolveFailure α} :
    Lasting (result.mapError (Failure.map rename)) ↔ Lasting result := by
  cases result with
  | ok value => exact Iff.rfl
  | error failure => cases failure <;> exact Iff.rfl

theorem mapError_eq_ok {ε ε' : Type} {rename : ε → ε'} {result : Except ε α} {value : α} :
    result.mapError rename = .ok value ↔ result = .ok value := by
  cases result with
  | ok found => simp
  | error cause => simp

theorem lookup_of_answer_embeddedInterface {kept : List (InterfaceKey × Interface)}
    {session : Session} {path name declared : String} {interface : Interface}
    (h : answer (embeddedInterface (oracle kept) path name declared) session = .ok interface) :
    kept.lookup (path, name) = some interface := by
  rw [embeddedInterface_eq, answer_renamed] at h
  exact lookup_of_answer_oracle (mapError_eq_ok.mp h)

theorem Keeps.renamed {action : Resolution α} (h : Keeps loader stack action)
    (rename : ResolveError → ResolveError) : Keeps loader stack (renamed rename action) := by
  intro session hs hlasting
  rw [answer_renamed, lasting_mapError] at hlasting
  rw [after_renamed]
  exact h session hs hlasting

/-! ## Entering and leaving an interface -/

/-- The session while `key` is being resolved as well. -/
def entering (session : Session) (key : InterfaceKey) : Session :=
  { session with resolving := session.resolving ++ [key] }

/-- The session when `key` is not being resolved any longer. -/
def leaving (session : Session) (key : InterfaceKey) : Session :=
  { session with resolving := session.resolving.erase key }

theorem answer_whileResolving (key : InterfaceKey) (action : Resolution α) (session : Session) :
    answer (whileResolving key action) session = answer action (entering session key) := by
  simp only [whileResolving, answer_bind, answer_modify, after_modify, answer_tryCatch, after_bind,
    answer_pure]
  rw [← entering]
  cases hresult : answer action (entering session key) with
  | ok value => rfl
  | error failure => cases failure <;> simp [answer_bind]

theorem after_whileResolving (key : InterfaceKey) {action : Resolution α} {session : Session}
    (h : Lasting (answer action (entering session key))) :
    after (whileResolving key action) session =
      leaving (after action (entering session key)) key := by
  simp only [whileResolving, after_bind, answer_modify, after_modify, after_tryCatch, answer_bind,
    answer_pure, after_pure]
  rw [← entering]
  cases hresult : answer action (entering session key) with
  | ok value => rfl
  | error failure =>
      rw [hresult] at h
      cases failure with
      | error cause => simp [after_bind, leaving]
      | splitCharacter => cases h
      | exhausted => cases h

theorem entering_sound {session : Session} (hs : session.Sound loader stack)
    {key : InterfaceKey} (hnew : session.interfaces.lookup key = none) :
    (entering session key).Sound loader (stack ++ [key]) where
  coherent := ⟨hs.coherent.packages, hs.coherent.names, hs.coherent.tables⟩
  built := hs.built
  resolving := by rw [entering, hs.resolving]
  apart other hmem := by
    rcases List.mem_append.mp hmem with hmem | hmem
    · exact hs.apart other hmem
    · rw [List.mem_singleton.mp hmem]
      exact hnew

theorem leaving_sound {session : Session} {key : InterfaceKey}
    (hs : session.Sound loader (stack ++ [key])) (hkey : key ∉ stack) :
    (leaving session key).Sound loader stack where
  coherent := ⟨hs.coherent.packages, hs.coherent.names, hs.coherent.tables⟩
  built := hs.built
  resolving := by
    rw [leaving, hs.resolving, List.erase_append_right _ hkey]
    simp
  apart other hmem := hs.apart other (List.mem_append_left _ hmem)

/-! ## One more step of the bound -/

variable {session : Session} {path name : String} (bound : Nat)

theorem answer_interfaceUpTo_of_kept {interface : Interface}
    (h : session.interfaces.lookup (path, name) = some interface) :
    answer (interfaceUpTo loader (bound + 1) path name) session = .ok interface := by
  simp [interfaceUpTo, answer_bind, h]

theorem after_interfaceUpTo_of_kept {interface : Interface}
    (h : session.interfaces.lookup (path, name) = some interface) :
    after (interfaceUpTo loader (bound + 1) path name) session = session := by
  simp [interfaceUpTo, after_bind, h]

theorem answer_interfaceUpTo_of_cyclic (h : session.interfaces.lookup (path, name) = none)
    (hcyclic : (path, name) ∈ session.resolving) :
    answer (interfaceUpTo loader (bound + 1) path name) session =
      .error (.error (.cyclicEmbed (cycleFrom (path, name) session.resolving))) := by
  simp [interfaceUpTo, answer_bind, h, hcyclic]

theorem after_interfaceUpTo_of_cyclic (h : session.interfaces.lookup (path, name) = none)
    (hcyclic : (path, name) ∈ session.resolving) :
    after (interfaceUpTo loader (bound + 1) path name) session = session := by
  simp [interfaceUpTo, after_bind, h, hcyclic]

theorem answer_interfaceUpTo_of_new (h : session.interfaces.lookup (path, name) = none)
    (hnew : (path, name) ∉ session.resolving) :
    answer (interfaceUpTo loader (bound + 1) path name) session =
      answer (declaredInterface loader (interfaceUpTo loader bound) path name)
        (entering session (path, name)) := by
  simp [interfaceUpTo, answer_bind, answer_whileResolving, h, hnew]
  cases answer (declaredInterface loader (interfaceUpTo loader bound) path name)
    (entering session (path, name)) <;> rfl

theorem after_interfaceUpTo_of_new (h : session.interfaces.lookup (path, name) = none)
    (hnew : (path, name) ∉ session.resolving)
    (hlasting : Lasting (answer (declaredInterface loader (interfaceUpTo loader bound) path name)
      (entering session (path, name)))) :
    after (interfaceUpTo loader (bound + 1) path name) session =
      let later := leaving (after (declaredInterface loader (interfaceUpTo loader bound) path name)
        (entering session (path, name))) (path, name)
      match answer (declaredInterface loader (interfaceUpTo loader bound) path name)
        (entering session (path, name)) with
      | .ok interface => { later with interfaces := ((path, name), interface) :: later.interfaces }
      | .error _ => later := by
  simp [interfaceUpTo, after_bind, answer_whileResolving, after_whileResolving _ hlasting, h, hnew]
  cases answer (declaredInterface loader (interfaceUpTo loader bound) path name)
    (entering session (path, name)) <;> rfl

/-- An interface that resolves was kept, or is what its declaration gives. -/
theorem kept_or_declared_of_answer_interfaceUpTo {interface : Interface}
    (h : answer (interfaceUpTo loader (bound + 1) path name) session = .ok interface) :
    session.interfaces.lookup (path, name) = some interface ∨
      session.interfaces.lookup (path, name) = none ∧ (path, name) ∉ session.resolving ∧
        answer (declaredInterface loader (interfaceUpTo loader bound) path name)
          (entering session (path, name)) = .ok interface := by
  cases hlookup : session.interfaces.lookup (path, name) with
  | some kept =>
      rw [answer_interfaceUpTo_of_kept _ hlookup] at h
      exact .inl (congrArg some (Except.ok.inj h))
  | none =>
      by_cases hcyclic : (path, name) ∈ session.resolving
      · rw [answer_interfaceUpTo_of_cyclic _ hlookup hcyclic] at h
        cases h
      · rw [answer_interfaceUpTo_of_new _ hlookup hcyclic] at h
        exact .inr ⟨rfl, hcyclic, h⟩

/-! ## Kept interfaces are what their declarations give -/

/-- The action is sound, and `known` comes to its value when all is known that the action has left
behind. -/
structure Tracks (loader : Loader) (kept : List (InterfaceKey × Interface))
    (stack : List InterfaceKey) (action known : Resolution α) : Prop where
  keeps : Keeps loader stack action
  settles : ∀ {session value}, session.Sound loader stack → answer action session = .ok value →
    Extends (after action session).interfaces kept → Settles loader known (.ok value)

theorem Settles.renamed {action : Resolution α} {value : α} (h : Settles loader action (.ok value))
    (rename : ResolveError → ResolveError) :
    Settles loader (renamed rename action) (.ok value) where
  answer hs := by
    rw [answer_renamed, h.answer hs]
    rfl
  coherent hs := by
    rw [after_renamed]
    exact h.coherent hs
  interfaces hs := by
    rw [after_renamed]
    exact h.interfaces hs
  resolving hs := by
    rw [after_renamed]
    exact h.resolving hs

theorem Tracks.bind {kept : List (InterfaceKey × Interface)} {action known : Resolution α}
    {next next' : α → Resolution β} (h : Tracks loader kept stack action known)
    (h' : ∀ {value session}, session.Sound loader stack → answer action session = .ok value →
      Tracks loader kept stack (next value) (next' value)) :
    Tracks loader kept stack (action >>= next) (known >>= next') := by
  refine ⟨h.keeps.bind fun hs hvalue => (h' hs hvalue).keeps, ?_⟩
  intro session value hs hvalue hkept
  simp only [answer_bind, after_bind] at hvalue hkept
  split at hvalue
  · rename_i between hbetween
    simp only [hbetween] at hkept
    have hnext := h' hs hbetween
    obtain ⟨hsound, -⟩ := h.keeps _ hs (by rw [hbetween]; trivial)
    obtain ⟨-, hextends⟩ := hnext.keeps _ hsound (by rw [hvalue]; trivial)
    exact (h.settles hs hbetween (hextends.trans hkept)).bind (hnext.settles hsound hvalue hkept)
  · cases hvalue

theorem Tracks.of_settled {kept : List (InterfaceKey × Interface)} {action : Resolution α}
    (h : Settled loader action) : Tracks loader kept stack action action := by
  refine ⟨.of_settled h, ?_⟩
  obtain ⟨result, hresult, -⟩ := h
  exact fun hs hvalue _ => hresult.of_answer_ok hs hvalue

def tracking (loader : Loader) (kept : List (InterfaceKey × Interface))
    (stack : List InterfaceKey) : Congruence loader where
  rel action known := Tracks loader kept stack action known
  settled := .of_settled
  bind h h' := h.bind fun _ _ => h' _
  known h h' := by
    refine (Tracks.of_settled h).bind fun hs hvalue => h' _ ?_
    obtain ⟨result, hresult, -⟩ := h
    exact hresult.of_answer_ok hs hvalue
  renamed rename h := by
    refine ⟨h.keeps.renamed rename, ?_⟩
    intro session value hs hvalue hkept
    rw [answer_renamed] at hvalue
    rw [after_renamed] at hkept
    exact (h.settles hs (mapError_eq_ok.mp hvalue) hkept).renamed rename

theorem keep_sound {session : Session} (hs : session.Sound loader stack)
    {key : InterfaceKey} {interface : Interface} (hkey : key ∉ stack)
    (hnew : session.interfaces.lookup key = none)
    (hdeclared : Settles loader
      (declaredInterface loader (oracle session.interfaces) key.1 key.2) (.ok interface)) :
    Session.Sound loader stack
      { session with interfaces := (key, interface) :: session.interfaces } where
  coherent := ⟨hs.coherent.packages, hs.coherent.names, hs.coherent.tables⟩
  built := .cons hs.built hnew hdeclared
  resolving := hs.resolving
  apart other hmem := by
    have hne : (other == key) = false := by
      rw [beq_eq_false_iff_ne]
      exact fun heq => hkey (heq ▸ hmem)
    rw [List.lookup_cons, hne]
    exact hs.apart other hmem

variable (steady : loader.Steady)

include steady

theorem interfaceUpTo_tracks (kept : List (InterfaceKey × Interface)) (path name : String) :
    Tracks loader kept stack (interfaceUpTo loader bound path name) (oracle kept path name) := by
  induction bound generalizing kept stack path name with
  | zero => exact ⟨fun _ _ hlasting => (nomatch hlasting), fun _ hvalue => (nomatch hvalue)⟩
  | succ bound ih =>
      have hdeclared (kept stack) :=
        (tracking loader kept stack).declaredInterface steady path name fun _ => ih kept
      refine ⟨fun session hs hlasting => ?_, fun {session value} hs hvalue hkept => ?_⟩
      · cases hlookup : session.interfaces.lookup (path, name) with
        | some interface =>
            rw [after_interfaceUpTo_of_kept _ hlookup]
            exact ⟨hs, .refl _⟩
        | none =>
            by_cases hcyclic : (path, name) ∈ session.resolving
            · rw [after_interfaceUpTo_of_cyclic _ hlookup hcyclic]
              exact ⟨hs, .refl _⟩
            · have hkey : (path, name) ∉ stack := hs.resolving ▸ hcyclic
              rw [answer_interfaceUpTo_of_new _ hlookup hcyclic] at hlasting
              have hentering := entering_sound hs hlookup
              obtain ⟨hsound, hextends⟩ :=
                (hdeclared [] (stack ++ [(path, name)])).keeps _ hentering hlasting
              rw [after_interfaceUpTo_of_new _ hlookup hcyclic hlasting]
              have hleaving := leaving_sound hsound hkey
              dsimp only
              split
              · rename_i interface hanswer
                have hnew := hsound.apart (path, name) (by simp)
                refine ⟨keep_sound hleaving hkey hnew ?_, hextends.cons hlookup _⟩
                exact (hdeclared _ _).settles hentering hanswer (.refl _)
              · exact ⟨hleaving, hextends⟩
      · obtain hlookup | ⟨hlookup, hnew, hanswer⟩ := kept_or_declared_of_answer_interfaceUpTo _ hvalue
        · rw [after_interfaceUpTo_of_kept _ hlookup] at hkept
          rw [oracle, hkept _ _ hlookup]
          exact settles_pure _
        · rw [after_interfaceUpTo_of_new _ hlookup hnew (by rw [hanswer]; trivial)] at hkept
          simp only [hanswer] at hkept
          rw [oracle, hkept (path, name) value (by rw [List.lookup_cons_self])]
          exact settles_pure _

omit steady in
theorem answer_interface (path name : String) (session : Session) :
    answer (interface loader path name) session =
      answer (interfaceUpTo loader (depthBound loader session) path name) session := by
  simp only [interface, answer_bind, answer_get, after_get]

omit steady in
theorem after_interface (path name : String) (session : Session) :
    after (interface loader path name) session =
      after (interfaceUpTo loader (depthBound loader session) path name) session := by
  simp only [interface, after_bind, answer_get, after_get]

theorem interface_keeps (path name : String) :
    Keeps loader stack (interface loader path name) := by
  intro session hs hlasting
  rw [answer_interface] at hlasting
  rw [after_interface]
  exact (interfaceUpTo_tracks _ steady [] path name).keeps session hs hlasting

theorem kept_of_answer_interface {path name : String} {session : Session}
    (hs : session.Sound loader stack) {found : Interface}
    (h : answer (interface loader path name) session = .ok found) :
    (after (interface loader path name) session).Sound loader stack ∧
      (after (interface loader path name) session).interfaces.lookup (path, name) = some found := by
  obtain ⟨hsound, -⟩ := interface_keeps steady path name session hs (by rw [h]; trivial)
  refine ⟨hsound, ?_⟩
  rw [answer_interface] at h
  rw [after_interface]
  have horacle := (interfaceUpTo_tracks _ steady _ path name).settles hs h (.refl _)
  exact lookup_of_answer_oracle (horacle.answer hs.coherent)

end Resolution

end GoTrace
