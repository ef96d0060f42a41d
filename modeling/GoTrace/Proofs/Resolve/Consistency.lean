import GoTrace.Proofs.Resolve.Sound

/-!
# Answers do not depend on what is kept

Two sound sessions that are resolving the same interfaces may have kept different ones. A resolution
answers the same in both, unless it runs out of its bound in one of them: an interface that is kept
was built from interfaces that are not being resolved, so resolving it again cannot meet the cycle
check.
-/

namespace GoTrace.Resolution

variable {α β : Type} {loader : Loader} {stack : List InterfaceKey}

/-- The two actions answer the same wherever they end. -/
structure Consistent (loader : Loader) (stack : List InterfaceKey) (first second : Resolution α) :
    Prop where
  keeps : Keeps loader stack first
  keeps' : Keeps loader stack second
  answer : ∀ {session session'}, session.Sound loader stack → session'.Sound loader stack →
    answer first session ≠ .error .exhausted → answer second session' ≠ .error .exhausted →
      answer first session = answer second session'

theorem mapError_ne_exhausted {rename : ResolveError → ResolveError}
    {result : Except ResolveFailure α} :
    result.mapError (Failure.map rename) ≠ .error .exhausted ↔ result ≠ .error .exhausted := by
  cases result with
  | ok value => simp
  | error failure => cases failure <;> simp [Failure.map]

theorem Consistent.bind {first second : Resolution α} {next next' : α → Resolution β}
    (h : Consistent loader stack first second)
    (h' : ∀ {value session}, session.Sound loader stack →
      (Resolution.answer first session = .ok value ∨ Resolution.answer second session = .ok value) →
        Consistent loader stack (next value) (next' value)) :
    Consistent loader stack (first >>= next) (second >>= next') := by
  refine ⟨h.keeps.bind fun hs hvalue => (h' hs (.inl hvalue)).keeps,
    h.keeps'.bind fun hs hvalue => (h' hs (.inr hvalue)).keeps', ?_⟩
  intro session session' hs hs' hends hends'
  have hsame := h.answer hs hs'
  simp only [answer_bind] at hends hends' ⊢
  have hfirst : Resolution.answer first session ≠ .error .exhausted := by
    intro heq
    simp [heq] at hends
  have hsecond : Resolution.answer second session' ≠ .error .exhausted := by
    intro heq
    simp [heq] at hends'
  replace hsame := hsame hfirst hsecond
  rw [← hsame] at hends' ⊢
  cases hvalue : Resolution.answer first session with
  | error failure => rfl
  | ok value =>
      rw [hvalue] at hsame
      simp only [hvalue] at hends hends'
      obtain ⟨hsound, -⟩ := h.keeps _ hs (by rw [hvalue]; trivial)
      obtain ⟨hsound', -⟩ := h.keeps' _ hs' (by rw [← hsame]; trivial)
      exact (h' hs (.inl hvalue)).answer hsound hsound' hends hends'

theorem Consistent.of_settled {action : Resolution α} (h : Settled loader action) :
    Consistent loader stack action action := by
  refine ⟨.of_settled h, .of_settled h, ?_⟩
  obtain ⟨result, hresult, -⟩ := h
  intro session session' hs hs' _ _
  rw [hresult.answer hs.coherent, hresult.answer hs'.coherent]

/-- Declarations are consistent when the resolvers are that they are given. -/
def consistency (loader : Loader) (stack : List InterfaceKey) : Congruence loader where
  rel first second := Consistent loader stack first second
  settled := .of_settled
  bind h h' := h.bind fun _ _ => h' _
  known h h' := by
    refine (Consistent.of_settled h).bind fun hs hvalue => h' _ ?_
    obtain ⟨result, hresult, -⟩ := h
    exact hresult.of_answer_ok hs (hvalue.elim id id)
  renamed rename h := by
    refine ⟨h.keeps.renamed rename, h.keeps'.renamed rename, ?_⟩
    intro session session' hs hs' hends hends'
    rw [answer_renamed, mapError_ne_exhausted] at hends hends'
    rw [answer_renamed, answer_renamed, h.answer hs hs' hends hends']

/-! ## Kept interfaces -/

theorem oracle_keeps (kept : List (InterfaceKey × Interface)) (path name : String) :
    Keeps loader stack (oracle kept path name) := by
  intro session hs hlasting
  unfold oracle at hlasting ⊢
  cases hlookup : kept.lookup (path, name) with
  | some interface => exact ⟨hs, .refl _⟩
  | none =>
      rw [hlookup] at hlasting
      cases hlasting

/-- Each of the interfaces is what its declaration gives from some that are older. -/
theorem Built.exists_older {kept : List (InterfaceKey × Interface)} (h : Built loader kept)
    {key : InterfaceKey} {interface : Interface} (hkept : kept.lookup key = some interface) :
    ∃ older, Built loader older ∧ older.lookup key = none ∧ Extends older kept ∧
      Settles loader (declaredInterface loader (oracle older) key.1 key.2) (.ok interface) := by
  induction h with
  | nil => cases hkept
  | @cons older latest _ hbuilt hnew hdeclared ih =>
      rw [List.lookup_cons] at hkept
      split at hkept
      · rename_i heq
        cases hkept
        rw [eq_of_beq heq]
        exact ⟨older, hbuilt, hnew, .cons (.refl _) hnew _, hdeclared⟩
      · obtain ⟨oldest, hoverlap⟩ := ih hkept
        exact ⟨oldest, hoverlap.1, hoverlap.2.1, hoverlap.2.2.1.trans (.cons (.refl _) hnew _),
          hoverlap.2.2.2⟩

variable (steady : loader.Steady)

include steady

theorem Built.unique {first second : List (InterfaceKey × Interface)} (h : Built loader first)
    (h' : Built loader second) {key : InterfaceKey} {interface interface' : Interface}
    (hkept : first.lookup key = some interface) (hkept' : second.lookup key = some interface') :
    interface = interface' := by
  induction h generalizing second key interface interface' with
  | nil => cases hkept
  | @cons older latest found hbuilt hnew hdeclared ih =>
      rw [List.lookup_cons] at hkept
      split at hkept
      · rename_i heq
        cases hkept
        rw [eq_of_beq heq] at hkept'
        obtain ⟨older', hbuilt', -, -, hdeclared'⟩ := h'.exists_older hkept'
        have hresolve (path name : String) :
            Consistent loader [] (oracle older path name) (oracle older' path name) := by
          refine ⟨oracle_keeps _ _ _, oracle_keeps _ _ _, ?_⟩
          intro session session' _ _ hends hends'
          unfold oracle at hends hends' ⊢
          cases hlookup : older.lookup (path, name) with
          | none => simp [hlookup] at hends
          | some value =>
              cases hlookup' : older'.lookup (path, name) with
              | none => simp [hlookup'] at hends'
              | some value' => simp [ih hbuilt' hlookup hlookup']
        have hempty := Session.sound_empty loader
        have hsame := ((consistency loader []).declaredInterface steady latest.1 latest.2
          fun _ => hresolve).answer hempty hempty
        rw [hdeclared.answer hempty.coherent, hdeclared'.answer hempty.coherent] at hsame
        exact Except.ok.inj (hsame nofun nofun)
      · exact ih h' hkept hkept'

/-- An interface that is kept in some session is resolved to the same in any other, as long as none
of those that it was built from is being resolved there. -/
theorem Built.answer_interfaceUpTo {kept : List (InterfaceKey × Interface)}
    (h : Built loader kept) {path name : String} {interface : Interface}
    (hkept : kept.lookup (path, name) = some interface)
    (hstack : ∀ key ∈ stack, kept.lookup key = none) (bound : Nat) {session : Session}
    (hs : session.Sound loader stack)
    (hends : answer (interfaceUpTo loader bound path name) session ≠ .error .exhausted) :
    answer (interfaceUpTo loader bound path name) session = .ok interface := by
  induction h generalizing stack bound session path name interface with
  | nil => cases hkept
  | @cons older latest found hbuilt hnew hdeclared ih =>
      have hstack' : ∀ key ∈ stack, older.lookup key = none := by
        intro key hmem
        have hnone := hstack key hmem
        rw [List.lookup_cons] at hnone
        split at hnone
        · cases hnone
        · exact hnone
      rw [List.lookup_cons] at hkept
      split at hkept
      · rename_i heq
        cases hkept
        have hlatest := eq_of_beq heq
        subst hlatest
        cases bound with
        | zero => exact absurd rfl hends
        | succ bound =>
            cases hlookup : session.interfaces.lookup (path, name) with
            | some interface' =>
                rw [answer_interfaceUpTo_of_kept _ hlookup]
                have hbuilt' := Built.cons hbuilt hnew hdeclared
                rw [hs.built.unique steady hbuilt' hlookup List.lookup_cons_self]
            | none =>
                have hkey : (path, name) ∉ stack := by
                  intro hmem
                  have hnone := hstack _ hmem
                  rw [List.lookup_cons_self] at hnone
                  cases hnone
                rw [answer_interfaceUpTo_of_new _ hlookup (hs.resolving ▸ hkey)] at hends ⊢
                have hstack'' : ∀ key ∈ stack ++ [(path, name)], older.lookup key = none := by
                  intro key hmem
                  rcases List.mem_append.mp hmem with hmem | hmem
                  · exact hstack' key hmem
                  · exact List.mem_singleton.mp hmem ▸ hnew
                have hresolve (path' name' : String) :
                    Consistent loader (stack ++ [(path, name)])
                      (interfaceUpTo loader bound path' name') (oracle older path' name') := by
                  refine ⟨(interfaceUpTo_tracks _ steady older _ _).keeps, oracle_keeps _ _ _, ?_⟩
                  intro session session' hs _ hends hends'
                  unfold oracle at hends' ⊢
                  cases hlookup : older.lookup (path', name') with
                  | none => simp [hlookup] at hends'
                  | some value => exact ih hlookup hstack'' bound hs hends
                have hentering := entering_sound hs hlookup
                have hsame := ((consistency loader _).declaredInterface steady path name
                  fun _ => hresolve).answer hentering hentering hends
                rw [hdeclared.answer hentering.coherent] at hsame
                exact hsame nofun
      · exact ih hkept hstack' bound hs hends

/-! ## Any two sessions -/

/-- Two sound sessions answer the same, whatever they keep and whichever bounds are large enough. -/
theorem interfaceUpTo_consistent (bound bound' : Nat) (path name : String) :
    Consistent loader stack (interfaceUpTo loader bound path name)
      (interfaceUpTo loader bound' path name) := by
  induction bound generalizing bound' stack path name with
  | zero =>
      refine ⟨(interfaceUpTo_tracks _ steady [] _ _).keeps,
        (interfaceUpTo_tracks _ steady [] _ _).keeps, ?_⟩
      exact fun _ _ hends _ => absurd rfl hends
  | succ bound ih =>
      refine ⟨(interfaceUpTo_tracks _ steady [] _ _).keeps,
        (interfaceUpTo_tracks _ steady [] _ _).keeps, ?_⟩
      intro session session' hs hs' hends hends'
      cases hlookup : session.interfaces.lookup (path, name) with
      | some interface =>
          rw [answer_interfaceUpTo_of_kept _ hlookup]
          exact (hs.built.answer_interfaceUpTo steady hlookup hs.apart _ hs' hends').symm
      | none =>
          cases hlookup' : session'.interfaces.lookup (path, name) with
          | some interface =>
              rw [hs'.built.answer_interfaceUpTo steady hlookup' hs'.apart _ hs hends,
                hs'.built.answer_interfaceUpTo steady hlookup' hs'.apart _ hs' hends']
          | none =>
              cases bound' with
              | zero => exact absurd rfl hends'
              | succ bound' =>
                  by_cases hcyclic : (path, name) ∈ stack
                  · rw [answer_interfaceUpTo_of_cyclic _ hlookup (hs.resolving ▸ hcyclic),
                      answer_interfaceUpTo_of_cyclic _ hlookup' (hs'.resolving ▸ hcyclic),
                      hs.resolving, hs'.resolving]
                  · rw [answer_interfaceUpTo_of_new _ hlookup (hs.resolving ▸ hcyclic)] at hends ⊢
                    rw [answer_interfaceUpTo_of_new _ hlookup' (hs'.resolving ▸ hcyclic)] at hends' ⊢
                    exact ((consistency loader _).declaredInterface steady _ _ fun _ =>
                      ih bound').answer (entering_sound hs hlookup) (entering_sound hs' hlookup')
                        hends hends'

end GoTrace.Resolution
