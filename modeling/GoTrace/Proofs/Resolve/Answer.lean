import GoTrace.Resolve.Interface

/-!
# Answers of resolutions

A resolution gives an answer in a session and leaves a session behind. Both are computed here for
the operations of the monad; nothing later opens the monad itself.
-/

namespace GoTrace.Resolution

variable {α β : Type}

/-- What a resolution answers in a session. -/
def answer (action : Resolution α) (session : Session) : Except ResolveFailure α :=
  (action.run.run session).1

/-- The session that a resolution leaves behind. -/
def after (action : Resolution α) (session : Session) : Session :=
  (action.run.run session).2

variable (session : Session)

@[simp] theorem answer_pure (value : α) : answer (pure value) session = .ok value := rfl

@[simp] theorem after_pure (value : α) : after (pure value) session = session := rfl

@[simp] theorem answer_throw (failure : ResolveFailure) :
    answer (throw failure : Resolution α) session = .error failure := rfl

@[simp] theorem after_throw (failure : ResolveFailure) :
    after (throw failure : Resolution α) session = session := rfl

@[simp] theorem answer_fail (cause : ResolveError) :
    answer (fail cause : Resolution α) session = .error (.error cause) := rfl

@[simp] theorem after_fail (cause : ResolveError) :
    after (fail cause : Resolution α) session = session := rfl

theorem answer_bind (action : Resolution α) (next : α → Resolution β) :
    answer (action >>= next) session =
      match answer action session with
      | .ok value => answer (next value) (after action session)
      | .error failure => .error failure := by
  change (ExceptT.bindCont next (action session).1 (action session).2).1 = _
  unfold answer after
  change _ = match (action session).1 with
    | .ok value => (next value (action session).2).1
    | .error failure => .error failure
  cases (action session).1 <;> rfl

theorem after_bind (action : Resolution α) (next : α → Resolution β) :
    after (action >>= next) session =
      match answer action session with
      | .ok value => after (next value) (after action session)
      | .error _ => after action session := by
  change (ExceptT.bindCont next (action session).1 (action session).2).2 = _
  unfold answer after
  change _ = match (action session).1 with
    | .ok value => (next value (action session).2).2
    | .error _ => (action session).2
  cases (action session).1 <;> rfl

theorem exists_answer_of_bind {action : Resolution α} {next : α → Resolution β} {session : Session}
    {result : β} (h : answer (action >>= next) session = .ok result) :
    ∃ value, answer action session = .ok value ∧
      answer (next value) (after action session) = .ok result := by
  rw [answer_bind] at h
  split at h
  · rename_i value hvalue
    exact ⟨value, hvalue, h⟩
  · cases h

@[simp] theorem answer_get : answer (get : Resolution Session) session = .ok session := rfl

@[simp] theorem after_get : after (get : Resolution Session) session = session := rfl

@[simp] theorem answer_modify (change : Session → Session) :
    answer (modify change : Resolution Unit) session = .ok () := rfl

@[simp] theorem after_modify (change : Session → Session) :
    after (modify change : Resolution Unit) session = change session := rfl

@[simp] theorem answer_ofExcept (result : Except ResolveFailure α) :
    answer (ofExcept result) session = result := by
  cases result <;> rfl

@[simp] theorem after_ofExcept (result : Except ResolveFailure α) :
    after (ofExcept result) session = session := by
  cases result <;> rfl

theorem run_tryCatch (action : Resolution α) (handle : ResolveFailure → Resolution α) :
    (tryCatch action handle).run.run session =
      match action.run.run session with
      | (.ok value, later) => (.ok value, later)
      | (.error failure, later) => (handle failure).run.run later := by
  change (ExceptT.tryCatch action handle).run.run session = match StateT.run action session with
      | (.ok value, later) => (.ok value, later)
      | (.error failure, later) => (handle failure).run.run later
  have hbind {γ δ : Type} (x : Id γ) (f : γ → Id δ) : x >>= f = f x := rfl
  rw [ExceptT.tryCatch, ExceptT.run_mk, StateT.run_bind, hbind]
  rcases StateT.run action session with ⟨result, later⟩
  cases result <;> rfl

theorem answer_tryCatch (action : Resolution α) (handle : ResolveFailure → Resolution α) :
    answer (tryCatch action handle) session =
      match answer action session with
      | .ok value => .ok value
      | .error failure => answer (handle failure) (after action session) := by
  unfold answer after
  rw [run_tryCatch]
  rcases action.run.run session with ⟨result, later⟩
  cases result <;> rfl

theorem after_tryCatch (action : Resolution α) (handle : ResolveFailure → Resolution α) :
    after (tryCatch action handle) session =
      match answer action session with
      | .ok _ => after action session
      | .error failure => after (handle failure) (after action session) := by
  unfold answer after
  rw [run_tryCatch]
  rcases action.run.run session with ⟨result, later⟩
  cases result <;> rfl

@[simp] theorem mapError_ok {ε ε' α : Type} (rename : ε → ε') (value : α) :
    (Except.ok value).mapError rename = .ok value := rfl

@[simp] theorem mapError_error {ε ε' α : Type} (rename : ε → ε') (cause : ε) :
    (Except.error cause : Except ε α).mapError rename = .error (rename cause) := rfl

theorem exists_of_any_toOption {ε α : Type} {result : Except ε α} {accepts : α → Bool}
    (h : result.toOption.any accepts = true) :
    ∃ value, result = .ok value ∧ accepts value = true := by
  cases result with
  | error failure => cases h
  | ok value => exact ⟨value, rfl, h⟩

end GoTrace.Resolution
