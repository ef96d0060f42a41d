import GoTrace.Proofs.Resolve.Coherence

/-!
# Two resolutions side by side

Resolutions over two loaders, each in a session that agrees with its own loader. They match when they
answer alike, or fail in the same way, in all sessions that have kept and are resolving the same
interfaces, and leave such sessions behind. One lemma for each way to put resolutions together.
-/

namespace GoTrace

/-- The sessions agree each with its loader, and with each other in their interfaces. -/
structure Session.Paired (loader other : Loader) (first second : Session) : Prop where
  coherent : first.Coherent loader
  coherent' : second.Coherent other
  interfaces : first.interfaces = second.interfaces
  resolving : first.resolving = second.resolving

theorem Session.paired_empty (loader other : Loader) :
    Session.empty.Paired loader other Session.empty :=
  ⟨coherent_empty loader, coherent_empty other, rfl, rfl⟩

theorem Session.Paired.changeResolving {loader other : Loader} {first second : Session}
    (h : first.Paired loader other second) (change : List InterfaceKey → List InterfaceKey) :
    ({ first with resolving := change first.resolving } : Session).Paired loader other
      { second with resolving := change second.resolving } :=
  ⟨⟨h.coherent.packages, h.coherent.names, h.coherent.tables⟩,
    ⟨h.coherent'.packages, h.coherent'.names, h.coherent'.tables⟩, h.interfaces,
    congrArg change h.resolving⟩

namespace Resolution

variable {α β α' β' : Type} {loader other : Loader}

/-- Both answers are values that are related, or both are the same failure. -/
inductive Matches (rel : α → β → Prop) : Except ResolveFailure α → Except ResolveFailure β → Prop
  | ok {value : α} {value' : β} : rel value value' → Matches rel (.ok value) (.ok value')
  | error (failure : ResolveFailure) : Matches rel (.error failure) (.error failure)

theorem Matches.eq {first second : Except ResolveFailure α} (h : Matches Eq first second) :
    first = second := by
  cases h with
  | ok heq => rw [heq]
  | error => rfl

/-- In paired sessions the two resolutions answer alike and leave paired sessions behind. -/
structure Matched (loader other : Loader) (rel : α → β → Prop) (action : Resolution α)
    (action' : Resolution β) : Prop where
  answer : ∀ {first second : Session}, first.Paired loader other second →
    Matches rel (answer action first) (answer action' second)
  paired : ∀ {first second : Session}, first.Paired loader other second →
    (after action first).Paired loader other (after action' second)

namespace Matched

variable {rel : α → β → Prop} {rel' : α' → β' → Prop}

theorem pure {value : α} {value' : β} (h : rel value value') :
    Matched loader other rel (Pure.pure value) (Pure.pure value') where
  answer _ := .ok h
  paired hs := hs

theorem throw (failure : ResolveFailure) :
    Matched loader other rel (MonadExcept.throw failure) (MonadExcept.throw failure) where
  answer _ := .error failure
  paired hs := hs

theorem fail (cause : ResolveError) :
    Matched loader other rel (Resolution.fail cause) (Resolution.fail cause) :=
  throw (.error cause)

theorem bind {action : Resolution α} {action' : Resolution β} {next : α → Resolution α'}
    {next' : β → Resolution β'} (h : Matched loader other rel action action')
    (h' : ∀ value value', rel value value' → Matched loader other rel' (next value) (next' value')) :
    Matched loader other rel' (action >>= next) (action' >>= next') where
  answer {first second} hs := by
    have hlater := h.paired hs
    have hanswer := h.answer hs
    rw [answer_bind, answer_bind]
    generalize Resolution.answer action first = result at hanswer
    generalize Resolution.answer action' second = result' at hanswer
    cases hanswer with
    | ok hrel => exact (h' _ _ hrel).answer hlater
    | error failure => exact .error failure
  paired {first second} hs := by
    have hlater := h.paired hs
    have hanswer := h.answer hs
    rw [after_bind, after_bind]
    generalize Resolution.answer action first = result at hanswer
    generalize Resolution.answer action' second = result' at hanswer
    cases hanswer with
    | ok hrel => exact (h' _ _ hrel).paired hlater
    | error failure => exact hlater

theorem bind_eq {action action' : Resolution α} {next : α → Resolution α'} {next' : α → Resolution β'}
    (h : Matched loader other Eq action action')
    (h' : ∀ value, Matched loader other rel' (next value) (next' value)) :
    Matched loader other rel' (action >>= next) (action' >>= next') :=
  h.bind fun value _ heq => heq ▸ h' value

theorem get : Matched loader other (Session.Paired loader other) MonadState.get MonadState.get where
  answer hs := .ok hs
  paired hs := hs

theorem modify {change change' : Session → Session}
    (h : ∀ {first second : Session}, first.Paired loader other second →
      (change first).Paired loader other (change' second)) :
    Matched loader other Eq (modify change : Resolution Unit) (modify change') where
  answer _ := .ok rfl
  paired hs := h hs

theorem tryCatch {action : Resolution α} {action' : Resolution β}
    {handle : ResolveFailure → Resolution α} {handle' : ResolveFailure → Resolution β}
    (h : Matched loader other rel action action')
    (h' : ∀ failure, Matched loader other rel (handle failure) (handle' failure)) :
    Matched loader other rel (MonadExcept.tryCatch action handle)
      (MonadExcept.tryCatch action' handle') where
  answer {first second} hs := by
    have hlater := h.paired hs
    have hanswer := h.answer hs
    rw [answer_tryCatch, answer_tryCatch]
    generalize Resolution.answer action first = result at hanswer
    generalize Resolution.answer action' second = result' at hanswer
    cases hanswer with
    | ok hrel => exact .ok hrel
    | error failure => exact (h' failure).answer hlater
  paired {first second} hs := by
    have hlater := h.paired hs
    have hanswer := h.answer hs
    rw [after_tryCatch, after_tryCatch]
    generalize Resolution.answer action first = result at hanswer
    generalize Resolution.answer action' second = result' at hanswer
    cases hanswer with
    | ok hrel => exact hlater
    | error failure => exact (h' failure).paired hlater

theorem of_settles {action : Resolution α} {action' : Resolution β}
    {result : Except ResolveFailure α} {result' : Except ResolveFailure β}
    (h : Settles loader action result) (h' : Settles other action' result')
    (hresult : Matches rel result result') : Matched loader other rel action action' where
  answer hs := by
    rw [h.answer hs.coherent, h'.answer hs.coherent']
    exact hresult
  paired hs :=
    { coherent := h.coherent hs.coherent
      coherent' := h'.coherent hs.coherent'
      interfaces := by rw [h.interfaces hs.coherent, h'.interfaces hs.coherent', hs.interfaces]
      resolving := by rw [h.resolving hs.coherent, h'.resolving hs.coherent', hs.resolving] }

theorem whileResolving (key : InterfaceKey) {action : Resolution α} {action' : Resolution β}
    (h : Matched loader other rel action action') :
    Matched loader other rel (Resolution.whileResolving key action)
      (Resolution.whileResolving key action') := by
  unfold Resolution.whileResolving
  refine (modify fun hs => hs.changeResolving (· ++ [key])).bind fun _ _ _ => ?_
  refine tryCatch ?_ fun failure => ?_
  · refine h.bind fun _ _ hrel => ?_
    exact (modify fun hs => hs.changeResolving (List.erase · key)).bind fun _ _ _ => pure hrel
  · cases failure with
    | error cause =>
        exact (modify fun hs => hs.changeResolving (List.erase · key)).bind fun _ _ _ =>
          throw (.error cause)
    | splitCharacter => exact throw .splitCharacter
    | exhausted => exact throw .exhausted

end Matched

end Resolution

end GoTrace
