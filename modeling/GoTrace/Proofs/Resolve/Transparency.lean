import GoTrace.Proofs.Resolve.Consistency
import GoTrace.Proofs.Resolve.Depth
import GoTrace.Proofs.Resolve.View

/-!
# Caches are transparent

Calls are made to one resolver, in any order, and also after errors. As long as they add no package and
pass only what the resolver has handed out, an interface resolves afterwards to what it resolves to at
once.
-/

namespace GoTrace

open Resolution

/-- The scope is one that the loader gives. -/
structure Loader.HoldsScope (loader : Loader) (scope : Scope) : Prop where
  package : loader.Holds scope.package
  imports : loader.tableOf scope.package scope.unit = .ok scope.imports

namespace Resolution

variable {loader : Loader} (steady : loader.Steady)

include steady

theorem scope_settled (path : String) (unit : Nat) :
    Settled loader (scope loader path unit) := by
  unfold scope
  exact .package_bind steady fun package _ hpackage =>
    (importTable_settled hpackage unit).bind fun _ _ => settled_pure _

omit steady in
theorem mapM_keeps {α β : Type} {stack : List InterfaceKey} {f : α → Resolution β}
    (h : ∀ value, Keeps loader stack (f value)) (values : List α) :
    Keeps loader stack (values.mapM f) := by
  induction values with
  | nil => exact .of_settled (settled_pure _)
  | cons value rest ih =>
      rw [List.mapM_cons]
      exact (h value).bind fun _ _ => ih.bind fun _ _ => .of_settled (settled_pure _)

theorem resolvedPackage_keeps {stack : List InterfaceKey} (path : String) :
    Keeps loader stack (resolvedPackage loader path) := by
  unfold resolvedPackage
  refine (Keeps.of_settled (package_settled steady path)).bind fun _ _ => ?_
  refine (mapM_keeps (fun name => interface_keeps steady path name) _).bind fun _ _ => ?_
  exact .of_settled (settled_pure _)

end Resolution

namespace Session

variable {loader : Loader} {session : Session}

theorem Sound.call (steady : loader.Steady) (hs : session.Sound loader []) {α : Type}
    {action : Resolution α} (hcall : Call loader (session.own loader) action)
    (hlasting : Lasting (answer action session)) : (after action session).Sound loader [] := by
  have hholds {package : Package} (h : session.packageAt loader package.path = .ok package) :
      loader.Holds package := by
    unfold packageAt at h
    split at h
    · rename_i found hkept
      cases h
      exact hs.coherent.packages hkept
    · exact h
  refine (?_ : Keeps loader [] action) session hs hlasting |>.1
  cases hcall with
  | addPackage hadds => exact hadds.elim
  | package path => exact .of_settled (package_settled steady path)
  | importTable unit hpasses => exact .of_settled (importTable_settled (hholds hpasses) unit)
  | scope path unit => exact .of_settled (scope_settled steady path unit)
  | resolvedPackage path => exact resolvedPackage_keeps steady path
  | interface path name => exact interface_keeps steady path name
  | parameters fields hpasses =>
      exact .of_settled <| settled_iff.mpr <|
        parameters_settledWithin loader.allows_ne_exhausted steady (hholds hpasses) fields
  | type expr hpasses => exact .of_settled (type_settled steady (hholds hpasses) expr)

theorem Reached.sound (steady : loader.Steady) (h : session.Secluded loader) :
    session.Sound loader [] := by
  induction h with
  | empty => exact sound_empty loader
  | call _ heq hcall hlasting ih =>
      subst heq
      exact ih.call steady hcall hlasting

/-- A scope that a secluded session hands out is the one that the loader gives. -/
theorem Reached.holdsScope (steady : loader.Steady) (h : session.Secluded loader) {scope : Scope}
    (hscope : session.OwnScope loader scope) : loader.HoldsScope scope where
  package := h.holds steady hscope.package
  imports := by
    have hsettles := importTable_settles (h.holds steady hscope.package) scope.unit
    rw [← hsettles.answer (h.sound steady).coherent]
    exact answer_importTable_eq_ok_iff.mpr hscope.imports

end Session

/-- Sound sessions answer the same, unless an interface runs out of its bound in one of them. -/
theorem Session.Sound.answer_interface {loader : Loader} (steady : loader.Steady)
    {session session' : Session} (hs : session.Sound loader []) (hs' : session'.Sound loader [])
    {path name : String}
    (hends : answer (interface loader path name) session ≠ .error .exhausted)
    (hends' : answer (interface loader path name) session' ≠ .error .exhausted) :
    answer (interface loader path name) session =
      answer (interface loader path name) session' := by
  rw [Resolution.answer_interface] at hends hends' ⊢
  rw [Resolution.answer_interface]
  exact (interfaceUpTo_consistent steady _ _ path name).answer hs hs' hends hends'

theorem Library.answer_interface_eq (library : Library) {session : Session}
    (hs : session.Sound library.loader []) (path name : String) :
    answer (interface library.loader path name) session =
      answer (interface library.loader path name) Session.empty :=
  hs.answer_interface library.steady (Session.sound_empty library.loader)
    (library.interface_ends path name session) (library.interface_ends path name Session.empty)

/-- Whatever was asked before, an interface resolves to the same methods or fails with the same error
as it does when it is asked for first, and it does not run out of its bound. -/
theorem Session.interface_eq_fresh (library : Library) {session : Session}
    (h : session.Secluded library.loader) (path name : String) :
    answer (interface library.loader path name) session =
        answer (interface library.loader path name) Session.empty ∧
      answer (interface library.loader path name) session ≠ .error .exhausted :=
  ⟨library.answer_interface_eq (h.sound library.steady) path name,
    library.interface_ends path name session⟩

/-- A package in which one interface embeds itself and another embeds both. -/
def Library.knot : Library :=
  Library.empty.add "a"
    ⟨"a.go", "package a\ntype A interface \x7b A \x7d\ntype B interface \x7b M(); A \x7d"⟩

/-- The cycle is found again after it was found before. -/
theorem Session.interface_eq_fresh_knot :
    answer (interface Library.knot.loader "a" "B")
        (after (interface Library.knot.loader "a" "A") .empty) =
          answer (interface Library.knot.loader "a" "B") Session.empty ∧
      answer (interface Library.knot.loader "a" "B")
        (after (interface Library.knot.loader "a" "A") .empty) ≠ .error .exhausted :=
  Session.interface_eq_fresh Library.knot
    (.call .empty rfl (.interface "a" "A") (by decide +kernel)) "a" "B"

end GoTrace
