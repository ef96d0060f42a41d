import GoTrace.Proofs.Collection.Roster
import GoTrace.Proofs.Resolve.Steps
import GoTrace.Proofs.Resolve.Transparency

/-!
# Well-formed sessions

Between calls nothing is being resolved, and everything is kept where it belongs: packages and their
names under their paths, interfaces under their names and the paths of their packages. What is kept
never gets out of order. What is being resolved does inside a call, and every call that ends with a
value or an error puts that right.
-/

namespace GoTrace

open Resolution

namespace Session

/-- An interface as it is kept: its package is there, its methods go by their names, and it imports
the packages that they refer to. -/
structure Kept (session : Session) (path name : String) (interface : Interface) : Prop where
  package : ∃ package, session.packages.lookup path = some package ∧
    interface.package = package.ref
  name : interface.name = name
  methods : ∀ {method methodName}, interface.methods.get? methodName = some method ↔
    method ∈ interface.methods.items ∧ method.name = methodName
  nodup : (interface.methods.items.map Method.name).Nodup
  imports : interface.imports =
    PathMap.empty.addPackages (interface.methods.items.flatMap Method.references)

/-- Everything is kept where it belongs. -/
structure Ordered (session : Session) : Prop where
  packages : ∀ {path package}, session.packages.lookup path = some package →
    package.path = path ∧ session.packageNames.lookup path = some package.name
  interfaces : ∀ {path name interface}, session.interfaces.lookup (path, name) = some interface →
    session.Kept path name interface

/-- The session of a resolver between two calls. -/
structure WellFormed (session : Session) : Prop extends session.Ordered where
  resolving : session.resolving = []

variable {session later : Session}

/-! ## What is kept stays in order -/

theorem Kept.of_lookup {path name : String} {interface : Interface}
    (h : session.Kept path name interface)
    (hpackages : ∀ {package}, session.packages.lookup path = some package →
      later.packages.lookup path = some package) : later.Kept path name interface :=
  { h with package := h.package.imp fun _ hpackage => hpackage.imp_left hpackages }

theorem kept_of_package {path : String} {package : Package} (interface : Interface)
    (hpackage : session.packages.lookup path = some package)
    (href : interface.package = package.ref) : session.Kept path interface.name interface where
  package := ⟨package, hpackage, href⟩
  name := rfl
  methods := Roster.get?_eq_some_iff
  nodup := interface.methods.nodup
  imports := interface.collected

theorem Change.ordered (h : session.Change later) (hs : session.Ordered) : later.Ordered := by
  have hinterfaces : ∀ {path name interface},
      session.interfaces.lookup (path, name) = some interface → later.Kept path name interface :=
    fun hlookup => (hs.interfaces hlookup).of_lookup (Changes.lookup_packages (.single h))
  cases h with
  | ask _ => exact ⟨hs.packages, hinterfaces⟩
  | @add added hnew =>
      refine ⟨fun {path package} hlookup => ?_, hinterfaces⟩
      simp only [Session.adding, List.lookup_cons] at hlookup ⊢
      split at hlookup
      · rename_i heq
        cases hlookup
        exact ⟨(eq_of_beq heq).symm, rfl⟩
      · exact hs.packages hlookup
  | @name found key table _ hunknown =>
      refine ⟨fun {path package} hlookup => ?_, hinterfaces⟩
      obtain ⟨hpath, hname⟩ := hs.packages hlookup
      refine ⟨hpath, ?_⟩
      simp only [Session.naming, List.lookup_append]
      rw [hunknown path (by simp [Knows, hname]), Option.none_or, hname]
  | enter _ => exact ⟨hs.packages, hinterfaces⟩
  | leave _ => exact ⟨hs.packages, hinterfaces⟩
  | @keep path package interface hpackage href =>
      refine ⟨hs.packages, fun {path' name other} hlookup => ?_⟩
      simp only [Session.keeping, List.lookup_cons] at hlookup
      split at hlookup
      · rename_i heq
        obtain ⟨rfl, rfl⟩ := Prod.mk.inj (eq_of_beq heq)
        cases hlookup
        exact kept_of_package _ hpackage href
      · exact hinterfaces hlookup

theorem Changes.ordered (h : Changes session later) (hs : session.Ordered) : later.Ordered := by
  induction h with
  | refl => exact hs
  | tail _ hchange ih => exact hchange.ordered ih

end Session

namespace Resolution

variable {α : Type} {loader : Loader}

/-! ## Every call leaves what it has entered -/

/-- When it does not break off, the action leaves what it has entered. -/
def Restores (action : Resolution α) : Prop :=
  ∀ session, Lasting (answer action session) → (after action session).resolving = session.resolving

theorem Restores.bind {β : Type} {action : Resolution α} {next : α → Resolution β}
    (h : Restores action) (h' : ∀ value, Restores (next value)) : Restores (action >>= next) := by
  intro session hlasting
  rw [answer_bind] at hlasting
  rw [after_bind]
  have hfirst := h session
  cases hanswer : answer action session with
  | ok value =>
      rw [hanswer] at hfirst hlasting
      exact (h' value _ hlasting).trans (hfirst trivial)
  | error failure =>
      rw [hanswer] at hfirst hlasting
      exact hfirst (by cases failure <;> exact hlasting)

/-- Operations leave what they have entered when their parts do. -/
def restoring (keeps : loader.KeepsPaths) : Inheritance loader where
  good _ := True
  holds := Restores
  pure _ _ _ := rfl
  fail _ _ _ := rfl
  bind := Restores.bind
  renamed _ h session hlasting := by
    rw [answer_renamed, lasting_mapError] at hlasting
    rw [after_renamed]
    exact h session hlasting
  get _ _ := rfl
  package_bind {_ path _} h :=
    Restores.bind (fun session _ => (untouched_package keeps path session).2) fun _ => h _ trivial
  importTable {package} _ unit session _ := (untouched_importTable package unit session).2
  unreadable _ _ _ _ := rfl

theorem interfaceUpTo_restores (keeps : loader.KeepsPaths) (bound : Nat) (path name : String) :
    (restoring keeps).holds (interfaceUpTo loader bound path name) := by
  induction bound generalizing path name with
  | zero => exact fun _ _ => rfl
  | succ bound ih =>
      intro session hlasting
      have hdeclared := (restoring keeps).declaredInterface ih path name
        (entering session (path, name))
      have hleft (hnew : (path, name) ∉ session.resolving)
          (hended : Lasting (answer (declaredUpTo loader bound (path, name))
            (entering session (path, name)))) :
          (leaving (after (declaredUpTo loader bound (path, name))
            (entering session (path, name))) (path, name)).resolving = session.resolving := by
        rw [leaving, declaredUpTo, hdeclared hended, entering, List.erase_append_right _ hnew,
          List.erase_cons_head, List.append_nil]
      have hleaves := leaves_interfaceUpTo loader bound path name session
      generalize after (interfaceUpTo loader (bound + 1) path name) session = later at hleaves ⊢
      cases hleaves with
      | same => rfl
      | broken hlookup hnew hbroken =>
          rw [answer_interfaceUpTo_of_new _ hlookup hnew] at hlasting
          exact absurd hlasting hbroken
      | failed _ hnew hfailed => exact hleft hnew (by rw [hfailed]; trivial)
      | kept _ hnew hkept => exact hleft hnew (by rw [hkept]; trivial)

theorem Call.resolving {inputs : Inputs} {action : Resolution α} (h : Call loader inputs action)
    (keeps : loader.KeepsPaths) {session : Session} (hlasting : Lasting (answer action session)) :
    (after action session).resolving = session.resolving :=
  (restoring keeps).call (interfaceUpTo_restores keeps) (fun _ _ => trivial)
    (fun loaded _ session _ => (untouched_addPackage loaded session).2) h session hlasting

end Resolution

namespace Session

theorem wellFormed_empty : Session.empty.WellFormed where
  packages h := nomatch h
  interfaces h := nomatch h
  resolving := rfl

theorem WellFormed.call {session : Session} (hs : session.WellFormed) {loader : Loader} {α : Type}
    {action : Resolution α} (keeps : loader.KeepsPaths) (hcall : Operation loader action)
    (hlasting : Lasting (answer action session)) : (after action session).WellFormed where
  toOrdered := ((hcall.steps keeps session).leads keeps).changes.ordered hs.toOrdered
  resolving := (hcall.resolving keeps hlasting).trans hs.resolving

/-- Whatever calls are made, as long as none of them breaks off, the session is well-formed after
them. -/
theorem Reachable.wellFormed {session : Session} (h : session.Reachable) : session.WellFormed := by
  induction h with
  | empty => exact wellFormed_empty
  | call _ keeps hcall hlasting ih => exact ih.call keeps hcall hlasting

/-- Also when a package is added after the report of a cycle. -/
theorem Reachable.wellFormed_knot :
    (after (interface Library.knot.loader "b" "E")
      (after (addPackage ⟨"b", "b", [⟨"b.go", "package b\ntype E interface \x7b N() \x7d"⟩]⟩)
        (after (interface Library.knot.loader "a" "A") .empty))).WellFormed := by
  have keeps := Library.knot.keepsPaths
  exact Reachable.wellFormed <|
    .call
      (.call (.call .empty keeps (.interface "a" "A") (by decide +kernel)) keeps
        (.addPackage trivial) (by decide +kernel))
      keeps (.interface "b" "E") (by decide +kernel)

end Session

end GoTrace
