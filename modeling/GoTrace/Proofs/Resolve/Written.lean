import GoTrace.Proofs.Grammar.Rendered
import GoTrace.Proofs.Imports.Table
import GoTrace.Proofs.Resolve.Legible
import GoTrace.Proofs.Resolve.Transparency

/-!
# Resolved types are written as they are read

A type that resolves in a scope can be written as source text of its own package. The text is read
again, and resolves to the type without the names of parameters.
-/

namespace GoTrace

open Descriptor Grammar Lexeme Resolution

/-- Whether the unit of the scope imports its own package. -/
def Scope.importsItself (scope : Scope) : Bool :=
  scope.package.units[scope.unit]?.any fun file =>
    file.imports.any fun spec => spec.path = scope.package.path

theorem Loader.HoldsScope.pathOf_ne {loader : Loader} {scope : Scope} (h : loader.HoldsScope scope)
    (howns : scope.importsItself = false) {aliasName path : String}
    (hpath : scope.imports.pathOf aliasName = some path) : path ≠ scope.package.path := by
  rintro rfl
  have htable := h.imports
  unfold Loader.tableOf at htable
  cases hresolve : ImportTable.resolve loader
      ((scope.package.units[scope.unit]?.map (·.imports)).getD []) with
  | error cause =>
      rw [hresolve] at htable
      cases htable
  | ok table =>
      rw [hresolve] at htable
      cases htable
      obtain ⟨spec, hspec, heq⟩ := ImportTable.exists_spec_of_resolve hresolve hpath
      cases hfile : scope.package.units[scope.unit]? with
      | none =>
          rw [hfile] at hspec
          cases hspec
      | some file =>
          rw [hfile] at hspec
          have himports : scope.importsItself = true := by
            rw [Scope.importsItself, hfile, Option.any_some, List.any_eq_true]
            exact ⟨spec, hspec, decide_eq_true heq⟩
          exact absurd (himports.symm.trans howns) (by decide)

theorem Scope.Gives.nameWritten {scope : Scope}
    (howns : ∀ aliasName path, scope.imports.pathOf aliasName = some path →
      path ≠ scope.package.path) {package : Option PackageRef} {name : String}
    (h : scope.Gives package name) :
    NameWritten (.localTo scope.package.path) scope.naming id package name where
  identifier := h.identifier
  aliasName aliasName heq := by
    rcases h.source with rfl | ⟨other, path, rfl, hother, -⟩
    · split at heq
      · simp [Qualifier.localTo, Package.ref] at heq
      · cases heq
    · unfold Qualifier.localTo at heq
      rw [Option.bind_some, Option.ite_none_left_eq_some] at heq
      obtain ⟨-, heq⟩ := heq
      cases heq
      exact hother
  reads := by
    rcases h.source with rfl | ⟨aliasName, path, rfl, -, hpath⟩
    · split
      · rename_i hexported
        simp [Qualifier.localTo, Package.ref, naming, hexported]
      · rename_i hexported
        simp [naming, hexported]
    · have hne := howns aliasName path hpath
      simp [Qualifier.localTo, hne, naming, hpath]

/-- A type that resolves in a scope of a file which does not import its own package is written so that
it is read and resolves again, in any session, to the same type without the names of parameters. -/
theorem Session.type_of_render (library : Library) {session : Session}
    (hsession : session.Secluded library.loader) {scope : Scope}
    (hscope : session.OwnScope library.loader scope)
    (howns : scope.importsItself = false) {expr : TypeExpr} (hread : IsRead expr)
    (hdots : expr.dotsOnParams false = true) {found : Descriptor}
    (h : answer (type library.loader scope expr) session = .ok found) :
    ∃ again, TypeExpr.parse (found.render (.localTo scope.package.path)) = .ok again ∧
      ∀ later, answer (type library.loader scope again) later = .ok found.anonymous := by
  have hheld := hsession.holdsScope library.steady hscope
  have hlegible := legible_of_type expr hread.legible h
  have hwritten : found.Plain (NameWritten (.localTo scope.package.path) scope.naming id) false :=
    hlegible.plain found (dotsOnParams_of_type expr hdots h) fun _ _ hgives =>
      hgives.nameWritten fun _ _ => hheld.pathOf_ne howns
  obtain ⟨again, hparse, hagain⟩ := TypeExpr.parse_render hwritten
  exact ⟨again, hparse, answer_type_of_read again hagain⟩

/-- A package with a constant, which imports another. -/
def Library.sized : Library :=
  (Library.empty.add "io" ⟨"io.go", "package io\ntype Reader interface \x7b\x7d"⟩).add "a"
    ⟨"a.go", "package a\nimport src \"io\"\nconst N = 0x10\ntype T int"⟩

/-- A channel of channels, a length that is a constant, named parameters and a variadic one. -/
theorem Session.type_of_render_sized :
    ∃ (session : Session) (held : Scope) (expr : TypeExpr) (found : Descriptor) (again : TypeExpr),
      session.Secluded Library.sized.loader ∧ session.OwnScope Library.sized.loader held ∧
      TypeExpr.parse "func(x chan (<-chan [N]*T), xs ...src.Reader) (map[string]error, func())" =
        .ok expr ∧
      answer (type Library.sized.loader held expr) session = .ok found ∧
      TypeExpr.parse (found.render (.localTo held.package.path)) = .ok again ∧
      ∀ later, answer (type Library.sized.loader held again) later = .ok found.anonymous := by
  have hchecks : ((answer (scope Library.sized.loader "a" 0) Session.empty).toOption.any fun held =>
      (TypeExpr.parse
        "func(x chan (<-chan [N]*T), xs ...src.Reader) (map[string]error, func())").toOption.any
        fun expr => (!held.importsItself && expr.dotsOnParams false) &&
          (answer (type Library.sized.loader held expr)
            (after (scope Library.sized.loader "a" 0) Session.empty)).toOption.any fun _ => true) =
      true := by
    decide +kernel
  obtain ⟨held, hheld, hchecks⟩ := exists_of_any_toOption hchecks
  obtain ⟨expr, hexpr, hchecks⟩ := exists_of_any_toOption hchecks
  obtain ⟨hconditions, hok⟩ := Bool.and_eq_true_iff.mp hchecks
  obtain ⟨howns, hdots⟩ := Bool.and_eq_true_iff.mp hconditions
  obtain ⟨found, hfound, -⟩ := exists_of_any_toOption hok
  have hsession : Session.Secluded Library.sized.loader
      (after (scope Library.sized.loader "a" 0) .empty) :=
    .call .empty rfl (.scope "a" 0) (by rw [hheld]; trivial)
  have hown := ownScope_of_answer Library.sized.steady (Session.grounded_empty _) hheld
  obtain ⟨again, hparse, hagain⟩ := Session.type_of_render Library.sized hsession hown
    ((Bool.not_eq_true' _).mp howns) (TypeExpr.isRead_of_parse hexpr) hdots hfound
  exact ⟨_, held, expr, found, again, hsession, hown, hexpr, hfound, hparse, hagain⟩

end GoTrace
