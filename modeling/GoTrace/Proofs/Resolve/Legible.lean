import GoTrace.Proofs.Grammar.Legible
import GoTrace.Proofs.Resolve.Answer
import GoTrace.Proofs.Signature.Reading
import GoTrace.Resolve.Type

/-!
# Resolved types are legible

A type that resolves has names that its scope gives and lengths of 64 bits, wherever in it a type
stands, and is variadic only where its expression is. In the other direction, an expression that
reads as a type by the names of a scope resolves to it there, in any session.
-/

namespace GoTrace

open Lexeme

/-- The name of a type belongs to the package, or to no package, when a scope resolves it. -/
structure Scope.Gives (scope : Scope) (package : Option PackageRef) (name : String) : Prop where
  identifier : IsIdentifier name
  source : package = (if isExported name then some scope.package.ref else none) ∨
    ∃ aliasName path, package = some ⟨path, aliasName⟩ ∧ IsIdentifier aliasName ∧
      scope.imports.pathOf aliasName = some path

def Scope.naming (scope : Scope) : Naming
  | some aliasName, _ => (scope.imports.pathOf aliasName).map fun path => some ⟨path, aliasName⟩
  | none, name => some (if isExported name then some scope.package.ref else none)

mutual

/-- Whether only parameters of function types are variadic, and the type itself if `isParam`. -/
def TypeExpr.dotsOnParams (isParam : Bool) : TypeExpr → Bool
  | .name _ _ _ => true
  | .pointer target => target.dotsOnParams false
  | .slice element => element.dotsOnParams false
  | .array _ element => element.dotsOnParams false
  | .map key value => key.dotsOnParams false && value.dotsOnParams false
  | .chan _ element => element.dotsOnParams false
  | .func ⟨params, results⟩ => dotsOnParamsAll true params && dotsOnParamsAll false results
  | .interface _ => true
  | .struct _ => true
  | .paren inner => inner.dotsOnParams isParam
  | .ellipsis element => isParam && element.dotsOnParams false

/-- Whether only parameters of function types are variadic in the types of fields, and these
themselves if `areParams`. -/
def dotsOnParamsAll (areParams : Bool) : List Field → Bool
  | [] => true
  | ⟨_, type, _, _⟩ :: rest => type.dotsOnParams areParams && dotsOnParamsAll areParams rest

end

namespace Resolution

variable {loader : Loader} {scope : Scope} {session : Session}

/-! ## Array lengths -/

theorem lt_of_constantUpTo {bound : Nat} {package : Package} {name : String} {n : Nat}
    (h : answer (constantUpTo loader bound package name) session = .ok n) : n < UInt64.size := by
  induction bound generalizing package name session with
  | zero => cases h
  | succ bound ih =>
      rw [constantUpTo] at h
      split at h
      · cases h
      · split at h
        · cases h
        · dsimp only at h
          split at h
          · rename_i m hread
            cases h
            exact Literal.lt_of_readInt hread
          · cases h
          · split at h
            · exact ih h
            · obtain ⟨imports, -, h⟩ := exists_answer_of_bind h
              obtain ⟨path, -, h⟩ := exists_answer_of_bind h
              obtain ⟨foreign, -, h⟩ := exists_answer_of_bind h
              exact ih h
            · cases h

theorem lt_of_arrayLength {length : ArrayLength} {n : Nat}
    (hlength : ∀ m, length = .literal m → m < UInt64.size)
    (h : answer (arrayLength loader scope length) session = .ok n) : n < UInt64.size := by
  cases length with
  | literal m =>
      cases h
      exact hlength n rfl
  | ellipsis => cases h
  | expression text => cases h
  | constant package name =>
      cases package with
      | none => exact lt_of_constantUpTo h
      | some aliasName =>
          obtain ⟨path, -, h⟩ := exists_answer_of_bind h
          obtain ⟨foreign, -, h⟩ := exists_answer_of_bind h
          exact lt_of_constantUpTo h

/-! ## Names -/

theorem legible_of_namedType {package : Option String} {name : String} {found : Descriptor}
    (hpackage : ∀ aliasName, package = some aliasName → IsIdentifier aliasName)
    (hname : IsIdentifier name)
    (h : answer (namedType scope package name) session = .ok found) :
    found.Legible scope.Gives := by
  cases package with
  | none =>
      cases h
      exact ⟨hname, .inl rfl⟩
  | some aliasName =>
      unfold namedType at h
      dsimp only at h
      split at h
      · rename_i path hpath
        cases h
        exact ⟨hname, .inr ⟨aliasName, path, rfl, hpackage _ rfl, hpath⟩⟩
      · cases h

/-! ## Types -/

theorem legibleAll_parametersOf {named : Option PackageRef → String → Prop} {type : Descriptor}
    (h : type.Legible named) (names : List Ident) :
    Descriptor.LegibleAll named (parametersOf names type) := by
  unfold parametersOf
  split
  · exact ⟨h, trivial⟩
  · clear * - h
    induction names with
    | nil => exact trivial
    | cons name names ih => exact ⟨h, ih⟩

theorem dotsOnParamsOfAll_parametersOf {areParams : Bool} {type : Descriptor}
    (h : type.dotsOnParams areParams = true) (names : List Ident) :
    Descriptor.dotsOnParamsOfAll areParams (parametersOf names type) = true := by
  unfold parametersOf
  split
  · exact Bool.and_eq_true_iff.mpr ⟨h, rfl⟩
  · clear * - h
    induction names with
    | nil => rfl
    | cons name names ih => exact Bool.and_eq_true_iff.mpr ⟨h, ih⟩

mutual

theorem legible_of_type : (expr : TypeExpr) → expr.Legible → {session : Session} →
    {found : Descriptor} → answer (type loader scope expr) session = .ok found →
      found.Legible scope.Gives
  | .name package name args, hlegible, session, found, h => by
      rw [type] at h
      split at h
      · exact legible_of_namedType hlegible.1 hlegible.2 h
      · cases h
  | .pointer target, hlegible, session, found, h => by
      obtain ⟨inner, hinner, h⟩ := exists_answer_of_bind h
      cases h
      have htarget := legible_of_type target hlegible hinner
      exact htarget
  | .slice element, hlegible, session, found, h => by
      obtain ⟨inner, hinner, h⟩ := exists_answer_of_bind h
      cases h
      exact ⟨nofun, legible_of_type element hlegible hinner⟩
  | .array length element, hlegible, session, found, h => by
      obtain ⟨n, hn, h⟩ := exists_answer_of_bind h
      obtain ⟨inner, hinner, h⟩ := exists_answer_of_bind h
      cases h
      refine ⟨fun m heq => ?_, legible_of_type element hlegible.2 hinner⟩
      cases heq
      exact lt_of_arrayLength hlegible.1 hn
  | .map key value, hlegible, session, found, h => by
      obtain ⟨innerKey, hkey, h⟩ := exists_answer_of_bind h
      obtain ⟨innerValue, hvalue, h⟩ := exists_answer_of_bind h
      cases h
      exact ⟨legible_of_type key hlegible.1 hkey, legible_of_type value hlegible.2 hvalue⟩
  | .chan _ element, hlegible, session, found, h => by
      obtain ⟨inner, hinner, h⟩ := exists_answer_of_bind h
      cases h
      have helement := legible_of_type element hlegible hinner
      exact helement
  | .func ⟨params, results⟩, hlegible, session, found, h => by
      obtain ⟨innerParams, hparams, h⟩ := exists_answer_of_bind h
      obtain ⟨innerResults, hresults, h⟩ := exists_answer_of_bind h
      cases h
      exact ⟨legibleAll_of_parameters params hlegible.1 hparams,
        legibleAll_of_parameters results hlegible.2 hresults⟩
  | .interface elements, _, session, found, h => by
      cases elements with
      | nil =>
          cases h
          exact trivial
      | cons element rest => cases h
  | .struct fields, _, session, found, h => by
      cases fields with
      | nil =>
          cases h
          exact trivial
      | cons field rest => cases h
  | .paren inner, hlegible, session, found, h => legible_of_type inner hlegible h
  | .ellipsis element, hlegible, session, found, h => by
      obtain ⟨inner, hinner, h⟩ := exists_answer_of_bind h
      cases h
      have helement := legible_of_type element hlegible hinner
      exact helement

theorem legibleAll_of_parameters : (fields : List Field) → LegibleFields fields →
    {session : Session} → {found : List Parameter} →
    answer (parameters loader scope fields) session = .ok found →
      Descriptor.LegibleAll scope.Gives found
  | [], _, session, found, h => by
      cases h
      exact trivial
  | ⟨names, fieldType, _, _⟩ :: rest, hlegible, session, found, h => by
      obtain ⟨inner, hinner, h⟩ := exists_answer_of_bind h
      obtain ⟨others, hothers, h⟩ := exists_answer_of_bind h
      cases h
      have hfirst := legible_of_type fieldType hlegible.2.1 hinner
      exact Descriptor.legibleAll_append (legibleAll_parametersOf hfirst names)
        (legibleAll_of_parameters rest hlegible.2.2 hothers)

end

mutual

theorem dotsOnParams_of_type : (expr : TypeExpr) → {isParam : Bool} →
    expr.dotsOnParams isParam = true → {session : Session} → {found : Descriptor} →
    answer (type loader scope expr) session = .ok found → found.dotsOnParams isParam = true
  | .name package name args, _, _, session, found, h => by
      rw [type] at h
      split at h
      · cases package with
        | none =>
            cases h
            rfl
        | some aliasName =>
            unfold namedType at h
            dsimp only at h
            split at h
            · cases h
              rfl
            · cases h
      · cases h
  | .pointer target, _, hdots, session, found, h => by
      obtain ⟨inner, hinner, h⟩ := exists_answer_of_bind h
      cases h
      exact dotsOnParams_of_type target hdots hinner
  | .slice element, _, hdots, session, found, h => by
      obtain ⟨inner, hinner, h⟩ := exists_answer_of_bind h
      cases h
      exact dotsOnParams_of_type element hdots hinner
  | .array length element, _, hdots, session, found, h => by
      obtain ⟨n, -, h⟩ := exists_answer_of_bind h
      obtain ⟨inner, hinner, h⟩ := exists_answer_of_bind h
      cases h
      exact dotsOnParams_of_type element hdots hinner
  | .map key value, _, hdots, session, found, h => by
      obtain ⟨innerKey, hkey, h⟩ := exists_answer_of_bind h
      obtain ⟨innerValue, hvalue, h⟩ := exists_answer_of_bind h
      cases h
      have hboth := Bool.and_eq_true_iff.mp hdots
      exact Bool.and_eq_true_iff.mpr
        ⟨dotsOnParams_of_type key hboth.1 hkey, dotsOnParams_of_type value hboth.2 hvalue⟩
  | .chan _ element, _, hdots, session, found, h => by
      obtain ⟨inner, hinner, h⟩ := exists_answer_of_bind h
      cases h
      exact dotsOnParams_of_type element hdots hinner
  | .func ⟨params, results⟩, _, hdots, session, found, h => by
      obtain ⟨innerParams, hparams, h⟩ := exists_answer_of_bind h
      obtain ⟨innerResults, hresults, h⟩ := exists_answer_of_bind h
      cases h
      have hboth := Bool.and_eq_true_iff.mp hdots
      exact Bool.and_eq_true_iff.mpr ⟨dotsOnParamsOfAll_of_parameters params hboth.1 hparams,
        dotsOnParamsOfAll_of_parameters results hboth.2 hresults⟩
  | .interface elements, _, _, session, found, h => by
      cases elements with
      | nil =>
          cases h
          rfl
      | cons element rest => cases h
  | .struct fields, _, _, session, found, h => by
      cases fields with
      | nil =>
          cases h
          rfl
      | cons field rest => cases h
  | .paren inner, _, hdots, session, found, h => dotsOnParams_of_type inner hdots h
  | .ellipsis element, _, hdots, session, found, h => by
      obtain ⟨inner, hinner, h⟩ := exists_answer_of_bind h
      cases h
      have hboth := Bool.and_eq_true_iff.mp hdots
      exact Bool.and_eq_true_iff.mpr ⟨hboth.1, dotsOnParams_of_type element hboth.2 hinner⟩

theorem dotsOnParamsOfAll_of_parameters : (fields : List Field) → {areParams : Bool} →
    dotsOnParamsAll areParams fields = true → {session : Session} → {found : List Parameter} →
    answer (parameters loader scope fields) session = .ok found →
      Descriptor.dotsOnParamsOfAll areParams found = true
  | [], _, _, session, found, h => by
      cases h
      rfl
  | ⟨names, fieldType, _, _⟩ :: rest, _, hdots, session, found, h => by
      obtain ⟨inner, hinner, h⟩ := exists_answer_of_bind h
      obtain ⟨others, hothers, h⟩ := exists_answer_of_bind h
      cases h
      have hboth := Bool.and_eq_true_iff.mp hdots
      have hfirst := dotsOnParams_of_type fieldType hboth.1 hinner
      rw [Descriptor.dotsOnParamsOfAll_append, Bool.and_eq_true_iff]
      exact ⟨dotsOnParamsOfAll_parametersOf hfirst names,
        dotsOnParamsOfAll_of_parameters rest hboth.2 hothers⟩

end

/-! ## Reading back -/

mutual

theorem answer_type_of_read : (expr : TypeExpr) → {found : Descriptor} →
    expr.read scope.naming = some found → (session : Session) →
    answer (type loader scope expr) session = .ok found
  | .name package name [], found, h, session => by
      obtain ⟨held, hheld, rfl⟩ := Option.map_eq_some_iff.mp h
      rw [type, if_pos (by rfl)]
      cases package with
      | none =>
          cases hheld
          rfl
      | some aliasName =>
          obtain ⟨path, hpath, rfl⟩ := Option.map_eq_some_iff.mp hheld
          rw [namedType, hpath]
          rfl
  | .pointer target, found, h, session => by
      obtain ⟨inner, hinner, h⟩ := Option.bind_eq_some_iff.mp h
      cases h
      rw [type, answer_bind, answer_type_of_read target hinner]
      rfl
  | .slice element, found, h, session => by
      obtain ⟨inner, hinner, h⟩ := Option.bind_eq_some_iff.mp h
      cases h
      rw [type, answer_bind, answer_type_of_read element hinner]
      rfl
  | .array (.literal n) element, found, h, session => by
      obtain ⟨inner, hinner, h⟩ := Option.bind_eq_some_iff.mp h
      cases h
      rw [type, arrayLength, pure_bind, answer_bind, answer_type_of_read element hinner]
      rfl
  | .map key value, found, h, session => by
      obtain ⟨innerKey, hkey, h⟩ := Option.bind_eq_some_iff.mp h
      obtain ⟨innerValue, hvalue, h⟩ := Option.bind_eq_some_iff.mp h
      cases h
      rw [type, answer_bind, answer_type_of_read key hkey]
      dsimp only
      rw [answer_bind, answer_type_of_read value hvalue]
      rfl
  | .chan _ element, found, h, session => by
      obtain ⟨inner, hinner, h⟩ := Option.bind_eq_some_iff.mp h
      cases h
      rw [type, answer_bind, answer_type_of_read element hinner]
      rfl
  | .func ⟨params, results⟩, found, h, session => by
      obtain ⟨innerParams, hparams, h⟩ := Option.bind_eq_some_iff.mp h
      obtain ⟨innerResults, hresults, h⟩ := Option.bind_eq_some_iff.mp h
      cases h
      rw [type, answer_bind, answer_parameters_of_read params hparams]
      dsimp only
      rw [answer_bind, answer_parameters_of_read results hresults]
      rfl
  | .interface [], found, h, session => by
      cases h
      rfl
  | .struct [], found, h, session => by
      cases h
      rfl
  | .paren inner, found, h, session => answer_type_of_read inner h session
  | .ellipsis element, found, h, session => by
      obtain ⟨inner, hinner, h⟩ := Option.bind_eq_some_iff.mp h
      cases h
      rw [type, answer_bind, answer_type_of_read element hinner]
      rfl

theorem answer_parameters_of_read : (fields : List Field) → {found : List Parameter} →
    readFields scope.naming fields = some found → (session : Session) →
    answer (parameters loader scope fields) session = .ok found
  | [], found, h, session => by
      cases h
      rfl
  | ⟨[], fieldType, _, _⟩ :: rest, found, h, session => by
      obtain ⟨inner, hinner, h⟩ := Option.bind_eq_some_iff.mp h
      obtain ⟨others, hothers, h⟩ := Option.bind_eq_some_iff.mp h
      cases h
      rw [parameters, answer_bind, answer_type_of_read fieldType hinner]
      dsimp only
      rw [answer_bind, answer_parameters_of_read rest hothers]
      rfl

end

end Resolution

end GoTrace
