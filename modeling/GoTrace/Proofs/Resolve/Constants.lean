import GoTrace.Proofs.Grammar.ConstantText
import GoTrace.Proofs.Resolve.BreakingOff
import GoTrace.Proofs.Resolve.Stripped
import GoTrace.Proofs.Resolve.View

/-!
# Constants are followed from one to the next

The initialiser of a constant is a value or refers to another constant, of its own package or of one
that its file imports. An array length that is a constant has the value at which these references end,
when there are at most 32 of them. More references are reported, a cycle among them.
-/

namespace GoTrace

open Constant Resolution

/-- A constant by the path of its package and its name. -/
abbrev ConstantKey := String × String

namespace Session

/-! ## References between constants -/

/-- The first declaration of the constant is in one unit of its package, and `text` is its initialiser
without white space and parentheses around it. -/
structure Initialises (session : Session) (loader : Loader) (key : ConstantKey) (package : Package)
    (unit : Nat) (text : List Char) : Prop where
  shown : session.packageAt loader key.1 = .ok package
  initialiser : ∃ spec initialiser, package.findConst key.2 = some (unit, spec) ∧
    spec.valueOf key.2 = some initialiser ∧ Strips initialiser.toList text

/-- The initialiser of the constant is an integer. -/
def HasValue (session : Session) (loader : Loader) (key : ConstantKey) (value : Nat) : Prop :=
  ∃ package unit text, session.Initialises loader key package unit text ∧
    Literal.readInt text = .value value

/-- The initialiser of the first constant is no integer, and refers to the second. -/
inductive RefersTo (session : Session) (loader : Loader) (key : ConstantKey) : ConstantKey → Prop
  | own {package : Package} {unit : Nat} {text : List Char} {name : String} :
      session.Initialises loader key package unit text →
      (∀ value, Literal.readInt text ≠ .value value) → (Reference.own name).Written text →
        RefersTo session loader key (key.1, name)
  /-- A constant of the package that the unit imports under an alias. -/
  | imported {package foreign : Package} {unit : Nat} {text : List Char}
      {aliasName name path : String} {imports : ImportTable} :
      session.Initialises loader key package unit text →
      (∀ value, Literal.readInt text ≠ .value value) →
      (Reference.imported aliasName name).Written text →
      session.tableAt loader package unit = some imports → imports.pathOf aliasName = some path →
      session.packageAt loader path = .ok foreign →
        RefersTo session loader key (path, name)

/-- The second constant is reached from the first by so many references. -/
inductive ReachesIn (session : Session) (loader : Loader) :
    Nat → ConstantKey → ConstantKey → Prop
  | refl (key : ConstantKey) : ReachesIn session loader 0 key key
  | step {count : Nat} {key next target : ConstantKey} : session.RefersTo loader key next →
      ReachesIn session loader count next target → ReachesIn session loader (count + 1) key target

/-- The constant that an array length of the scope names. -/
inductive LengthNames (session : Session) (loader : Loader) (scope : Scope) :
    Option String → String → ConstantKey → Prop
  | own (name : String) : LengthNames session loader scope none name (scope.package.path, name)
  | imported {aliasName path : String} {foreign : Package} (name : String) :
      scope.imports.pathOf aliasName = some path → session.packageAt loader path = .ok foreign →
        LengthNames session loader scope (some aliasName) name (path, name)

theorem exists_reachesIn_of_cycle {session : Session} {loader : Loader} {key other : ConstantKey}
    (h : Relation.ReflTransGen (session.RefersTo loader) key other)
    (hcycle : Relation.TransGen (session.RefersTo loader) other other) (count : Nat) :
    ∃ last, session.ReachesIn loader count key last := by
  induction count generalizing key with
  | zero => exact ⟨key, .refl key⟩
  | succ count ih =>
      obtain ⟨next, hrefers, hnext⟩ : ∃ next, session.RefersTo loader key next ∧
          Relation.ReflTransGen (session.RefersTo loader) next other := by
        rcases h.cases_head with rfl | hhead
        · exact Relation.TransGen.head'_iff.mp hcycle
        · exact hhead
      obtain ⟨last, hlast⟩ := ih hnext
      exact ⟨last, .step hrefers hlast⟩

end Session

/-! ## Evaluation goes by references -/

namespace Resolution

theorem constantUpTo_succ {loader : Loader} {package : Package} {unit : Nat} {name : String}
    {spec : ConstSpec} {initialiser : String} {text : List Char}
    (hfound : package.findConst name = some (unit, spec))
    (hvalue : spec.valueOf name = some initialiser) (htext : Strips initialiser.toList text)
    (bound : Nat) :
    constantUpTo loader (bound + 1) package name =
      match Literal.readInt text with
      | .value n => return n
      | .splitCharacter => throw .splitCharacter
      | .notInteger =>
          match reference? text with
          | some (.own target) => constantUpTo loader bound package target
          | some (.imported aliasName target) => do
              let imports ← importTable loader package unit
              let path ← packagePath ⟨package, unit, imports⟩ aliasName
              let foreign ← Resolution.package loader path
              constantUpTo loader bound foreign target
          | none => fail (.badArrayLength name s!"{String.ofList text} is not an integer literal") := by
  obtain rfl := strips_iff.mp htext
  rewrite [constantUpTo, hfound]
  dsimp only
  rewrite [hvalue]
  rfl

/-- A point of an evaluation that has begun in `start`: the package is the one at its own path, and the
session shows what `start` shows. -/
structure Underway (loader : Loader) (start session : Session) (package : Package) : Prop where
  held : start.packageAt loader package.path = .ok package
  shown : Session.Shows loader start session
  grounded : session.Grounded loader

namespace Underway

variable {loader : Loader} {start session : Session} {package : Package} {name : String}
  (underway : Underway loader start session package)

include underway

/-- The package that is evaluated is the one whose constants refer to each other. -/
theorem of_initialises {found : Package} {unit : Nat} {text : List Char}
    (h : start.Initialises loader (package.path, name) found unit text) :
    found = package ∧ ∃ spec initialiser, package.findConst name = some (unit, spec) ∧
      spec.valueOf name = some initialiser ∧ Strips initialiser.toList text := by
  obtain ⟨hfound, hinitialiser⟩ := h
  obtain rfl : found = package := Except.ok.inj (hfound.symm.trans underway.held)
  exact ⟨rfl, hinitialiser⟩

theorem answer_of_hasValue {value : Nat} (h : start.HasValue loader (package.path, name) value)
    (bound : Nat) : answer (constantUpTo loader (bound + 1) package name) session = .ok value := by
  obtain ⟨found, unit, text, hinitialises, hread⟩ := h
  obtain ⟨-, spec, initialiser, hconst, hvalue, hstrips⟩ := underway.of_initialises hinitialises
  rw [constantUpTo_succ hconst hvalue hstrips, hread]
  rfl

theorem shows_importTable (unit : Nat) :
    Session.Shows loader start (after (importTable loader package unit) session) :=
  underway.shown.trans <| Session.shows_importTable
    ((underway.shown.packages _).trans underway.held) unit

variable (steady : loader.Steady)

include steady

/-- Behind an import table and a package the session shows what it has shown before. -/
theorem answer_imported (hstart : start.Grounded loader) {unit : Nat} {imports : ImportTable}
    (himports : start.tableAt loader package unit = some imports) {aliasName path : String}
    (hpath : imports.pathOf aliasName = some path) {foreign : Package}
    (hforeign : start.packageAt loader path = .ok foreign) :
    foreign.path = path ∧ ∃ later, Underway loader start later foreign ∧
      ∀ {α : Type} (next : Package → Resolution α),
        answer (do
          let imports ← importTable loader package unit
          let path ← packagePath ⟨package, unit, imports⟩ aliasName
          let foreign ← Resolution.package loader path
          next foreign) session = answer (next foreign) later := by
  have keeps : loader.KeepsPaths := fun _ _ => steady.path
  have hhome : foreign.path = path := hstart.path_of_packageAt keeps hforeign
  have htable : answer (importTable loader package unit) session = .ok imports := by
    rw [Session.answer_importTable_eq_ok_iff, underway.shown.tables underway.held, himports]
  have hshown := underway.shows_importTable unit
  have hgrounded := Session.grounded_importTable underway.grounded package unit
  have hloaded : answer (Resolution.package loader path)
      (after (importTable loader package unit) session) = .ok foreign := by
    rw [Session.answer_package keeps, hshown.packages, hforeign]
  refine ⟨hhome, _, ⟨by rw [hhome, hforeign],
    hshown.trans (Session.shows_package steady hgrounded path),
    Session.grounded_package keeps hgrounded path⟩, fun next => ?_⟩
  simp only [answer_bind, htable, packagePath, hpath, answer_pure, after_pure, hloaded]

theorem exists_of_answer_imported {unit : Nat} {aliasName : String} {α : Type}
    {next : Package → Resolution α} {value : α}
    (h : answer (do
      let imports ← importTable loader package unit
      let path ← packagePath ⟨package, unit, imports⟩ aliasName
      let foreign ← Resolution.package loader path
      next foreign) session = .ok value) :
    ∃ imports path foreign, start.tableAt loader package unit = some imports ∧
      imports.pathOf aliasName = some path ∧ start.packageAt loader path = .ok foreign := by
  have keeps : loader.KeepsPaths := fun _ _ => steady.path
  obtain ⟨imports, himports, h⟩ := exists_answer_of_bind h
  obtain ⟨path, hpath, h⟩ := exists_answer_of_bind h
  obtain ⟨foreign, hforeign, -⟩ := exists_answer_of_bind h
  rw [Session.answer_importTable_eq_ok_iff, underway.shown.tables underway.held] at himports
  unfold packagePath at hpath hforeign
  split at hpath
  · rename_i hknown
    cases hpath
    rw [hknown, after_pure, Session.answer_package keeps,
      (underway.shows_importTable unit).packages] at hforeign
    exact ⟨imports, _, foreign, himports, hknown, hforeign⟩
  · cases hpath

/-- One reference further the evaluation is that of the constant which is referred to. -/
theorem answer_of_refersTo (hstart : start.Grounded loader) (whole : ¬ package.Splits)
    {target : ConstantKey} (h : start.RefersTo loader (package.path, name) target) (bound : Nat) :
    ∃ foreign later, foreign.path = target.1 ∧ Underway loader start later foreign ∧
      answer (constantUpTo loader (bound + 1) package name) session =
        answer (constantUpTo loader bound foreign target.2) later := by
  have hread {unit : Nat} {spec : ConstSpec} {initialiser : String} {text : List Char}
      (hconst : package.findConst name = some (unit, spec))
      (hvalue : spec.valueOf name = some initialiser) (hstrips : Strips initialiser.toList text)
      (hinteger : ∀ value, Literal.readInt text ≠ .value value) :
      Literal.readInt text = .notInteger := by
    cases hread : Literal.readInt text with
    | value value => exact absurd hread (hinteger value)
    | notInteger => rfl
    | splitCharacter =>
        rw [← strips_iff.mp hstrips] at hread
        exact absurd (Package.splits_of_findConst hconst hvalue hread) whole
  cases h with
  | own hinitialises hinteger hwritten =>
      obtain ⟨-, spec, initialiser, hconst, hvalue, hstrips⟩ := underway.of_initialises hinitialises
      refine ⟨package, session, rfl, underway, ?_⟩
      rw [constantUpTo_succ hconst hvalue hstrips, hread hconst hvalue hstrips hinteger,
        reference?_eq_some_iff.mpr hwritten]
  | imported hinitialises hinteger hwritten himports hpath hforeign =>
      obtain ⟨rfl, spec, initialiser, hconst, hvalue, hstrips⟩ :=
        underway.of_initialises hinitialises
      obtain ⟨hhome, later, hlater, hnext⟩ :=
        underway.answer_imported steady hstart himports hpath hforeign
      refine ⟨_, later, hhome, hlater, ?_⟩
      rw [constantUpTo_succ hconst hvalue hstrips, hread hconst hvalue hstrips hinteger,
        reference?_eq_some_iff.mpr hwritten]
      exact hnext _

omit steady in
theorem exists_initialises_of_answer {bound value : Nat}
    (h : answer (constantUpTo loader (bound + 1) package name) session = .ok value) :
    ∃ unit text, start.Initialises loader (package.path, name) package unit text := by
  unfold constantUpTo at h
  split at h
  · cases h
  · rename_i unit spec hconst
    split at h
    · cases h
    · rename_i initialiser hvalue
      exact ⟨unit, _, underway.held, spec, initialiser, hconst, hvalue, strips_iff.mpr rfl⟩

/-- A value comes from the initialiser, or from the constant that it refers to. -/
theorem hasValue_or_refersTo_of_answer {bound value : Nat}
    (h : answer (constantUpTo loader (bound + 1) package name) session = .ok value) :
    start.HasValue loader (package.path, name) value ∨
      ∃ target, start.RefersTo loader (package.path, name) target := by
  obtain ⟨unit, text, hinitialises⟩ := underway.exists_initialises_of_answer h
  obtain ⟨-, spec, initialiser, hconst, hvalue, hstrips⟩ := underway.of_initialises hinitialises
  rw [constantUpTo_succ hconst hvalue hstrips] at h
  cases hread : Literal.readInt text with
  | value n =>
      rw [hread] at h
      cases h
      exact .inl ⟨package, unit, text, hinitialises, hread⟩
  | splitCharacter =>
      rw [hread] at h
      cases h
  | notInteger =>
      rw [hread] at h
      have hinteger : ∀ value, Literal.readInt text ≠ .value value := by
        rw [hread]
        nofun
      cases hreference : reference? text with
      | none =>
          rw [hreference] at h
          cases h
      | some reference =>
          have hwritten := reference?_eq_some_iff.mp hreference
          rw [hreference] at h
          cases reference with
          | own target => exact .inr ⟨_, .own hinitialises hinteger hwritten⟩
          | imported aliasName target =>
              obtain ⟨imports, path, foreign, himports, hpath, hforeign⟩ :=
                underway.exists_of_answer_imported steady h
              exact .inr ⟨_, .imported hinitialises hinteger hwritten himports hpath hforeign⟩

end Underway

section

variable {loader : Loader} {start : Session} (steady : loader.Steady)
  (hstart : start.Grounded loader)
  (whole : ∀ {path package}, start.packageAt loader path = .ok package → ¬ package.Splits)

include steady hstart whole

/-- The value at the end of the references is found when the bound lets so many be followed. -/
theorem answer_of_reachesIn {count : Nat} {key target : ConstantKey}
    (h : start.ReachesIn loader count key target) {value : Nat}
    (hvalue : start.HasValue loader target value) {bound : Nat} (hbound : count < bound)
    {session : Session} {package : Package} (underway : Underway loader start session package)
    (hkey : package.path = key.1) :
    answer (constantUpTo loader bound package key.2) session = .ok value := by
  obtain ⟨bound, rfl⟩ := Nat.exists_eq_succ_of_ne_zero (Nat.ne_zero_of_lt hbound)
  -- a reference leads to another package, and the session in which it is read has loaded more
  induction h generalizing bound session package with
  | refl key =>
      refine underway.answer_of_hasValue ?_ bound
      rwa [hkey]
  | @step count key next target hrefers _ ih =>
      rw [show key = (package.path, key.2) by rw [hkey]] at hrefers
      obtain ⟨foreign, later, hhome, hlater, hanswer⟩ :=
        underway.answer_of_refersTo steady hstart (whole underway.held) hrefers bound
      obtain ⟨bound, rfl⟩ : ∃ smaller, bound = smaller + 1 :=
        Nat.exists_eq_succ_of_ne_zero (by omega)
      rw [hanswer]
      exact ih hvalue hlater hhome bound (by omega)

theorem answer_of_reachesIn_bound {bound : Nat} {key last : ConstantKey}
    (h : start.ReachesIn loader bound key last) {session : Session} {package : Package}
    (underway : Underway loader start session package) (hkey : package.path = key.1) :
    answer (constantUpTo loader bound package key.2) session =
      .error (.error (.badArrayLength last.2 "constant refers to itself")) := by
  induction h generalizing session package with
  | refl key => rfl
  | @step count key next target hrefers _ ih =>
      rw [show key = (package.path, key.2) by rw [hkey]] at hrefers
      obtain ⟨foreign, later, hhome, hlater, hanswer⟩ :=
        underway.answer_of_refersTo steady hstart (whole underway.held) hrefers count
      rw [hanswer]
      exact ih hlater hhome

theorem exists_reachesIn_of_answer {bound : Nat} {session : Session} {package : Package}
    (underway : Underway loader start session package) {name : String} {value : Nat}
    (h : answer (constantUpTo loader bound package name) session = .ok value) :
    ∃ count target, count < bound ∧ start.ReachesIn loader count (package.path, name) target ∧
      start.HasValue loader target value := by
  induction bound generalizing session package name with
  | zero => cases h
  | succ bound ih =>
      rcases underway.hasValue_or_refersTo_of_answer steady h with hvalue | ⟨target, hrefers⟩
      · exact ⟨0, _, Nat.succ_pos bound, .refl _, hvalue⟩
      · obtain ⟨foreign, later, hhome, hlater, hanswer⟩ :=
          underway.answer_of_refersTo steady hstart (whole underway.held) hrefers bound
        rw [hanswer] at h
        obtain ⟨count, last, hcount, hreaches, hvalue⟩ := ih hlater h
        rw [hhome] at hreaches
        exact ⟨count + 1, last, Nat.succ_lt_succ hcount, .step hrefers hreaches, hvalue⟩

end

end Resolution

end GoTrace
