import GoTrace.Proofs.Resolve.Constants

/-!
# Array lengths that are constants

Over sources of ASCII text no constant breaks a call off. An array length that is a constant then has a
value exactly when the references from that constant come to an integer, the 32nd at the latest, and a
longer chain of references is reported.
-/

namespace GoTrace

open Constant Resolution

/-! ## ASCII sources -/

/-- The text of the file has no characters but those of ASCII. -/
def SourceUnit.IsAscii (unit : SourceUnit) : Prop :=
  ∀ c ∈ unit.text.toList, c.toNat < 128

theorem SourceUnit.isAscii_iff {unit : SourceUnit} :
    unit.IsAscii ↔ unit.text.toList.all (·.toNat < 128) = true := by
  simp only [IsAscii, List.all_eq_true, decide_eq_true_iff]

namespace SourceUnit.IsAscii

variable {unit : SourceUnit} (ascii : unit.IsAscii)

include ascii

theorem not_wide {c : Char} (hc : c ∈ unit.text.toList) : ¬ 1 < c.utf8Size := by
  have hsmall : c.val ≤ 127 := UInt32.le_iff_toNat_le.mpr (Nat.le_of_lt_succ (ascii c hc))
  rw [Char.utf8Size_eq_one_iff.mpr hsmall]
  exact Nat.lt_irrefl 1

theorem not_splitLength : ¬ SplitLength unit.text.toList := by
  intro hsplit
  obtain ⟨c, hc, hwide⟩ := hsplit.exists_wide
  exact ascii.not_wide hc hwide

theorem not_splits {file : SourceFile} {sourceName : Option String}
    (h : SourceFile.parse unit.text sourceName = .ok file) : ¬ file.Splits := by
  rintro ⟨spec, hspec, name, text, hvalue, hread⟩
  obtain ⟨c, hc, hwide⟩ := Literal.exists_wide_of_readInt hread
  obtain ⟨index, -, htext⟩ := Option.bind_eq_some_iff.mp hvalue
  have hinitialiser : c ∈ text.toList := (strips_iff.mpr rfl).mem hc
  have hsource := SourceFile.hasText_of_parse h spec hspec text (List.mem_of_getElem? htext) c
  exact ascii.not_wide (hsource hinitialiser) hwide

end SourceUnit.IsAscii

def LoadedPackage.IsAscii (loaded : LoadedPackage) : Prop :=
  ∀ unit ∈ loaded.units, unit.IsAscii

theorem LoadedPackage.IsAscii.not_splits {loaded : LoadedPackage} (ascii : loaded.IsAscii)
    {package : Package} (h : Package.parse loaded = .ok package) : ¬ package.Splits := by
  rintro ⟨file, hfile, hsplits⟩
  obtain ⟨unit, hunit, hread⟩ := Package.exists_parse_of_mem h hfile
  exact (ascii unit hunit).not_splits hread hsplits

def Library.IsAscii (library : Library) : Prop :=
  ∀ entry ∈ library.packages, ∀ unit ∈ entry.2, unit.IsAscii

theorem Library.IsAscii.not_splits {library : Library} (ascii : library.IsAscii) :
    ¬ library.Splits := by
  rintro ⟨path, units, hunits, unit, hunit, hsplits⟩
  have hascii := ascii _ (mem_of_lookup hunits) unit hunit
  rcases hsplits with hlength | ⟨file, hread, hsplits⟩
  · exact hascii.not_splitLength hlength
  · exact hascii.not_splits hread hsplits

theorem Library.IsAscii.of_load {library : Library} (ascii : library.IsAscii) {path : String}
    {loaded : LoadedPackage} (h : library.loader.load path = .ok (some loaded)) : loaded.IsAscii :=
  ascii _ (mem_of_lookup (exists_units_of_load h))

namespace Session

/-- All packages that the session keeps come from ASCII text. -/
def IsAscii (session : Session) : Prop :=
  ∀ path package, session.packages.lookup path = some package →
    ∃ loaded : LoadedPackage, loaded.IsAscii ∧ Package.parse loaded = .ok package

theorem IsAscii.not_splits {session : Session} (ascii : session.IsAscii) : ¬ session.Splits := by
  rintro ⟨path, package, hlookup, hsplits⟩
  obtain ⟨loaded, hascii, hparse⟩ := ascii path package hlookup
  exact hascii.not_splits hparse hsplits

theorem isAscii_empty : Session.empty.IsAscii := fun _ _ h => nomatch h

section

variable {session : Session} (ascii : session.IsAscii)

include ascii

theorem IsAscii.adding {loaded : LoadedPackage} (hloaded : loaded.IsAscii) {package : Package}
    (hparse : Package.parse loaded = .ok package) : (session.adding package).IsAscii := by
  intro path found hlookup
  rcases lookup_adding_cases hlookup with ⟨-, rfl⟩ | hlookup
  · exact ⟨loaded, hloaded, hparse⟩
  · exact ascii path found hlookup

theorem IsAscii.addPackage {loaded : LoadedPackage} (hloaded : loaded.IsAscii) :
    (after (Resolution.addPackage loaded) session).IsAscii := by
  cases hkept : session.packages.lookup loaded.path with
  | some package => rwa [after_addPackage_of_kept hkept]
  | none =>
      rw [after_addPackage_of_new hkept]
      cases hparse : Package.parse loaded with
      | error failure => exact ascii
      | ok package => exact ascii.adding hloaded hparse

end

end Session

/-- Over ASCII sources a session that keeps what comes from such sources goes on to do so, and no call
breaks off in it. -/
theorem Library.IsAscii.suits {library : Library} (ascii : library.IsAscii) :
    Suits library.loader ResolveFailure.Breaks Session.IsAscii where
  keeps := library.keepsPaths
  errors := ResolveFailure.not_breaks_error
  parsed := (spares_of_not_splits ascii.not_splits).parsed
  whole hsession hlookup hsplits := absurd ⟨_, _, hlookup, hsplits⟩ hsession.not_splits
  asking _ hsession := hsession
  naming _ _ _ hsession := hsession
  adding hsession hparsed := by
    obtain ⟨loaded, hload, hparse⟩ := Loader.exists_load_of_parsed hparsed
    exact hsession.adding (ascii.of_load hload) hparse

/-! ## From an array length to its constant -/

namespace Resolution

variable {loader : Loader} {session : Session} {scope : Scope} {qualifier : Option String}
  {name : String}

theorem packageAt_of_lookup {path : String} {package : Package}
    (h : session.packages.lookup path = some package) :
    session.packageAt loader path = .ok package := by
  rw [Session.packageAt, h]

theorem answer_of_lengthNames (steady : loader.Steady) (hs : session.Grounded loader)
    (hscope : session.packages.lookup scope.package.path = some scope.package) {key : ConstantKey}
    (h : session.LengthNames loader scope qualifier name key) :
    ∃ package later, package.path = key.1 ∧ Underway loader session later package ∧
      answer (arrayLength loader scope (.constant qualifier name)) session =
        answer (constant loader package key.2) later := by
  have keeps : loader.KeepsPaths := fun _ _ => steady.path
  cases h with
  | own => exact ⟨scope.package, session, rfl, ⟨packageAt_of_lookup hscope, .refl _ _, hs⟩, rfl⟩
  | @imported aliasName path foreign _ hpath hforeign =>
      have hhome : foreign.path = path := hs.path_of_packageAt keeps hforeign
      have hloaded : answer (package loader path) session = .ok foreign := by
        rw [Session.answer_package keeps, hforeign]
      refine ⟨foreign, after (package loader path) session, hhome,
        ⟨by rw [hhome, hforeign], Session.shows_package steady hs path,
          Session.grounded_package keeps hs path⟩, ?_⟩
      simp only [arrayLength, answer_bind, packagePath, hpath, answer_pure, after_pure, hloaded]

/-- The package of a scope that was handed out is kept, whatever happens later. -/
theorem lookup_of_answer_scope (keeps : loader.KeepsPaths) (hs : session.Grounded loader)
    {path : String} {unit : Nat}
    (h : answer (Resolution.scope loader path unit) session = .ok scope) {later : Session}
    (hlater : Session.Steps loader (after (Resolution.scope loader path unit) session) later) :
    later.packages.lookup scope.package.path = some scope.package := by
  obtain ⟨package, hpackage, h⟩ := exists_answer_of_bind h
  obtain ⟨imports, himports, h⟩ := exists_answer_of_bind h
  cases h
  have hkept := lookup_of_answer_package keeps hpackage
  have hafter : after (Resolution.scope loader path unit) session =
      after (importTable loader package unit) (after (Resolution.package loader path) session) := by
    simp only [Resolution.scope, after_bind, hpackage, himports, after_pure]
  have hchanges := (Session.changes_importTable (after (Resolution.package loader path) session)
    loader package unit).trans (hafter ▸ (hlater.leads keeps).changes)
  have hhome : package.path = path := (Session.grounded_package keeps hs path).path hkept
  dsimp only
  rw [hhome]
  exact Session.Changes.lookup_packages hchanges hkept

theorem exists_lengthNames_of_answer (keeps : loader.KeepsPaths) {value : Nat}
    (h : answer (arrayLength loader scope (.constant qualifier name)) session = .ok value) :
    ∃ key, session.LengthNames loader scope qualifier name key := by
  cases qualifier with
  | none => exact ⟨_, .own name⟩
  | some aliasName =>
      obtain ⟨path, hpath, h⟩ := exists_answer_of_bind h
      obtain ⟨foreign, hforeign, -⟩ := exists_answer_of_bind h
      unfold packagePath at hpath hforeign
      split at hpath
      · rename_i hknown
        rw [hknown, after_pure, Session.answer_package keeps] at hforeign
        exact ⟨_, .imported name hknown (by cases hpath; exact hforeign)⟩
      · cases hpath

end Resolution

/-! ## The value of an array length -/

theorem Session.not_splits_of_packageAt {library : Library} (hlibrary : library.IsAscii)
    {session : Session} (ascii : session.IsAscii) {path : String} {package : Package}
    (h : session.packageAt library.loader path = .ok package) : ¬ package.Splits := by
  unfold packageAt at h
  split at h
  · rename_i found hkept
    cases h
    exact fun hsplits => ascii.not_splits ⟨path, _, hkept, hsplits⟩
  · exact fun hsplits => (Library.spares_of_not_splits hlibrary.not_splits).whole h hsplits nofun

/-- Over ASCII sources an array length that is a constant is evaluated to an end, in any session, and
for any scope of a package of the session. The value is the one at the end of the references from the
constant, of which there are at most 32; more references are an error, and so is a cycle. -/
theorem Library.arrayLength_follows_references {library : Library} (hlibrary : library.IsAscii)
    {session : Session} (hsteps : Session.Steps library.loader .empty session)
    (hsession : session.IsAscii) {scope : Scope}
    (hscope : session.packages.lookup scope.package.path = some scope.package)
    (qualifier : Option String) (name : String) :
    let evaluated := answer (arrayLength library.loader scope (.constant qualifier name)) session
    Ended evaluated ∧
    (∀ value, evaluated = .ok value ↔
      ∃ key count last, session.LengthNames library.loader scope qualifier name key ∧ count ≤ 32 ∧
        session.ReachesIn library.loader count key last ∧
        session.HasValue library.loader last value) ∧
    (∀ key last, session.LengthNames library.loader scope qualifier name key →
      session.ReachesIn library.loader 33 key last →
        evaluated = .error (.error (.badArrayLength last.2 "constant refers to itself"))) ∧
    ∀ key other, session.LengthNames library.loader scope qualifier name key →
      Relation.ReflTransGen (session.RefersTo library.loader) key other →
      Relation.TransGen (session.RefersTo library.loader) other other →
        ∃ last, evaluated = .error (.error (.badArrayLength last "constant refers to itself")) := by
  intro evaluated
  have steady := library.steady
  have hgrounded := hsteps.grounded library.keepsPaths (Session.grounded_empty _)
  have whole : ∀ {path package}, session.packageAt library.loader path = .ok package →
      ¬ package.Splits := Session.not_splits_of_packageAt hlibrary hsession
  have hlong : ∀ key last, session.LengthNames library.loader scope qualifier name key →
      session.ReachesIn library.loader 33 key last →
        evaluated = .error (.error (.badArrayLength last.2 "constant refers to itself")) := by
    intro key last hnames hreaches
    obtain ⟨package, later, hkey, underway, hanswer⟩ :=
      answer_of_lengthNames steady hgrounded hscope hnames
    exact hanswer.trans (answer_of_reachesIn_bound steady hgrounded whole hreaches underway hkey)
  -- in turn: that it ends, a value from references, references to a value, a cycle
  refine ⟨?_, fun value => ⟨fun h => ?_, ?_⟩, hlong, ?_⟩
  · have hscopeWhole := whole (packageAt_of_lookup hscope)
    exact ended_of_lasts (hlibrary.suits.lasting.arrayLength
      (fun hsplits => absurd hsplits hscopeWhole) _) hsession
  · obtain ⟨key, hnames⟩ := exists_lengthNames_of_answer library.keepsPaths h
    obtain ⟨package, later, hkey, underway, hanswer⟩ :=
      answer_of_lengthNames steady hgrounded hscope hnames
    obtain ⟨count, last, hcount, hreaches, hvalue⟩ :=
      exists_reachesIn_of_answer steady hgrounded whole underway (hanswer.symm.trans h)
    rw [hkey] at hreaches
    exact ⟨key, count, last, hnames, Nat.le_of_lt_succ hcount, hreaches, hvalue⟩
  · rintro ⟨key, count, last, hnames, hcount, hreaches, hvalue⟩
    obtain ⟨package, later, hkey, underway, hanswer⟩ :=
      answer_of_lengthNames steady hgrounded hscope hnames
    exact hanswer.trans (answer_of_reachesIn steady hgrounded whole hreaches hvalue
      (Nat.lt_succ_of_le hcount) underway hkey)
  · intro key other hnames hreach hcycle
    obtain ⟨last, hlast⟩ := Session.exists_reachesIn_of_cycle hreach hcycle 33
    exact ⟨last.2, hlong key last hnames hlast⟩

/-- A package with constants that refer to another one. -/
def Library.measured : Library :=
  Library.empty.add "a"
    ⟨"a.go", "package a\nimport \"lib\"\nconst N, P = ( (M) ), lib.Q\nconst M = lib.K"⟩

def LoadedPackage.measures : LoadedPackage :=
  ⟨"lib", "lib", [⟨"lib.go", "package lib\nimport \"a\"\nconst K, Q = 0x10, a.P"⟩]⟩

/-- Two references, the second to a package that was added by hand. -/
theorem Library.arrayLength_follows_references_measured :
    ∃ (session : Session) (held : Scope),
      Session.Steps measured.loader .empty session ∧
      session.packages.lookup held.package.path = some held.package ∧
      answer (arrayLength measured.loader held (.constant none "N")) session = .ok 16 ∧
      ∃ count last, session.ReachesIn measured.loader count ("a", "N") last ∧
        session.HasValue measured.loader last 16 := by
  have hlibrary : measured.IsAscii := by
    simp only [IsAscii, SourceUnit.isAscii_iff]
    decide +kernel
  have hadded : LoadedPackage.measures.IsAscii := by
    simp only [LoadedPackage.IsAscii, SourceUnit.isAscii_iff]
    decide +kernel
  have keeps := measured.keepsPaths
  have hempty := Session.grounded_empty measured.loader
  have hstep : Session.Steps measured.loader .empty (after (addPackage .measures) .empty) :=
    .single (.addPackage .measures)
  have hchecks : (answer (scope measured.loader "a" 0)
      (after (addPackage .measures) .empty)).toOption.any (fun held =>
        held.package.path == "a" &&
        (answer (arrayLength measured.loader held (.constant none "N"))
          (after (scope measured.loader "a" 0) (after (addPackage .measures) .empty))).toOption.any
            (· == 16)) = true := by
    decide +kernel
  obtain ⟨held, hheld, hchecks⟩ := exists_of_any_toOption hchecks
  obtain ⟨hpath, hchecks⟩ := Bool.and_eq_true_iff.mp hchecks
  obtain ⟨value, hanswer, hvalue⟩ := exists_of_any_toOption hchecks
  obtain rfl : value = 16 := eq_of_beq hvalue
  have hscope : Operation measured.loader (scope measured.loader "a" 0) := .scope "a" 0
  have hsteps := hstep.trans (hscope.steps keeps (after (addPackage .measures) .empty))
  have hlookup := lookup_of_answer_scope keeps (hstep.grounded keeps hempty) hheld .refl
  have hascii := lasting_of_lasts (hlibrary.suits.lasting.scope "a" 0)
    (Session.isAscii_empty.addPackage hadded)
  obtain ⟨-, hvalues, -, -⟩ := arrayLength_follows_references hlibrary hsteps hascii hlookup none "N"
  obtain ⟨key, count, last, hnames, -, hreaches, hlast⟩ := (hvalues 16).mp hanswer
  cases hnames
  rw [eq_of_beq hpath] at hreaches
  exact ⟨_, held, hsteps, hlookup, hanswer, count, last, hreaches, hlast⟩

end GoTrace
