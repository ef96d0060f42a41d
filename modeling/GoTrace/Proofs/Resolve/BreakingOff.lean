import GoTrace.Proofs.Grammar.SplitLength
import GoTrace.Proofs.Resolve.Depth

/-!
# When resolving breaks off

A call breaks off over a constant whose initialiser cannot be read, or over a file in which the length
of an array cannot. When there is neither in a library and in the packages of a session, every call
ends with a value or an error, whatever the session is.
-/

namespace GoTrace

open Resolution

/-- A failure after which the resolver cannot be used again. -/
def ResolveFailure.Breaks (failure : ResolveFailure) : Prop := ∀ cause, failure ≠ .error cause

theorem ResolveFailure.not_breaks_error (cause : ResolveError) :
    ¬ ResolveFailure.Breaks (.error cause) :=
  fun h => h cause rfl

theorem ended_of_lasts {α : Type} {fits : Session → Prop} {action : Resolution α}
    (h : Lasts ResolveFailure.Breaks fits action) {session : Session} (hs : fits session) :
    Ended (answer action session) := by
  intro failure hfailure
  have hgood := (h session hs).1 failure hfailure
  simpa [ResolveFailure.Breaks] using hgood

theorem lasting_of_lasts {α : Type} {fits : Session → Prop} {action : Resolution α}
    (h : Lasts ResolveFailure.Breaks fits action) {session : Session} (hs : fits session) :
    fits (after action session) := by
  refine (h session hs).2 ?_
  cases hanswer : answer action session with
  | ok value => trivial
  | error failure =>
      obtain ⟨cause, rfl⟩ := ended_of_lasts h hs failure hanswer
      trivial

/-! ## Libraries -/

namespace Library

variable {library : Library}

/-- Some source of the library has an array length that cannot be read, or a constant. -/
def Splits (library : Library) : Prop :=
  ∃ path units, library.units? path = some units ∧ ∃ unit ∈ units, SplitLength unit.text.toList ∨
    ∃ file, SourceFile.parse unit.text (some unit.fileName) = .ok file ∧ file.Splits

theorem exists_units_of_load {path : String} {loaded : LoadedPackage}
    (h : library.loader.load path = .ok (some loaded)) :
    library.units? path = some loaded.units := by
  simp only [loader, Except.ok.injEq, Option.map_eq_some_iff] at h
  obtain ⟨units, hunits, rfl⟩ := h
  exact hunits

theorem parsed_ne_splitCharacter (h : ¬ library.Splits) (path : String) :
    library.loader.parsed path ≠ .error .splitCharacter := by
  intro hparsed
  unfold Loader.parsed at hparsed
  split at hparsed
  · cases hparsed
  · cases hparsed
  · rename_i loaded hload
    obtain ⟨unit, hunit, cause, hread, heq⟩ := Package.exists_parse_error hparsed
    obtain rfl : cause = .splitCharacter := by
      cases cause with
      | splitCharacter => rfl
      | error cause => cases heq
      | exhausted => cases heq
    exact h ⟨path, loaded.units, exists_units_of_load hload, unit, hunit,
      .inl (Parser.splitLength_of_run hread)⟩

theorem spares_of_not_splits (h : ¬ library.Splits) :
    library.loader.Spares ResolveFailure.Breaks where
  keeps := library.keepsPaths
  errors := ResolveFailure.not_breaks_error
  parsed {path failure} hparsed hbreaks := by
    cases failure with
    | error cause => exact hbreaks cause rfl
    | splitCharacter => exact parsed_ne_splitCharacter h path hparsed
    | exhausted => exact library.loader.parsed_ne_exhausted path hparsed
  whole {path package} hparsed hsplits _ := by
    obtain ⟨loaded, hload, hparse⟩ := Loader.exists_load_of_parsed hparsed
    obtain ⟨file, hfile, hsplits⟩ := hsplits
    obtain ⟨unit, hunit, hread⟩ := Package.exists_parse_of_mem hparse hfile
    exact h ⟨path, loaded.units, exists_units_of_load hload, unit, hunit,
      .inr ⟨file, hread, hsplits⟩⟩

end Library

/-! ## Every call ends -/

/-- A text is read to the end unless it has an array length that cannot be read. A call over a library
comes to an end in every session, unless such a length or such a constant is in the library or in the
packages of the session. -/
theorem ends_unless_split (text : String) (library : Library) (session : Session) :
    (SplitLength text.toList ∨
      (∀ sourceName, Ended (SourceFile.parse text sourceName)) ∧ Ended (TypeExpr.parse text)) ∧
    (library.Splits ∨ session.Splits ∨
      (∀ path name, Ended (answer (interface library.loader path name) session)) ∧
      (∀ path, Ended (answer (resolvedPackage library.loader path) session)) ∧
      (∀ path unit, Ended (answer (scope library.loader path unit) session)) ∧
      ∀ scope expr, scope.package.Splits ∨
        Ended (answer (type library.loader scope expr) session)) := by
  constructor
  · by_cases htext : SplitLength text.toList
    · exact .inl htext
    · exact .inr ⟨fun _ => Parser.ended_of_not_splitLength _ _ htext,
        Parser.ended_of_not_splitLength _ _ htext⟩
  · by_cases hlibrary : library.Splits
    · exact .inl hlibrary
    by_cases hsession : session.Splits
    · exact .inr (.inl hsession)
    have spares := Library.spares_of_not_splits hlibrary
    have suits := suits_whole spares
    have hends {α : Type} {action : Resolution α}
        (h : Lasts ResolveFailure.Breaks
          (fun session => session.Splits → ¬ ResolveFailure.Breaks .splitCharacter) action) :
        Ended (answer action session) :=
      ended_of_lasts h fun hsplits => absurd hsplits hsession
    have hinterface := library.interface_lasts spares
    refine .inr (.inr ⟨fun path name => hends (hinterface path name),
      fun path => hends (suits.lasting.resolvedPackage hinterface path),
      fun path unit => hends (suits.lasting.scope path unit), fun scope expr => ?_⟩)
    by_cases hscope : scope.package.Splits
    · exact .inl hscope
    · exact .inr (hends (suits.lasting.type (fun hsplits => absurd hsplits hscope) expr))

/-- The second byte of the length ends inside its second character. -/
theorem parse_splitCharacter : TypeExpr.parse "[1é]int" = .error .splitCharacter := by
  rfl

end GoTrace
