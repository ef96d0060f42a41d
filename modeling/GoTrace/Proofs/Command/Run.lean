import GoTrace.Command.Run
import GoTrace.Proofs.Workspace.Resolver
import GoTrace.Proofs.Wrapper.ReadBack

/-!
# What a run generates

A run adds the packages of its directories, resolves what the user names, and writes a file for that. All
its packages come from files, so they are called by their package clauses, and the file is read back.
-/

namespace GoTrace.Generation

open Lexeme Resolution

variable {α β : Type} {workspace : Workspace} {files : FileSystem}

/-- A session of a run: it comes about by calls over loaders of faithful packages, which add faithful
packages. -/
abbrev InRun (session : Session) : Prop :=
  session.Reached Loader.Faithful fun _ => .named

/-- Where the part of a run succeeds, its result has the property, and the run can go on. -/
def Provides (property : α → Prop) (part : Generation α) : Prop :=
  ∀ ⦃session later value⦄, InRun session → part.run.run session = (.ok value, later) →
    InRun later ∧ property value

namespace Provides

variable {property : α → Prop} {property' : β → Prop}

theorem pure {value : α} (h : property value) : Provides property (pure value) := by
  intro session later found hs hrun
  cases hrun
  exact ⟨hs, h⟩

theorem throw {failure : CommandFailure} : Provides property (throw failure) := by
  intro session later found hs hrun
  cases hrun

theorem bind {part : Generation α} {next : α → Generation β} (h : Provides property part)
    (h' : ∀ value, property value → Provides property' (next value)) :
    Provides property' (part >>= next) := by
  intro session later found hs hrun
  change ExceptT.bindCont next (part session).1 (part session).2 = _ at hrun
  cases hpart : part session with
  | mk result middle =>
      rw [hpart] at hrun
      cases result with
      | error failure => cases hrun
      | ok value =>
          obtain ⟨hmiddle, hvalue⟩ := h hs hpart
          exact h' value hvalue hmiddle hrun

theorem mapM {f : α → Generation β} (h : ∀ value, Provides property' (f value))
    (values : List α) : Provides (fun found => ∀ value ∈ found, property' value) (values.mapM f) := by
  induction values with
  | nil => exact .pure nofun
  | cons value rest ih =>
      rw [List.mapM_cons]
      refine (h value).bind fun first hfirst => ih.bind fun others hothers => .pure ?_
      exact List.forall_mem_cons.mpr ⟨hfirst, hothers⟩

theorem reading {result : Except ResolveError α} (h : ∀ value, result = .ok value → property value) :
    Provides property (reading result) := by
  unfold Generation.reading
  split
  · exact .pure (h _ rfl)
  · exact .throw

theorem resolving {loader : Loader} (faithful : loader.Faithful) {action : Resolution α}
    (hcall : Call loader .named action)
    (h : ∀ ⦃session value⦄, InRun session → answer action session = .ok value → property value) :
    Provides property (resolving action) := by
  intro session later value hs hrun
  have hresolving : (Generation.resolving action).run.run session =
      ((answer action session).mapError (Failure.map .resolve), after action session) := rfl
  obtain ⟨hresult, rfl⟩ := Prod.mk.inj (hresolving.symm.trans hrun)
  have hanswer := mapError_eq_ok.mp hresult
  exact ⟨.call hs faithful hcall (by rw [hanswer]; trivial), h hs hanswer⟩

end Provides

theorem addDirectories_provides (directories : List Path) :
    Provides (fun _ => True) (addDirectories workspace files directories) := by
  unfold addDirectories
  refine Provides.bind (?_ : Provides (fun paths => ∀ path ∈ paths, True) _) fun _ _ => .pure trivial
  refine Provides.mapM (fun directory => ?_) directories
  refine (Provides.reading fun _ => Workspace.faithful_of_loadDirectory).bind fun loaded faithful => ?_
  have hcall : Call (workspace.loader files) .named (Resolution.addPackage loaded) :=
    .addPackage (.inl faithful)
  exact (Provides.resolving (Workspace.faithful workspace files) hcall fun _ _ _ _ => trivial).bind
    fun _ _ => .pure trivial

theorem interface_provides (path name : String) :
    Provides (fun found : Interface => found.Resolved ∧ found.Named)
      (Generation.resolving (Resolution.interface (workspace.loader files) path name)) := by
  have faithful := Workspace.faithful workspace files
  refine Provides.resolving faithful (.interface path name) fun session found hs hanswer => ?_
  have hany : session.Reached (fun _ => True) fun _ => .any :=
    hs.mono (fun _ _ => trivial) fun _ => ⟨fun _ => trivial, fun _ => trivial⟩
  exact ⟨⟨_, session, path, name, hany, hanswer⟩, hs.named faithful hanswer⟩

/-- A run generates the text of a file with interfaces that it has resolved, and the packages that they
refer to have identifiers for names. -/
theorem text_provides (options : Options) (targets : List Target) :
    Provides (fun generated => ∃ (package : PackageRef) (interfaces : List Interface)
        (file : WrapperFile), (∀ interface ∈ interfaces, interface.Resolved ∧ interface.Named) ∧
          (WrapperFile.empty (.choose workspace files options.output options.package package)
            options.tracer).addAll interfaces = (.ok (), file) ∧ generated = file.text)
      (text options targets workspace files) := by
  unfold text
  refine (addDirectories_provides options.directories).bind fun first _ => ?_
  refine (Provides.mapM (fun target => interface_provides _ _) targets).bind
    fun interfaces hinterfaces => ?_
  dsimp only
  split
  · rename_i file hfile
    exact .pure ⟨_, interfaces, file, hinterfaces, hfile, rfl⟩
  · exact .throw

/-- Whatever a run generates is read back, when the name of its package is an identifier and its
interfaces can be written there. -/
theorem readsBack {options : Options} {targets : List Target} {generated : String} {later : Session}
    (h : (text options targets workspace files).run.run .empty = (.ok generated, later)) :
    ∃ (package : PackageRef) (interfaces : List Interface) (file : WrapperFile),
      let output := OutputPackage.choose workspace files options.output options.package package
      (WrapperFile.empty output options.tracer).addAll interfaces = (.ok (), file) ∧
        generated = file.text ∧
        (IsIdentifier output.name → (∀ interface ∈ interfaces, interface.Writable output.path) →
          ∀ sourceName, ∃ parsed, SourceFile.parse generated sourceName = .ok parsed ∧
            WrapperFile.IsReadBack output
              (WrapperFile.importsOf output options.tracer file.interfaces.items)
              file.interfaces.items parsed) := by
  obtain ⟨-, package, interfaces, file, hinterfaces, hfile, rfl⟩ :=
    text_provides options targets .empty h
  refine ⟨package, interfaces, file, hfile, rfl, fun houtput hwritable sourceName => ?_⟩
  obtain ⟨parsed, hparsed, hread, -⟩ :=
    WrapperFile.parse_of_added houtput (fun interface hmem => (hinterfaces interface hmem).1)
      (fun interface hmem => (hinterfaces interface hmem).2) hwritable hfile sourceName
  exact ⟨parsed, hparsed, hread⟩

end GoTrace.Generation
