import GoTrace.Proofs.Resolve.LegibleInterface
import GoTrace.Proofs.Resolve.Transparency
import GoTrace.Proofs.Workspace.PackageName

/-!
# Resolvers over a work space

A work space loads a package under the path that was asked for, and locates it under the name that it is
loaded with. So the caches of a resolver over a work space are transparent. Its packages are called by
their package clauses, whether they are found by their import path or by their directory.
-/

namespace GoTrace.Workspace

open Resolution

variable (workspace : Workspace) (files : FileSystem)

theorem steady : (workspace.loader files).Steady where
  path h := by
    obtain ⟨directory, units, -, -, -, rfl⟩ := exists_of_load h
    rfl
  name := nameOf_of_load

theorem faithful : (workspace.loader files).Faithful := by
  intro path loaded h
  obtain ⟨directory, units, -, -, -, rfl⟩ := exists_of_load h
  exact rfl

variable {workspace files}

theorem faithful_of_loadDirectory {directory : Path} {loaded : LoadedPackage}
    (h : workspace.loadDirectory files directory = .ok loaded) : loaded.Faithful := by
  unfold loadDirectory at h
  dsimp only at h
  split at h
  · cases h
  · rename_i importPath hpath
    cases hunits : files.packageSources (files.absolute directory) with
    | error cause =>
        rw [hunits] at h
        cases h
    | ok units =>
        rw [hunits] at h
        dsimp only [Except.bind, Bind.bind] at h
        unfold assemble at h
        split at h
        · rename_i package hpackage
          cases h
          split at hpackage
          · cases hpackage
          · cases hpackage
            exact rfl
        · cases h

/-- Whatever was asked of a resolver over a work space before, an interface resolves to what it resolves
to at once, unless it runs out of its bound. -/
theorem interface_eq_first {session : Session} (h : session.Secluded (workspace.loader files))
    {path name : String}
    (hends : answer (interface (workspace.loader files) path name) session ≠ .error .exhausted)
    (hends' : answer (interface (workspace.loader files) path name) .empty ≠ .error .exhausted) :
    answer (interface (workspace.loader files) path name) session =
      answer (interface (workspace.loader files) path name) .empty :=
  (h.sound (steady workspace files)).answer_interface (steady workspace files)
    (Session.sound_empty _) hends hends'

end GoTrace.Workspace
