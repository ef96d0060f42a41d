import GoTrace.FileTree.Change
import GoTrace.Proofs.FileTree.Growth

/-!
# Making directories and writing files

An action that succeeds has let the tree grow: directories that are made are new ones, and a file that is
written is new or has been a file before.
-/

namespace GoTrace

namespace FileAction

open FileSystem

variable {ε α β : Type} {files later : FileSystem} {path : Path}

theorem run_bind (action : ExceptT ε (StateM FileSystem) α) (next : α → ExceptT ε (StateM FileSystem) β)
    (files : FileSystem) :
    (action >>= next).run.run files =
      match action.run.run files with
      | (.ok value, later) => (next value).run.run later
      | (.error cause, later) => (.error cause, later) := by
  rw [ExceptT.run_bind, StateT.run_bind]
  cases action.run.run files with
  | mk result later => cases result <;> rfl

theorem run_tryCatch (action : FileAction α) (handle : FileError → FileAction α) (files : FileSystem) :
    (tryCatch action handle).run.run files =
      match action.run.run files with
      | (.ok value, later) => (.ok value, later)
      | (.error cause, later) => (handle cause).run.run later := by
  rw [show tryCatch action handle = ExceptT.tryCatch action handle from rfl, ExceptT.tryCatch,
    ExceptT.run_mk, StateT.run_bind]
  cases hrun : action.run.run files with
  | mk result later =>
      have hrun' : StateT.run action files = (result, later) := hrun
      rw [hrun']
      cases result <;> rfl

@[simp] theorem run_get (files : FileSystem) :
    (get : FileAction FileSystem).run.run files = (.ok files, files) := rfl

@[simp] theorem run_ofExcept (result : Except FileError α) (files : FileSystem) :
    (makeDirectory.ofExcept result).run.run files = (result, files) := by
  cases result <;> rfl

/-- The last entry that strides lead to is entered last, and only slashes may follow it. -/
theorem exists_of_lastEntry? {strides before : List Stride} {name : FileName}
    (h : lastEntry? strides = some (before, name)) :
    ∃ pauses, strides = before ++ .enter name :: pauses ∧ ∀ stride ∈ pauses, stride.IsPause := by
  unfold lastEntry? at h
  split at h
  · rename_i other before' heq
    cases h
    have hstrides := List.takeWhile_append_dropWhile (p := fun stride => decide (stride = .settle))
      (l := strides.reverse)
    rw [heq] at hstrides
    refine ⟨(strides.reverse.takeWhile fun stride => decide (stride = .settle)).reverse, ?_, ?_⟩
    · simpa using (congrArg List.reverse hstrides).symm
    · intro stride hmem
      have hsettle := List.all_eq_true.mp List.all_takeWhile stride (List.mem_reverse.mp hmem)
      rw [of_decide_eq_true hsettle]
      exact .settle
  · cases h

theorem grows_and_isDirectory {path : Path} {before pauses : List Stride} {name : FileName}
    {parent : Location} {entries : List (FileName × Node)} (hcheck : checkPath path = .ok ())
    (hstrides : path.strides = before ++ .enter name :: pauses)
    (hpauses : ∀ stride ∈ pauses, stride.IsPause)
    (hparent : files.walk .existing linkLimit (startOf path files.current) before = .ok parent)
    (hentries : files.root.at? parent = some (.directory entries)) (hshort : isTooLong name = false)
    (hfree : entries.lookup name = none)
    (hlater : later = { files with root := Node.put (.directory []) (parent ++ [name]) files.root }) :
    files.GrowsInto later ∧ later.isDirectory path = true := by
  have hgrows : files.GrowsInto later := by
    rw [hlater]
    refine ⟨.put hentries (fun old hlookup => ?_) fun _ => Node.not_link_of_at?_directory_nil, rfl⟩
    cases hlookup.symm.trans hfree
  have hnew : later.root.at? (parent ++ [name]) = some (.directory []) := by
    rw [hlater]
    exact Node.at?_put hentries _
  obtain ⟨links, hle, hwalks⟩ := walk_eq_ok_iff.mp hparent
  have hlast : later.Walks parent (.enter name :: pauses) 0 (parent ++ [name]) :=
    .enter hshort (isPlace_of_directory hnew) (.pauses hpauses ⟨[], hnew⟩)
  refine ⟨hgrows, isDirectory_iff.mpr ⟨hcheck, parent ++ [name], ⟨links, hle, ?_⟩, [], hnew⟩⟩
  rw [hgrows.current, hstrides]
  exact (hgrows.walks hwalks).append hlast

theorem run_makeDirectory {before : List Stride} {name : FileName} {parent : Location}
    {entries : List (FileName × Node)} (hcheck : checkPath path = .ok ())
    (hlast : lastEntry? path.strides = some (before, name))
    (hparent : files.walk .existing linkLimit (startOf path files.current) before = .ok parent)
    (hentries : files.root.at? parent = some (.directory entries)) (hshort : isTooLong name = false)
    (hfree : entries.lookup name = none) :
    (makeDirectory path).run.run files =
      (.ok (), { files with root := Node.put (.directory []) (parent ++ [name]) files.root }) := by
  rw [makeDirectory, run_bind, run_ofExcept, hcheck]
  dsimp only
  rw [run_bind, run_get]
  dsimp only
  rw [hlast]
  dsimp only
  rw [run_bind, run_ofExcept, hparent]
  dsimp only
  rw [hentries]
  dsimp only
  rw [hshort, if_neg Bool.false_ne_true, hfree]
  rfl

/-- Making a directory either fails and changes nothing, or adds an empty directory where nothing was. -/
theorem makeDirectory_cases (path : Path) (files : FileSystem) :
    (∃ cause, (makeDirectory path).run.run files = (.error cause, files)) ∨
      ∃ later, (makeDirectory path).run.run files = (.ok (), later) ∧ files.GrowsInto later ∧
        later.isDirectory path = true := by
  rw [makeDirectory, run_bind, run_ofExcept]
  cases hcheck : checkPath path with
  | error cause => exact .inl ⟨cause, rfl⟩
  | ok _ =>
      dsimp only
      rw [run_bind, run_get]
      dsimp only
      cases hlast : lastEntry? path.strides with
      | none =>
          dsimp only
          rw [run_bind, run_ofExcept]
          cases files.walk .existing linkLimit (startOf path files.current) path.strides with
          | error cause => exact .inl ⟨cause, rfl⟩
          | ok place => exact .inl ⟨_, rfl⟩
      | some entry =>
          obtain ⟨before, name⟩ := entry
          dsimp only
          rw [run_bind, run_ofExcept]
          cases hparent : files.walk .existing linkLimit (startOf path files.current) before with
          | error cause => exact .inl ⟨cause, rfl⟩
          | ok parent =>
              dsimp only
              split
              · rename_i entries hentries
                split
                · exact .inl ⟨_, rfl⟩
                · rename_i hshort
                  split
                  · exact .inl ⟨_, rfl⟩
                  · rename_i hfree
                    refine .inr ⟨_, rfl, ?_⟩
                    obtain ⟨pauses, hstrides, hpauses⟩ := exists_of_lastEntry? hlast
                    exact grows_and_isDirectory hcheck hstrides hpauses hparent hentries
                      (Bool.eq_false_iff.mpr hshort) (Option.not_isSome_iff_eq_none.mp hfree) rfl
              · exact .inl ⟨_, rfl⟩
              · exact .inl ⟨_, rfl⟩

theorem grows_of_unlessThere {cause : FileError}
    (h : (do if (← get).isDirectory path then pure () else throw cause : FileAction Unit).run.run files =
      (.ok (), later)) :
    files.GrowsInto later ∧ later.isDirectory path = true := by
  rw [run_bind, run_get] at h
  dsimp only at h
  split at h
  · cases h
    exact ⟨.refl _, ‹_›⟩
  · cases h

theorem grows_of_attempt
    (h : (tryCatch (makeDirectory path) fun cause => do
      if (← get).isDirectory path then pure () else throw cause).run.run files = (.ok (), later)) :
    files.GrowsInto later ∧ later.isDirectory path = true := by
  rw [run_tryCatch] at h
  rcases makeDirectory_cases path files with ⟨cause, hrun⟩ | ⟨made, hrun, hmade⟩
  · rw [hrun] at h
    exact grows_of_unlessThere h
  · rw [hrun] at h
    cases h
    exact hmade

/-- Where the directories of a path are made, it leads to a directory afterwards. -/
theorem grows_of_makeChain {paths : List Path}
    (h : (makeChain paths).run.run files = (.ok (), later)) :
    files.GrowsInto later ∧ ∀ path ∈ paths.head?, path.octets ≠ [] → later.isDirectory path = true := by
  induction paths generalizing files later with
  | nil => cases h
  | cons path above ih =>
      rw [List.head?_cons]
      simp only [Option.mem_some_iff, forall_eq']
      rw [makeChain] at h
      split at h
      · rename_i hempty
        cases h
        exact ⟨.refl _, fun hne => absurd (List.isEmpty_iff.mp hempty) hne⟩
      · -- the directory is made at once, or is there, or needs those above it
        suffices hmade : files.GrowsInto later ∧ later.isDirectory path = true from
          ⟨hmade.1, fun _ => hmade.2⟩
        dsimp only at h
        rw [run_tryCatch] at h
        rcases makeDirectory_cases path files with ⟨cause, hrun⟩ | ⟨made, hrun, hmade⟩
        · rw [hrun] at h
          dsimp only at h
          split at h
          · rw [run_bind] at h
            cases habove : (makeChain above).run.run files with
            | mk result middle =>
                rw [habove] at h
                cases result with
                | error cause => cases h
                | ok _ =>
                    obtain ⟨hgrows, hdirectory⟩ := grows_of_attempt h
                    exact ⟨(ih habove).1.trans hgrows, hdirectory⟩
          · exact grows_of_unlessThere h
        · rw [hrun] at h
          cases h
          exact hmade

theorem grows_of_makeDirectories (h : (makeDirectories path).run.run files = (.ok (), later)) :
    files.GrowsInto later ∧ (path.octets ≠ [] → later.isDirectory path = true) := by
  obtain ⟨hgrows, hdirectory⟩ := grows_of_makeChain h
  exact ⟨hgrows, hdirectory path rfl⟩

/-! ## Writing a file -/

/-- Where a file is written, there is no link: there is a node of another kind, or nothing yet. -/
inductive IsTarget (files : FileSystem) : Location → Prop where
  | place {location : Location} (h : files.IsPlace location) : IsTarget files location
  | missing {location : Location} {name : FileName} {entries : List (FileName × Node)}
      (hparent : files.root.at? location = some (.directory entries))
      (hfree : entries.lookup name = none) : IsTarget files (location ++ [name])

theorem isTarget_of_walkWith {location : Location}
    {follow : Location → Path → List Stride → Except FileError Location}
    (hfollow : ∀ {origin entries target rest}, files.root.at? origin = some (.directory entries) →
      follow origin target rest = .ok location → IsTarget files location)
    {origin : Location} {strides : List Stride} (horigin : files.IsPlace origin)
    (h : files.walkWith .toWrite follow origin strides = .ok location) :
    IsTarget files location := by
  induction strides generalizing origin with
  | nil =>
      cases h
      exact .place horigin
  | cons stride rest ih =>
      rw [walkWith] at h
      split at h
      · cases h
      · rename_i entries hentries
        have hhere := isPlace_of_directory hentries
        cases stride with
        | stay => exact ih hhere h
        | settle => exact ih hhere h
        | up => exact ih (isPlace_dropLast hentries (by rintro _ ⟨⟩)) h
        | enter name =>
            dsimp only at h
            split at h
            · cases h
            · split at h
              · cases h
              · split at h
                · exact hfollow hentries h
                · rename_i node hlink hlookup
                  exact ih ⟨node, (at?_entry hentries name).trans hlookup, hlink⟩ h
                · rename_i hfree
                  split at h
                  · cases h
                    exact .missing hentries hfree
                  · cases h
      · cases h

theorem isTarget_of_walk {links : Nat} {origin location : Location} {strides : List Stride}
    (horigin : files.IsPlace origin) (h : files.walk .toWrite links origin strides = .ok location) :
    IsTarget files location := by
  induction links generalizing origin strides with
  | zero =>
      rw [walk] at h
      refine isTarget_of_walkWith (fun _ hwalk => ?_) horigin h
      cases hwalk
  | succ links ih =>
      rw [walk] at h
      refine isTarget_of_walkWith (fun {origin entries target rest} hentries hwalk => ?_) horigin h
      have hhere : files.IsDirectoryAt origin := ⟨entries, hentries⟩
      exact ih (hhere.isPlace_startOf target) hwalk

theorem grows_of_write {content : ByteArray} (hcurrent : files.IsDirectoryAt files.current)
    (h : (write path content).run.run files = (.ok (), later)) : files.GrowsInto later := by
  rw [write, run_bind, run_get] at h
  dsimp only at h
  split at h
  · cases h
  · rename_i location hlocate
    have htarget : IsTarget files location := by
      rw [locate] at hlocate
      cases hcheck : checkPath path with
      | error cause =>
          rw [hcheck] at hlocate
          cases hlocate
      | ok _ =>
          rw [hcheck] at hlocate
          exact isTarget_of_walk (hcurrent.isPlace_startOf path) hlocate
    cases htarget with
    | place hplace =>
        obtain ⟨node, hnode, hlink⟩ := hplace
        rw [hnode] at h
        cases node with
        | link target => exact absurd rfl (hlink target)
        | directory entries => cases h
        | file old =>
            cases h
            rcases List.eq_nil_or_concat location with rfl | ⟨parent, name, rfl⟩
            · obtain ⟨entries, hroot⟩ := hcurrent.root
              cases hnode.symm.trans hroot
            · rw [List.concat_eq_append] at hnode ⊢
              obtain ⟨entries, hparent, hlookup⟩ := Node.exists_parent_of_at? hnode
              refine ⟨.put hparent (fun other hother => ?_) fun _ => Node.not_link_of_at?_file _, rfl⟩
              cases hother.symm.trans hlookup
              exact .file ..
    | @missing parent name entries hparent hfree =>
        rw [at?_entry hparent, hfree] at h
        cases h
        refine ⟨.put hparent (fun old hlookup => ?_) fun _ => Node.not_link_of_at?_file _, rfl⟩
        cases hlookup.symm.trans hfree

end FileAction

end GoTrace
