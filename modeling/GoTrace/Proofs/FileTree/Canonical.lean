import GoTrace.Proofs.FileTree.Names

/-!
# Canonical paths

A walk ends at a place: a node that is no link, below directories only. The path that spells the place
is found canonical again, so whatever is read by a canonical path is read where the path leads.
-/

namespace GoTrace

namespace Node

theorem at?_append (node : Node) (first second : Location) :
    node.at? (first ++ second) = (node.at? first).bind fun found => found.at? second := by
  induction first generalizing node with
  | nil => rfl
  | cons name rest ih =>
      rw [List.cons_append, at?, at?]
      cases node.entries.lookup name with
      | none => rfl
      | some entry => exact ih entry

theorem exists_entries_of_at? {node found : Node} {name : FileName} {rest : Location}
    (h : node.at? (name :: rest) = some found) :
    ∃ entries entry, node = .directory entries ∧ entries.lookup name = some entry ∧
      entry.at? rest = some found := by
  obtain ⟨entry, hentry, hfound⟩ := Option.bind_eq_some_iff.mp h
  cases node with
  | directory entries => exact ⟨entries, entry, rfl, hentry, hfound⟩
  | file content => cases hentry
  | link target => cases hentry

theorem exists_parent_of_at? {node found : Node} {before : Location} {name : FileName}
    (h : node.at? (before ++ [name]) = some found) :
    ∃ entries, node.at? before = some (.directory entries) ∧ entries.lookup name = some found := by
  rw [at?_append] at h
  obtain ⟨parent, hparent, hfound⟩ := Option.bind_eq_some_iff.mp h
  obtain ⟨entries, entry, rfl, hentry, heq⟩ := exists_entries_of_at? hfound
  cases heq
  exact ⟨entries, hparent, hentry⟩

/-- Paths can spell the names in all directories of a tree. -/
def HasNames (node : Node) : Prop :=
  ∀ ⦃location entries⦄, node.at? location = some (.directory entries) →
    ∀ entry ∈ entries, Path.IsName entry.1

theorem hasNames_of_not_directory {node : Node} (h : node.isDirectory = false) : node.HasNames := by
  intro location entries hentries
  cases location with
  | nil =>
      cases hentries
      cases h
  | cons name rest =>
      obtain ⟨_, _, rfl, -, -⟩ := exists_entries_of_at? hentries
      cases h

theorem hasNames_nil : (directory []).HasNames := by
  intro location entries hentries
  cases location with
  | nil =>
      cases hentries
      nofun
  | cons name rest => cases hentries

theorem hasNames_cons {name : FileName} {node : Node} {entries : List (FileName × Node)}
    (hname : Path.IsName name) (hnode : node.HasNames) (h : (directory entries).HasNames) :
    (directory ((name, node) :: entries)).HasNames := by
  intro location found hfound
  cases location with
  | nil =>
      cases hfound
      have hhere : (directory entries).at? [] = some (.directory entries) := rfl
      exact List.forall_mem_cons.mpr ⟨hname, h hhere⟩
  | cons first rest =>
      obtain ⟨_, entry, heq, hentry, hrest⟩ := exists_entries_of_at? hfound
      cases heq
      rw [List.lookup_cons] at hentry
      split at hentry
      · cases hentry
        exact hnode hrest
      · have hbelow : (directory entries).at? (first :: rest) = some (.directory found) := by
          rw [at?, Node.entries, hentry]
          exact hrest
        exact h hbelow

end Node

namespace FileSystem

/-- A tree as it can be on disk: paths can spell the names in its directories, and its current
directory is there. -/
structure WellFormed (files : FileSystem) : Prop where
  names : files.root.HasNames
  current : ∃ entries, files.root.at? files.current = some (.directory entries)

/-- Something that is no link stands at the location. -/
def IsPlace (files : FileSystem) (location : Location) : Prop :=
  ∃ node, files.root.at? location = some node ∧ ∀ target, node ≠ .link target

variable {files : FileSystem} {location : Location}

theorem isPlace_of_directory {entries : List (FileName × Node)}
    (h : files.root.at? location = some (.directory entries)) : files.IsPlace location :=
  ⟨_, h, nofun⟩

theorem isPlace_nil {node : Node} (h : files.root.at? location = some node)
    (hplace : ∀ target, node ≠ .link target) : files.IsPlace [] := by
  cases location with
  | nil => exact ⟨node, h, hplace⟩
  | cons name rest =>
      obtain ⟨entries, entry, hroot, -, -⟩ := Node.exists_entries_of_at? h
      exact ⟨_, rfl, by rw [hroot]; nofun⟩

theorem isPlace_dropLast {node : Node} (h : files.root.at? location = some node)
    (hplace : ∀ target, node ≠ .link target) : files.IsPlace location.dropLast := by
  rcases List.eq_nil_or_concat location with rfl | ⟨before, name, rfl⟩
  · exact ⟨node, h, hplace⟩
  · rw [List.concat_eq_append] at h ⊢
    obtain ⟨entries, hparent, -⟩ := Node.exists_parent_of_at? h
    rw [List.dropLast_concat]
    exact isPlace_of_directory hparent

theorem WellFormed.isName (wellFormed : files.WellFormed) {node : Node}
    (h : files.root.at? location = some node) : ∀ name ∈ location, Path.IsName name := by
  induction location using List.reverseRecOn generalizing node with
  | nil => nofun
  | append_singleton before name ih =>
      obtain ⟨entries, hparent, hentry⟩ := Node.exists_parent_of_at? h
      obtain ⟨_, _, hmem, -⟩ := List.lookup_eq_some_iff.mp hentry
      have hname := wellFormed.names hparent (name, node) (by rw [hmem]; simp)
      exact List.forall_mem_append.mpr ⟨ih hparent, List.forall_mem_singleton.mpr hname⟩

/-! ## Walks end at places -/

theorem isPlace_of_walkWith {follow : Location → Path → List Stride → Except FileError Location}
    (hfollow : ∀ {origin entries target rest}, files.root.at? origin = some (.directory entries) →
      follow origin target rest = .ok location → files.IsPlace location)
    {origin : Location} {strides : List Stride} (horigin : files.IsPlace origin)
    (h : files.walkWith .existing follow origin strides = .ok location) :
    files.IsPlace location := by
  induction strides generalizing origin with
  | nil =>
      cases h
      exact horigin
  | cons stride rest ih =>
      rw [walkWith] at h
      split at h
      · cases h
      · rename_i entries hentries
        have hhere := isPlace_of_directory hentries
        cases stride with
        | stay => exact ih hhere h
        | settle => exact ih hhere h
        | up => exact ih (isPlace_dropLast hentries nofun) h
        | enter name =>
            dsimp only at h
            rw [if_neg (fun hwrite => nomatch hwrite.1)] at h
            split at h
            · cases h
            · split at h
              · exact hfollow hentries h
              · rename_i node hlink hlookup
                refine ih ⟨node, ?_, hlink⟩ h
                rw [Node.at?_append, hentries, Option.bind_some, Node.at?, Node.entries, hlookup]
                rfl
              · cases h
      · cases h

theorem isPlace_of_walk {links : Nat} {origin : Location} {strides : List Stride}
    (horigin : files.IsPlace origin)
    (h : files.walk .existing links origin strides = .ok location) : files.IsPlace location := by
  induction links generalizing origin strides with
  | zero =>
      rw [walk] at h
      refine isPlace_of_walkWith (fun _ hwalk => ?_) horigin h
      cases hwalk
  | succ links ih =>
      rw [walk] at h
      refine isPlace_of_walkWith (fun {origin entries target rest} hentries hwalk => ?_) horigin h
      refine ih ?_ hwalk
      unfold startOf
      split
      · exact isPlace_nil hentries nofun
      · exact isPlace_of_directory hentries

theorem WellFormed.isPlace_startOf (wellFormed : files.WellFormed) (path : Path) :
    files.IsPlace (startOf path files.current) := by
  obtain ⟨entries, hcurrent⟩ := wellFormed.current
  unfold startOf
  split
  · exact isPlace_nil hcurrent nofun
  · exact isPlace_of_directory hcurrent

theorem exists_of_canonical {path place : Path} (h : files.canonical path = .ok place) :
    ∃ location, files.walk .existing linkLimit (startOf path files.current) path.strides =
      .ok location ∧ place = Path.ofNames location := by
  cases hwalk : files.walk .existing linkLimit (startOf path files.current) path.strides with
  | error cause =>
      rw [canonical, hwalk] at h
      split at h <;> cases h
  | ok location =>
      rw [canonical, hwalk] at h
      split at h
      · exact ⟨location, rfl, (Except.ok.inj h).symm⟩
      · exact ⟨location, rfl, (Except.ok.inj h).symm⟩
      · cases h

theorem WellFormed.exists_place_of_canonical (wellFormed : files.WellFormed) {path place : Path}
    (h : files.canonical path = .ok place) :
    ∃ location, files.IsPlace location ∧ (∀ name ∈ location, Path.IsName name) ∧
      place = Path.ofNames location := by
  obtain ⟨location, hwalk, rfl⟩ := exists_of_canonical h
  obtain ⟨node, hnode, hlink⟩ := isPlace_of_walk (wellFormed.isPlace_startOf path) hwalk
  exact ⟨location, ⟨node, hnode, hlink⟩, wellFormed.isName hnode, rfl⟩

/-! ## Canonical paths are canonical -/

theorem eq_of_walkWith_names {follow : Location → Path → List Stride → Except FileError Location}
    {origin names : Location} (hplace : files.IsPlace (origin ++ names))
    (h : files.walkWith .existing follow origin (names.map .enter) = .ok location) :
    location = origin ++ names := by
  induction names generalizing origin with
  | nil => exact (Except.ok.inj h).symm.trans (List.append_nil origin).symm
  | cons name rest ih =>
      have hassoc : origin ++ name :: rest = (origin ++ [name]) ++ rest := by simp
      -- no link is on the way: what has something below it is a directory, and the last is no link
      obtain ⟨node, hnode, hlink⟩ := hplace
      have hstands := hnode
      rw [Node.at?_append] at hstands
      obtain ⟨here, hhere, hbelow⟩ := Option.bind_eq_some_iff.mp hstands
      obtain ⟨entries, entry, rfl, hentry, hrest⟩ := Node.exists_entries_of_at? hbelow
      have hentrylink : ∀ target, entry ≠ .link target := by
        rintro target rfl
        cases rest with
        | nil => exact hlink target (Option.some.inj hrest).symm
        | cons next rest => cases hrest
      rw [hassoc] at hnode ⊢
      refine ih ⟨node, hnode, hlink⟩ ?_
      rw [List.map_cons, walkWith, hhere] at h
      dsimp only at h
      rw [if_neg (fun hwrite => nomatch hwrite.1)] at h
      split at h
      · cases h
      · rw [hentry] at h
        cases entry with
        | link target => exact absurd rfl (hentrylink target)
        | file content => exact h
        | directory inner => exact h

theorem WellFormed.canonical_of_canonical (wellFormed : files.WellFormed) {path place : Path}
    (h : files.canonical path = .ok place) {node : Node} (hnode : files.node place = .ok node) :
    files.canonical place = .ok place := by
  obtain ⟨location, hplace, hnames, rfl⟩ := wellFormed.exists_place_of_canonical h
  unfold FileSystem.node locate at hnode
  cases hcheck : checkPath (Path.ofNames location) with
  | error cause =>
      rw [hcheck] at hnode
      cases hnode
  | ok _ =>
      rw [canonical, hcheck]
      dsimp only
      cases hwalk : files.walk .existing linkLimit
          (startOf (Path.ofNames location) files.current) (Path.ofNames location).strides with
      | error cause =>
          simp only [hcheck, hwalk, bind, Except.bind] at hnode
          cases hnode
      | ok found =>
          rw [Path.strides_ofNames hnames, startOf, Path.isAbsolute_ofNames, if_pos rfl, walk]
            at hwalk
          have hfound : found = location := eq_of_walkWith_names hplace hwalk
          rw [hfound]
          rfl

/-! ## Every absolute path is spelled by names -/

theorem mem_deepest {path : Path} {above : List Path} (missing : List FileName) :
    (files.deepest (path :: above) missing).1 ∈ path :: above := by
  induction above generalizing path missing with
  | nil => exact List.mem_singleton_self _
  | cons next above ih =>
      unfold deepest
      split
      · exact List.mem_cons_self
      · split
        · exact List.mem_cons_of_mem _ (ih _)
        · exact List.mem_cons_self

theorem WellFormed.exists_names_of_absolute (wellFormed : files.WellFormed) (path : Path) :
    ∃ names : List FileName, (∀ name ∈ names, Path.IsName name) ∧
      files.absolute path = Path.ofNames names := by
  cases hcanonical : files.canonical path with
  | ok place =>
      obtain ⟨location, -, hnames, rfl⟩ := wellFormed.exists_place_of_canonical hcanonical
      exact ⟨location, hnames, by rw [absolute, hcanonical]⟩
  | error cause =>
      rw [absolute, hcanonical]
      dsimp only
      generalize hjoined : (if path.isAbsolute then path
        else (Path.ofNames files.current).join path) = joined
      have habsolute : joined.isAbsolute = true := by
        rw [← hjoined]
        split
        · assumption
        · exact Path.isAbsolute_join rfl
      have hmem : (files.deepest joined.ancestors []).1 ∈ joined.ancestors := mem_deepest []
      have hexisting := Path.isAbsolute_of_mem_ancestors habsolute hmem
      refine Path.exists_normal_ofNames (Path.isAbsolute_foldl_child ?_ _)
      cases hstart : files.canonical (files.deepest joined.ancestors []).1 with
      | ok place =>
          obtain ⟨location, -, -, rfl⟩ := wellFormed.exists_place_of_canonical hstart
          rfl
      | error cause => exact hexisting

end FileSystem

end GoTrace
