import GoTrace.Proofs.FileTree.Walks

/-!
# Trees that grow

Making directories and writing files add to a tree: what was there stays what it was, and nothing new is a
link. So walks in a tree stay walks when the tree grows.
-/

namespace GoTrace

theorem lookup_assign {κ α : Type} [DecidableEq κ] [BEq κ] [LawfulBEq κ] (key other : κ) (value : α)
    (entries : List (κ × α)) :
    (assign key value entries).lookup other =
      if other = key then some value else entries.lookup other := by
  have hcons (key : κ) (value : α) (rest : List (κ × α)) :
      ((key, value) :: rest).lookup other = if other = key then some value else rest.lookup other := by
    rw [List.lookup_cons]
    by_cases h : other = key
    · rw [beq_iff_eq.mpr h, if_pos h]
    · rw [beq_false_of_ne h, if_neg h]
  induction entries with
  | nil => exact hcons key value []
  | cons entry rest ih =>
      rw [assign, hcons entry.1 entry.2 rest]
      by_cases hentry : entry.1 = key
      · subst hentry
        rw [if_pos rfl, hcons]
        split <;> rfl
      · rw [if_neg hentry, hcons entry.1 entry.2 (assign key value rest), ih]
        by_cases h : other = entry.1
        · subst h
          rw [if_pos rfl, if_neg hentry, if_pos rfl]
        · rw [if_neg h, if_neg h]

namespace Node

theorem mem_nodesOf {name : FileName} {entry found : Node} {entries : List (FileName × Node)}
    {location : Location} (hentry : (name, entry) ∈ entries) (hfound : (location, found) ∈ entry.nodes) :
    (name :: location, found) ∈ nodesOf entries := by
  induction entries with
  | nil => cases hentry
  | cons first rest ih =>
      rw [nodesOf]
      rcases List.mem_cons.mp hentry with rfl | hentry
      · exact List.mem_append_left _ (List.mem_map_of_mem hfound)
      · exact List.mem_append_right _ (ih hentry)

theorem mem_nodes_of_at? {node found : Node} {location : Location}
    (h : node.at? location = some found) : (location, found) ∈ node.nodes := by
  induction location generalizing node with
  | nil =>
      cases h
      cases found <;> exact List.mem_cons_self
  | cons name rest ih =>
      obtain ⟨entries, entry, rfl, hentry, hrest⟩ := exists_entries_of_at? h
      obtain ⟨_, _, hmem, -⟩ := List.lookup_eq_some_iff.mp hentry
      have hentry : (name, entry) ∈ entries := by
        rw [hmem]
        simp
      exact List.mem_cons_of_mem _ (mem_nodesOf hentry (ih hrest))

/-- Both are files, both are directories, or both are links to the same target. -/
inductive SameKind : Node → Node → Prop where
  | file (content content' : ByteArray) : SameKind (.file content) (.file content')
  | link (target : Path) : SameKind (.link target) (.link target)
  | directory (entries entries' : List (FileName × Node)) :
      SameKind (.directory entries) (.directory entries')

theorem SameKind.refl (node : Node) : node.SameKind node := by
  cases node <;> constructor

theorem SameKind.trans {first second third : Node} (h : first.SameKind second)
    (h' : second.SameKind third) : first.SameKind third := by
  cases h <;> cases h' <;> constructor

/-- The later tree has what the first one has, and besides it files and directories only. -/
structure GrowsInto (node later : Node) : Prop where
  kept : ∀ ⦃location found⦄, node.at? location = some found →
    ∃ found', later.at? location = some found' ∧ found.SameKind found'
  links : ∀ ⦃location target⦄, later.at? location = some (.link target) →
    node.at? location = some (.link target)

namespace GrowsInto

theorem refl (node : Node) : node.GrowsInto node :=
  ⟨fun _ found h => ⟨found, h, .refl found⟩, fun _ _ h => h⟩

theorem trans {first second third : Node} (h : first.GrowsInto second) (h' : second.GrowsInto third) :
    first.GrowsInto third := by
  refine ⟨fun location found hfound => ?_, fun _ _ hlink => h.links (h'.links hlink)⟩
  obtain ⟨middle, hmiddle, hkind⟩ := h.kept hfound
  obtain ⟨last, hlast, hkind'⟩ := h'.kept hmiddle
  exact ⟨last, hlast, hkind.trans hkind'⟩

theorem file (content content' : ByteArray) : (Node.file content).GrowsInto (.file content') := by
  constructor
  · intro location found hfound
    cases location with
    | nil =>
        cases hfound
        exact ⟨_, rfl, .file ..⟩
    | cons name rest => cases hfound
  · intro location target hlink
    cases location with
    | nil => cases hlink
    | cons name rest => cases hlink

theorem assign {entries : List (FileName × Node)} {name : FileName} {new : Node}
    (hold : ∀ old, entries.lookup name = some old → old.GrowsInto new)
    (hnew : entries.lookup name = none → ∀ location target, new.at? location ≠ some (.link target)) :
    (directory entries).GrowsInto (directory (assign name new entries)) := by
  constructor
  · intro location found hfound
    cases location with
    | nil =>
        cases hfound
        exact ⟨_, rfl, .directory ..⟩
    | cons first rest =>
        obtain ⟨old, hlookup, hbelow⟩ := Option.bind_eq_some_iff.mp hfound
        rw [at?, Node.entries, lookup_assign]
        by_cases hfirst : first = name
        · subst hfirst
          rw [if_pos rfl]
          exact (hold old hlookup).kept hbelow
        · rw [if_neg hfirst]
          exact ⟨found, hfound, .refl found⟩
  · intro location target hlink
    cases location with
    | nil => cases hlink
    | cons first rest =>
        rw [at?, Node.entries, lookup_assign] at hlink
        by_cases hfirst : first = name
        · subst hfirst
          rw [if_pos rfl, Option.bind_some] at hlink
          cases hlookup : entries.lookup first with
          | none => exact absurd hlink (hnew hlookup rest target)
          | some old =>
              rw [at?, Node.entries, hlookup]
              exact (hold old hlookup).links hlink
        · rw [if_neg hfirst] at hlink
          exact hlink

theorem put {node new : Node} {location : Location} {entries : List (FileName × Node)} {name : FileName}
    (hparent : node.at? location = some (.directory entries))
    (hold : ∀ old, entries.lookup name = some old → old.GrowsInto new)
    (hnew : entries.lookup name = none → ∀ location target, new.at? location ≠ some (.link target)) :
    node.GrowsInto (put new (location ++ [name]) node) := by
  induction location generalizing node with
  | nil =>
      cases hparent
      exact .assign hold hnew
  | cons first rest ih =>
      obtain ⟨above, child, rfl, hchild, hbelow⟩ := exists_entries_of_at? hparent
      rw [List.cons_append, Node.put, hchild, Option.getD_some]
      refine .assign (fun old hlookup => ?_) (fun hlookup => nomatch hlookup.symm.trans hchild)
      cases hlookup.symm.trans hchild
      exact ih hbelow

end GrowsInto

theorem not_link_of_at?_file (content : ByteArray) (location : Location) (target : Path) :
    (file content).at? location ≠ some (.link target) := by
  cases location <;> nofun

theorem not_link_of_at?_directory_nil (location : Location) (target : Path) :
    (directory []).at? location ≠ some (.link target) := by
  cases location <;> nofun

theorem at?_put {node : Node} {location : Location} {entries : List (FileName × Node)} {name : FileName}
    (hparent : node.at? location = some (.directory entries)) (new : Node) :
    (put new (location ++ [name]) node).at? (location ++ [name]) = some new := by
  induction location generalizing node with
  | nil =>
      cases hparent
      rw [List.nil_append, put, at?, Node.entries, lookup_assign, if_pos rfl]
      rfl
  | cons first rest ih =>
      obtain ⟨above, child, rfl, hchild, hbelow⟩ := exists_entries_of_at? hparent
      rw [List.cons_append, put, at?, Node.entries, lookup_assign, if_pos rfl, hchild]
      exact ih hbelow

end Node

namespace FileSystem

/-- Later there is what was there before, and besides it new files and directories only. -/
structure GrowsInto (files later : FileSystem) : Prop where
  root : files.root.GrowsInto later.root
  current : later.current = files.current

namespace GrowsInto

variable {files middle later : FileSystem} {location place origin : Location}

theorem refl (files : FileSystem) : files.GrowsInto files := ⟨.refl _, rfl⟩

theorem trans (h : files.GrowsInto middle) (h' : middle.GrowsInto later) : files.GrowsInto later :=
  ⟨h.root.trans h'.root, h'.current.trans h.current⟩

theorem isDirectoryAt (h : files.GrowsInto later) (hhere : files.IsDirectoryAt location) :
    later.IsDirectoryAt location := by
  obtain ⟨entries, hentries⟩ := hhere
  obtain ⟨found, hfound, hkind⟩ := h.root.kept hentries
  cases hkind
  exact ⟨_, hfound⟩

theorem isPlace (h : files.GrowsInto later) (hplace : files.IsPlace location) :
    later.IsPlace location := by
  obtain ⟨node, hnode, hlink⟩ := hplace
  obtain ⟨found, hfound, hkind⟩ := h.root.kept hnode
  refine ⟨found, hfound, ?_⟩
  rintro target rfl
  cases hkind
  exact hlink target rfl

theorem link (h : files.GrowsInto later) {target : Path}
    (hlink : files.root.at? location = some (.link target)) :
    later.root.at? location = some (.link target) := by
  obtain ⟨found, hfound, hkind⟩ := h.root.kept hlink
  cases hkind
  exact hfound

theorem isPlace_or_new (h : files.GrowsInto later) (hplace : later.IsPlace location) :
    files.IsPlace location ∨ files.root.at? location = none := by
  cases hnode : files.root.at? location with
  | none => exact .inr rfl
  | some node =>
      refine .inl ⟨node, hnode, ?_⟩
      rintro target rfl
      exact hplace.not_link target (h.link hnode)

theorem isDirectoryAt_of_isPlace (h : files.GrowsInto later) (hplace : files.IsPlace location)
    (hlater : later.IsDirectoryAt location) : files.IsDirectoryAt location := by
  obtain ⟨node, hnode, -⟩ := hplace
  obtain ⟨found, hfound, hkind⟩ := h.root.kept hnode
  obtain ⟨entries, hentries⟩ := hlater
  cases hfound.symm.trans hentries
  cases hkind
  exact ⟨_, hnode⟩

theorem walks (h : files.GrowsInto later) {strides : List Stride} {links : Nat}
    (hwalks : files.Walks origin strides links place) : later.Walks origin strides links place := by
  induction hwalks with
  | done origin => exact .done origin
  | pause hstride hhere _ ih => exact .pause hstride (h.isDirectoryAt hhere) ih
  | up hhere _ ih => exact .up (h.isDirectoryAt hhere) ih
  | enter hshort hplace _ ih => exact .enter hshort (h.isPlace hplace) ih
  | follow hshort hlink _ ih => exact .follow hshort (h.link hlink) ih

variable {path : Path}

theorem leads (h : files.GrowsInto later) (hleads : files.Leads path place) : later.Leads path place := by
  obtain ⟨links, hle, hwalks⟩ := hleads
  rw [Leads, h.current]
  exact ⟨links, hle, h.walks hwalks⟩

theorem isDirectory (h : files.GrowsInto later) (hpath : files.isDirectory path = true) :
    later.isDirectory path = true := by
  obtain ⟨hcheck, place, hleads, hplace⟩ := isDirectory_iff.mp hpath
  exact isDirectory_iff.mpr ⟨hcheck, place, h.leads hleads, h.isDirectoryAt hplace⟩

theorem canonical (h : files.GrowsInto later) {found : Path} (hpath : files.canonical path = .ok found) :
    later.canonical path = .ok found := by
  obtain ⟨hcheck, place, hleads, heq⟩ := canonical_eq_ok_iff.mp hpath
  exact canonical_eq_ok_iff.mpr ⟨hcheck, place, h.leads hleads, heq⟩

end GrowsInto

end FileSystem

end GoTrace
