import GoTrace.Proofs.FileTree.Canonical

/-!
# Walks and the links they follow

A walk as a relation: along strides it comes from one location to another and follows a number of links.
Walks along two lists of strides compose to one along both, and every walk along both is made of two.
-/

namespace GoTrace

/-- Strides that lead nowhere. -/
inductive Stride.IsPause : Stride → Prop where
  | stay : IsPause .stay
  | settle : IsPause .settle

namespace FileSystem

def IsDirectoryAt (files : FileSystem) (location : Location) : Prop :=
  ∃ entries, files.root.at? location = some (.directory entries)

/-- Along the strides a walk comes from one location to another, following so many links. -/
inductive Walks (files : FileSystem) : Location → List Stride → Nat → Location → Prop where
  | done (origin : Location) : Walks files origin [] 0 origin
  | pause {origin stride rest links place} (hstride : stride.IsPause)
      (hhere : files.IsDirectoryAt origin) (hrest : Walks files origin rest links place) :
      Walks files origin (stride :: rest) links place
  | up {origin rest links place} (hhere : files.IsDirectoryAt origin)
      (hrest : Walks files origin.dropLast rest links place) :
      Walks files origin (.up :: rest) links place
  | enter {origin name rest links place} (hshort : isTooLong name = false)
      (hplace : files.IsPlace (origin ++ [name]))
      (hrest : Walks files (origin ++ [name]) rest links place) :
      Walks files origin (.enter name :: rest) links place
  | follow {origin name target rest links place} (hshort : isTooLong name = false)
      (hlink : files.root.at? (origin ++ [name]) = some (.link target))
      (hrest : Walks files (startOf target origin) (target.strides ++ rest) links place) :
      Walks files origin (.enter name :: rest) (links + 1) place

variable {files : FileSystem} {origin middle place : Location} {strides : List Stride} {links : Nat}

theorem at?_entry {entries : List (FileName × Node)}
    (h : files.root.at? origin = some (.directory entries)) (name : FileName) :
    files.root.at? (origin ++ [name]) = entries.lookup name := by
  rw [Node.at?_append, h, Option.bind_some, Node.at?, Node.entries]
  cases entries.lookup name <;> rfl

theorem IsDirectoryAt.front {rest : Location} (h : files.IsDirectoryAt (origin ++ rest)) :
    files.IsDirectoryAt origin := by
  obtain ⟨entries, hentries⟩ := h
  rw [Node.at?_append] at hentries
  obtain ⟨node, hnode, hbelow⟩ := Option.bind_eq_some_iff.mp hentries
  cases rest with
  | nil => exact ⟨entries, hnode.trans hbelow⟩
  | cons name rest =>
      obtain ⟨above, entry, rfl, -, -⟩ := Node.exists_entries_of_at? hbelow
      exact ⟨above, hnode⟩

theorem IsDirectoryAt.root (h : files.IsDirectoryAt origin) : files.IsDirectoryAt [] := by
  have hroot : files.IsDirectoryAt ([] ++ origin) := h
  exact hroot.front

theorem IsDirectoryAt.isPlace_startOf (h : files.IsDirectoryAt origin) (path : Path) :
    files.IsPlace (startOf path origin) := by
  obtain ⟨entries, hentries⟩ := h
  unfold startOf
  split
  · exact isPlace_nil hentries nofun
  · exact isPlace_of_directory hentries

theorem IsPlace.not_link (h : files.IsPlace place) (target : Path) :
    files.root.at? place ≠ some (.link target) := by
  obtain ⟨node, hnode, hlink⟩ := h
  rw [hnode]
  exact fun heq => hlink target (Option.some.inj heq)

/-! ## Walks of the file system -/

section

variable {limit : Nat} {follow : Location → Path → List Stride → Except FileError Location}

theorem walks_of_walkWith
    (hfollow : ∀ {origin target rest place}, follow origin target rest = .ok place →
      ∃ links < limit, files.Walks (startOf target origin) (target.strides ++ rest) links place)
    (h : files.walkWith .existing follow origin strides = .ok place) :
    ∃ links ≤ limit, files.Walks origin strides links place := by
  induction strides generalizing origin with
  | nil =>
      cases h
      exact ⟨0, Nat.zero_le _, .done _⟩
  | cons stride rest ih =>
      rw [walkWith] at h
      split at h
      · cases h
      · rename_i entries hentries
        have hhere : files.IsDirectoryAt origin := ⟨_, hentries⟩
        cases stride with
        | stay =>
            obtain ⟨links, hle, hrest⟩ := ih h
            exact ⟨links, hle, .pause .stay hhere hrest⟩
        | settle =>
            obtain ⟨links, hle, hrest⟩ := ih h
            exact ⟨links, hle, .pause .settle hhere hrest⟩
        | up =>
            obtain ⟨links, hle, hrest⟩ := ih h
            exact ⟨links, hle, .up hhere hrest⟩
        | enter name =>
            dsimp only at h
            rw [if_neg (by rintro ⟨⟨⟩, -⟩)] at h
            have hentry := at?_entry hentries name
            split at h
            · cases h
            · rename_i hshort
              split at h
              · rename_i target hlookup
                obtain ⟨links, hlt, hrest⟩ := hfollow h
                exact ⟨links + 1, hlt, .follow (Bool.eq_false_iff.mpr hshort)
                  (hentry.trans hlookup) hrest⟩
              · rename_i node hlink hlookup
                obtain ⟨links, hle, hrest⟩ := ih h
                have hplace : files.IsPlace (origin ++ [name]) := ⟨node, hentry.trans hlookup, hlink⟩
                exact ⟨links, hle, .enter (Bool.eq_false_iff.mpr hshort) hplace hrest⟩
              · cases h
      · cases h

theorem walkWith_of_walks
    (hfollow : ∀ {origin target rest links place}, links < limit →
      files.Walks (startOf target origin) (target.strides ++ rest) links place →
        follow origin target rest = .ok place)
    (h : files.Walks origin strides links place) (hle : links ≤ limit) :
    files.walkWith .existing follow origin strides = .ok place := by
  induction h with
  | done origin => rfl
  | pause hstride hhere hrest ih =>
      obtain ⟨entries, hentries⟩ := hhere
      rw [walkWith, hentries]
      cases hstride with
      | stay => exact ih hle
      | settle => exact ih hle
  | up hhere hrest ih =>
      obtain ⟨entries, hentries⟩ := hhere
      rw [walkWith, hentries]
      exact ih hle
  | @enter origin name rest links place hshort hplace hrest ih =>
      obtain ⟨node, hnode, hlink⟩ := hplace
      obtain ⟨entries, hentries, hlookup⟩ := Node.exists_parent_of_at? hnode
      rw [walkWith, hentries]
      dsimp only
      rw [if_neg (by rintro ⟨⟨⟩, -⟩), hshort, if_neg Bool.false_ne_true, hlookup]
      cases node with
      | link target => exact absurd rfl (hlink target)
      | file content => exact ih hle
      | directory inner => exact ih hle
  | @follow origin name target rest links place hshort hlink hrest ih =>
      obtain ⟨entries, hentries, hlookup⟩ := Node.exists_parent_of_at? hlink
      rw [walkWith, hentries]
      dsimp only
      rw [if_neg (by rintro ⟨⟨⟩, -⟩), hshort, if_neg Bool.false_ne_true, hlookup]
      exact hfollow hle hrest

end

/-- A walk succeeds when it comes somewhere and follows no more links than it may. -/
theorem walk_eq_ok_iff {limit : Nat} : files.walk .existing limit origin strides = .ok place ↔
    ∃ links ≤ limit, files.Walks origin strides links place := by
  induction limit generalizing origin strides place with
  | zero =>
      rw [walk]
      constructor
      · refine walks_of_walkWith fun hfollow => ?_
        cases hfollow
      · rintro ⟨links, hle, hwalks⟩
        exact walkWith_of_walks (fun hlt => absurd hlt (Nat.not_lt_zero _)) hwalks hle
  | succ limit ih =>
      rw [walk]
      constructor
      · refine walks_of_walkWith fun hfollow => ?_
        obtain ⟨links, hle, hwalks⟩ := ih.mp hfollow
        exact ⟨links, Nat.lt_succ_of_le hle, hwalks⟩
      · rintro ⟨links, hle, hwalks⟩
        refine walkWith_of_walks (fun hlt hrest => ?_) hwalks hle
        exact ih.mpr ⟨_, Nat.le_of_lt_succ hlt, hrest⟩

namespace Walks

theorem append {first second : List Stride} {more : Nat} (h : files.Walks origin first links middle)
    (h' : files.Walks middle second more place) :
    files.Walks origin (first ++ second) (links + more) place := by
  induction h with
  | done => rwa [Nat.zero_add]
  | pause hstride hhere _ ih => exact .pause hstride hhere (ih h')
  | up hhere _ ih => exact .up hhere (ih h')
  | enter hshort hplace _ ih => exact .enter hshort hplace (ih h')
  | follow hshort hlink _ ih =>
      have hrest := ih h'
      rw [List.append_assoc] at hrest
      rw [Nat.add_right_comm]
      exact .follow hshort hlink hrest

/-- What is walked along two lists of strides is walked along the first and then along the second. -/
theorem split {first second : List Stride} (h : files.Walks origin (first ++ second) links place) :
    ∃ middle before after, files.Walks origin first before middle ∧
      files.Walks middle second after place ∧ links = before + after := by
  have hnone {origin place : Location} {strides : List Stride} {links : Nat}
      (h : files.Walks origin strides links place) :
      ∃ middle before after, files.Walks origin [] before middle ∧
        files.Walks middle strides after place ∧ links = before + after :=
    ⟨origin, 0, links, .done origin, h, (Nat.zero_add _).symm⟩
  generalize hall : first ++ second = strides at h
  induction h generalizing first with
  | done origin =>
      obtain ⟨rfl, rfl⟩ := List.append_eq_nil_iff.mp hall
      exact hnone (.done origin)
  | pause hstride hhere hrest ih =>
      cases first with
      | nil =>
          cases hall
          exact hnone (.pause hstride hhere hrest)
      | cons stride first =>
          cases hall
          obtain ⟨middle, before, after, hbefore, hafter, heq⟩ := ih rfl
          exact ⟨middle, before, after, .pause hstride hhere hbefore, hafter, heq⟩
  | up hhere hrest ih =>
      cases first with
      | nil =>
          cases hall
          exact hnone (.up hhere hrest)
      | cons stride first =>
          cases hall
          obtain ⟨middle, before, after, hbefore, hafter, heq⟩ := ih rfl
          exact ⟨middle, before, after, .up hhere hbefore, hafter, heq⟩
  | enter hshort hplace hrest ih =>
      cases first with
      | nil =>
          cases hall
          exact hnone (.enter hshort hplace hrest)
      | cons stride first =>
          cases hall
          obtain ⟨middle, before, after, hbefore, hafter, heq⟩ := ih rfl
          exact ⟨middle, before, after, .enter hshort hplace hbefore, hafter, heq⟩
  | follow hshort hlink hrest ih =>
      cases first with
      | nil =>
          cases hall
          exact hnone (.follow hshort hlink hrest)
      | cons stride first =>
          cases hall
          obtain ⟨middle, before, after, hbefore, hafter, heq⟩ := ih (List.append_assoc _ _ _)
          refine ⟨middle, before + 1, after, .follow hshort hlink hbefore, hafter, ?_⟩
          rw [heq, Nat.add_right_comm]

theorem unique {other : Location} {count : Nat} (h : files.Walks origin strides links place)
    (h' : files.Walks origin strides count other) : links = count ∧ place = other := by
  induction h generalizing count other with
  | done =>
      cases h'
      exact ⟨rfl, rfl⟩
  | pause hstride hhere hrest ih =>
      cases h' with
      | pause _ _ hrest' => exact ih hrest'
      | up => cases hstride
      | enter => cases hstride
      | follow => cases hstride
  | up hhere hrest ih =>
      cases h' with
      | pause hstride => cases hstride
      | up _ hrest' => exact ih hrest'
  | enter hshort hplace hrest ih =>
      cases h' with
      | pause hstride => cases hstride
      | enter _ _ hrest' => exact ih hrest'
      | follow _ hlink => exact absurd hlink (hplace.not_link _)
  | follow hshort hlink hrest ih =>
      cases h' with
      | pause hstride => cases hstride
      | enter _ hplace => exact absurd hlink (hplace.not_link _)
      | follow _ hlink' hrest' =>
          cases hlink.symm.trans hlink'
          obtain ⟨hlinks, hplace⟩ := ih hrest'
          exact ⟨congrArg (· + 1) hlinks, hplace⟩

theorem pauses {pauses : List Stride} (hpauses : ∀ stride ∈ pauses, stride.IsPause)
    (hhere : files.IsDirectoryAt origin) : files.Walks origin pauses 0 origin := by
  induction pauses with
  | nil => exact .done origin
  | cons stride rest ih =>
      obtain ⟨hstride, hrest⟩ := List.forall_mem_cons.mp hpauses
      exact .pause hstride hhere (ih hrest)

theorem isPlace (h : files.Walks origin strides links place) (horigin : files.IsPlace origin) :
    files.IsPlace place :=
  isPlace_of_walk horigin (walk_eq_ok_iff.mpr ⟨links, Nat.le_refl _, h⟩)

end Walks

/-! ## Where paths lead -/

/-- The path leads to the place, by no more links than a walk may follow. -/
def Leads (files : FileSystem) (path : Path) (place : Location) : Prop :=
  ∃ links ≤ linkLimit, files.Walks (startOf path files.current) path.strides links place

variable {path : Path}

theorem Leads.isPlace (h : files.Leads path place) (hstart : files.IsPlace (startOf path files.current)) :
    files.IsPlace place := by
  obtain ⟨links, -, hwalks⟩ := h
  exact hwalks.isPlace hstart

theorem Leads.unique {other : Location} (h : files.Leads path place) (h' : files.Leads path other) :
    place = other := by
  obtain ⟨links, -, hwalks⟩ := h
  obtain ⟨count, -, hwalks'⟩ := h'
  exact (hwalks.unique hwalks').2

theorem locate_eq_ok_iff :
    files.locate .existing path = .ok place ↔ checkPath path = .ok () ∧ files.Leads path place := by
  rw [locate, Leads, ← walk_eq_ok_iff]
  cases checkPath path with
  | error cause => exact ⟨nofun, nofun⟩
  | ok _ => exact ⟨fun h => ⟨rfl, h⟩, And.right⟩

theorem node_eq_ok_iff {node : Node} : files.node path = .ok node ↔
    checkPath path = .ok () ∧ ∃ place, files.Leads path place ∧ files.root.at? place = some node := by
  rw [FileSystem.node]
  cases hlocate : files.locate .existing path with
  | error cause =>
      refine ⟨nofun, fun ⟨hcheck, place, hleads, _⟩ => ?_⟩
      cases hlocate.symm.trans (locate_eq_ok_iff.mpr ⟨hcheck, hleads⟩)
  | ok place =>
      obtain ⟨hcheck, hleads⟩ := locate_eq_ok_iff.mp hlocate
      dsimp only [bind, Except.bind]
      constructor
      · intro h
        split at h
        · rename_i hnode
          cases h
          exact ⟨hcheck, place, hleads, hnode⟩
        · cases h
      · rintro ⟨-, other, hother, hnode⟩
        cases hlocate.symm.trans (locate_eq_ok_iff.mpr ⟨hcheck, hother⟩)
        rw [hnode]

theorem exists_of_holds (h : files.holds path = true) :
    checkPath path = .ok () ∧ ∃ place, files.Leads path place := by
  rw [holds] at h
  cases hnode : files.node path with
  | error cause =>
      rw [hnode] at h
      cases h
  | ok node =>
      obtain ⟨hcheck, place, hleads, -⟩ := node_eq_ok_iff.mp hnode
      exact ⟨hcheck, place, hleads⟩

theorem WellFormed.holds_of_leads (wellFormed : files.WellFormed) (hcheck : checkPath path = .ok ())
    (h : files.Leads path place) : files.holds path = true := by
  obtain ⟨node, hnode, -⟩ := h.isPlace (wellFormed.isPlace_startOf path)
  rw [holds, node_eq_ok_iff.mpr ⟨hcheck, place, h, hnode⟩]
  rfl

theorem isDirectory_iff : files.isDirectory path = true ↔
    checkPath path = .ok () ∧ ∃ place, files.Leads path place ∧ files.IsDirectoryAt place := by
  rw [isDirectory, Option.any_eq_true]
  constructor
  · rintro ⟨node, hnode, hdirectory⟩
    cases hread : files.node path with
    | error cause =>
        rw [hread] at hnode
        cases hnode
    | ok found =>
        rw [hread] at hnode
        cases hnode
        obtain ⟨hcheck, place, hleads, hplace⟩ := node_eq_ok_iff.mp hread
        cases node with
        | directory entries => exact ⟨hcheck, place, hleads, entries, hplace⟩
        | file content => cases hdirectory
        | link target => cases hdirectory
  · rintro ⟨hcheck, place, hleads, entries, hplace⟩
    refine ⟨.directory entries, ?_, rfl⟩
    rw [node_eq_ok_iff.mpr ⟨hcheck, place, hleads, hplace⟩]
    rfl

theorem canonical_eq_ok_iff {found : Path} : files.canonical path = .ok found ↔
    (checkPath path = .ok () ∨ checkPath path = .error .nameTooLong) ∧
      ∃ place, files.Leads path place ∧ found = Path.ofNames place := by
  have hmap : (files.walk .existing linkLimit (startOf path files.current) path.strides).map
      Path.ofNames = .ok found ↔ ∃ place, files.Leads path place ∧ found = Path.ofNames place := by
    cases hwalk : files.walk .existing linkLimit (startOf path files.current) path.strides with
    | error cause =>
        refine ⟨nofun, fun ⟨place, hleads, _⟩ => ?_⟩
        cases hwalk.symm.trans (walk_eq_ok_iff.mpr hleads)
    | ok place =>
        constructor
        · intro h
          cases h
          exact ⟨place, walk_eq_ok_iff.mp hwalk, rfl⟩
        · rintro ⟨other, hleads, rfl⟩
          cases hwalk.symm.trans (walk_eq_ok_iff.mpr hleads)
          rfl
  rw [canonical]
  split
  · rename_i hcheck
    simp [hmap, hcheck]
  · rename_i hcheck
    simp [hmap, hcheck]
  · rename_i cause hlong hcheck
    constructor
    · intro h
      cases h
    · rintro ⟨hchecks | hchecks, -⟩
      · cases hcheck.symm.trans hchecks
      · cases hcheck.symm.trans hchecks
        exact absurd rfl hlong

end FileSystem

end GoTrace
