import GoTrace.Proofs.FileTree.Growth
import GoTrace.Proofs.FileTree.Segments

/-!
# Directories that are missing

The absolute path of a directory that is missing is the canonical path of the nearest directory above it
that is there, and the missing names. When the directory is made, a walk to it goes the same way up to
there. Then it is in directories that are new, where no link leads away from it.
-/

namespace GoTrace.FileSystem

/-- Each link that the strides come to leads somewhere. -/
def LinksLead (files : FileSystem) (origin : Location) (strides : List Stride) : Prop :=
  ∀ ⦃before name after links location target⦄, strides = before ++ .enter name :: after →
    files.Walks origin before links location →
      files.root.at? (location ++ [name]) = some (.link target) →
        ∃ count place, files.Walks origin (before ++ [.enter name]) count place

/-- None of the components of the path is a dangling link. -/
def NoneDangles (files : FileSystem) (path : Path) : Prop :=
  files.LinksLead (startOf path files.current) path.strides

variable {files later : FileSystem} {origin place : Location} {strides : List Stride} {links : Nat}

theorem LinksLead.front {more : List Stride} (h : files.LinksLead origin (strides ++ more)) :
    files.LinksLead origin strides := by
  intro before name after links location target heq hbefore hlink
  have hall : strides ++ more = before ++ .enter name :: (after ++ more) := by
    rw [heq, List.append_assoc]
    rfl
  exact h hall hbefore hlink

theorem Walks.eq_of_pauses (h : files.Walks origin strides links place)
    (hpauses : ∀ stride ∈ strides, stride.IsPause) : place = origin := by
  induction h with
  | done => rfl
  | pause _ _ _ ih => exact ih (List.forall_mem_cons.mp hpauses).2
  | up => cases (List.forall_mem_cons.mp hpauses).1
  | enter => cases (List.forall_mem_cons.mp hpauses).1
  | follow => cases (List.forall_mem_cons.mp hpauses).1

section

variable (hgrows : files.GrowsInto later) (horigin : files.IsPlace origin)

include hgrows horigin

/-- A walk without steps up goes the same way as before, or comes to something new: below what is new
there are no links. -/
theorem walks_or_new (hup : .up ∉ strides) (hlinks : files.LinksLead origin strides)
    (h : later.Walks origin strides links place) :
    files.Walks origin strides links place ∨ files.root.at? place = none := by
  induction strides using List.reverseRecOn generalizing links place with
  | nil =>
      cases h
      exact .inl (.done origin)
  | append_singleton front stride ih =>
      obtain ⟨middle, before, after, hbefore, hafter, rfl⟩ := h.split
      have hupFront : .up ∉ front := fun hmem => hup (List.mem_append_left _ hmem)
      cases ih hupFront hlinks.front hbefore with
      | inl hwalks =>
          cases hafter with
          | pause hstride hhere hrest =>
              cases hrest
              have hhere' := hgrows.isDirectoryAt_of_isPlace (hwalks.isPlace horigin) hhere
              exact .inl (hwalks.append (.pause hstride hhere' (.done _)))
          | up => exact absurd (List.mem_append_right front List.mem_cons_self) hup
          | enter hshort hplace hrest =>
              cases hrest
              exact (hgrows.isPlace_or_new hplace).imp_left fun hplace' =>
                hwalks.append (.enter hshort hplace' (.done _))
          | @follow _ name target _ after _ hshort hlink hrest =>
              obtain ⟨count, found, hthere⟩ := hlinks rfl hwalks (hgrows.root.links hlink)
              obtain ⟨hcount, heq⟩ := (hgrows.walks hthere).unique h
              exact .inl (hcount ▸ heq ▸ hthere)
      | inr hnew =>
          have hbelow (name : FileName) : files.root.at? (middle ++ [name]) = none := by
            rw [Node.at?_append, hnew]
            rfl
          cases hafter with
          | pause _ _ hrest =>
              cases hrest
              exact .inr hnew
          | up => exact absurd (List.mem_append_right front List.mem_cons_self) hup
          | enter _ _ hrest =>
              cases hrest
              exact .inr (hbelow _)
          | follow _ hlink => cases (hbelow _).symm.trans (hgrows.root.links hlink)

/-- What a walk enters last, and did not come to before, is entered by its name. -/
theorem exists_of_not_walks {front pauses : List Stride} {name : FileName}
    (hpauses : ∀ stride ∈ pauses, stride.IsPause) (hup : .up ∉ front)
    (hlinks : files.LinksLead origin (front ++ .enter name :: pauses))
    (h : later.Walks origin (front ++ .enter name :: pauses) links place) (hle : links ≤ linkLimit)
    (hnot : ¬ files.Walks origin (front ++ .enter name :: pauses) links place) :
    ∃ middle before, before ≤ linkLimit ∧ later.Walks origin front before middle ∧
      place = middle ++ [name] := by
  have hupAll : .up ∉ front ++ .enter name :: pauses := by
    intro hmem
    rcases List.mem_append.mp hmem with hmem | hmem
    · exact hup hmem
    · rcases List.mem_cons.mp hmem with heq | hmem
      · cases heq
      · cases hpauses _ hmem
  have hnew := (walks_or_new hgrows horigin hupAll hlinks h).resolve_left hnot
  rw [List.append_cons] at h
  obtain ⟨last, count, _, hlast, hstill, rfl⟩ := h.split
  obtain rfl : place = last := hstill.eq_of_pauses hpauses
  obtain ⟨middle, before, after, hbefore, hafter, rfl⟩ := hlast.split
  refine ⟨middle, before, by omega, hbefore, ?_⟩
  cases hafter with
  | pause hstride => cases hstride
  | enter _ _ hrest =>
      cases hrest
      rfl
  | follow _ hlink =>
      -- the link was there, so it leads to the same place as before, and that is not new
      have hlink' := hgrows.root.links hlink
      rcases walks_or_new hgrows horigin hup hlinks.front hbefore with hwalks | hmiddle
      · obtain ⟨count, found, hthere⟩ := hlinks rfl hwalks hlink'
        obtain rfl : found = place := ((hgrows.walks hthere).unique hlast).2
        obtain ⟨node, hnode, -⟩ := hthere.isPlace horigin
        cases hnew.symm.trans hnode
      · rw [Node.at?_append, hmiddle] at hlink'
        cases hlink'

end

/-! ## The nearest directory that is there -/

/-- A path that is there and the names that are missing below it lead to the location together. -/
def Recovers (files : FileSystem) (found : Path × List FileName) (location : Location) : Prop :=
  (∀ name ∈ found.2, Path.IsName name) ∧ ∃ existing, files.IsPlace existing ∧
    files.canonical found.1 = .ok (Path.ofNames existing) ∧ existing ++ found.2 = location

theorem deepest_of_holds {path : Path} {above : List Path} {missing : List FileName}
    (h : files.holds path = true) : files.deepest (path :: above) missing = (path, missing) := by
  cases above with
  | nil => rfl
  | cons next rest => rw [deepest, if_pos h]; exact List.cons_ne_nil _ _

theorem deepest_of_not_holds {path : Path} {above : List Path} {missing : List FileName}
    {name : FileName} (hne : above ≠ []) (h : ¬ files.holds path = true)
    (hname : path.fileName? = some name) :
    files.deepest (path :: above) missing = files.deepest above (name :: missing) := by
  rw [deepest, if_neg h, hname]
  exact hne

/-- Of the given paths, those that lead anywhere can be asked for. -/
def CanAsk (files : FileSystem) (paths : List Path) : Prop :=
  ∀ path ∈ paths, ∀ ⦃place⦄, files.Leads path place → checkPath path = .ok ()

section

open GoTrace.Path

variable (hfiles : files.WellFormed) (hgrows : files.GrowsInto later)

include hfiles hgrows

/-- Where a path leads later, its nearest directory that is there and what is missing lead now, if the same
holds of the paths above it. -/
theorem recovers_cons {path : Path} {before rest : List (List UInt8)} {name : FileName}
    {above : List Path} {missing : List FileName} (habsolute : path.isAbsolute = true)
    (hsegments : path.segments = ([] :: before) ++ name :: rest) (hname : IsName name)
    (hbefore : ∀ segment ∈ before, IsPlain segment)
    (hrest : ∀ segment ∈ rest, component? segment = none)
    (hlinks : files.LinksLead [] path.strides) (hask : files.CanAsk [path])
    (h : later.Leads path place) (hmissing : ∀ other ∈ missing, IsName other) (hne : above ≠ [])
    (habove : ∀ middle links, links ≤ linkLimit →
      later.Walks [] (before.filterMap stride?) links middle →
        files.Recovers (files.deepest above (name :: missing)) (middle ++ name :: missing)) :
    files.Recovers (files.deepest (path :: above) missing) (place ++ missing) := by
  obtain ⟨pauses, hstrides, hpauses⟩ := exists_strides hsegments hname hrest
  rw [List.filterMap_cons_none rfl] at hstrides
  by_cases hholds : files.holds path = true
  · rw [deepest_of_holds hholds]
    obtain ⟨hcheck, found, hleads⟩ := exists_of_holds hholds
    obtain rfl : found = place := (hgrows.leads hleads).unique h
    have hplace := hleads.isPlace (hfiles.isPlace_startOf path)
    exact ⟨hmissing, found, hplace, canonical_eq_ok_iff.mpr ⟨.inl hcheck, found, hleads, rfl⟩, rfl⟩
  · rw [deepest_of_not_holds hne hholds (fileName?_of_segments hsegments hname hrest)]
    obtain ⟨links, hle, hwalks⟩ := h
    rw [startOf, habsolute, if_pos rfl, hstrides] at hwalks
    have hroot : files.IsPlace [] := hfiles.isPlace_startOf slash
    have hnot : ¬ files.Walks [] (before.filterMap stride? ++ .enter name :: pauses) links place := by
      intro hthere
      have hleads : files.Leads path place := by
        rw [Leads, startOf, habsolute, if_pos rfl, hstrides]
        exact ⟨links, hle, hthere⟩
      exact hholds (hfiles.holds_of_leads (hask path (List.mem_singleton_self _) hleads) hleads)
    rw [hstrides] at hlinks
    obtain ⟨middle, count, hcount, hmiddle, rfl⟩ := exists_of_not_walks hgrows hroot hpauses
      (not_up_of_isPlain hbefore) hlinks hwalks hle hnot
    rw [List.append_assoc]
    exact habove middle count hcount hmiddle

theorem recovers_chain {segments : List (List UInt8)} (hplain : ∀ segment ∈ segments, IsPlain segment)
    (hlinks : files.LinksLead [] (segments.filterMap stride?))
    (hask : files.CanAsk (chain slash ([] :: segments).reverse)) (hle : links ≤ linkLimit)
    (h : later.Walks [] (segments.filterMap stride?) links place)
    {missing : List FileName} (hmissing : ∀ other ∈ missing, IsName other) :
    files.Recovers (files.deepest (chain slash ([] :: segments).reverse) missing) (place ++ missing) := by
  induction segments using List.reverseRecOn generalizing links place missing with
  | nil =>
      cases h
      have hslash : files.canonical slash = .ok (ofNames []) :=
        canonical_eq_ok_iff.mpr ⟨.inl rfl, [], ⟨0, Nat.zero_le _, .done []⟩, rfl⟩
      exact ⟨hmissing, [], hfiles.isPlace_startOf slash, hslash, rfl⟩
  | append_singleton before segment ih =>
      obtain ⟨hbefore, hsegment⟩ := List.forall_mem_append.mp hplain
      rw [List.filterMap_append] at hlinks h
      rcases (hsegment segment List.mem_cons_self).cases with hnone | hname
      · rw [chain_concat_of_none hnone] at hask ⊢
        obtain ⟨middle, count, _, hmiddle, hstill, rfl⟩ := h.split
        have hpauses := isPause_of_mem_filterMap (List.forall_mem_singleton.mpr hnone)
        obtain rfl : place = middle := hstill.eq_of_pauses hpauses
        exact ih hbefore hlinks.front hask (by omega) hmiddle hmissing
      · rw [chain_concat hname] at hask ⊢
        obtain ⟨haskFirst, haskRest⟩ := List.forall_mem_cons.mp hask
        have hstrides := strides_ofNames_concat hbefore hname
        rw [List.filterMap_cons_some (stride?_of_isName hname), List.filterMap_nil] at hlinks h
        have hleads : later.Leads (ofNames (before ++ [segment])) place := by
          rw [Leads, startOf, isAbsolute_ofNames, if_pos rfl, hstrides]
          exact ⟨links, hle, h⟩
        have hmore : ∀ other ∈ segment :: missing, IsName other :=
          List.forall_mem_cons.mpr ⟨hname, hmissing⟩
        refine recovers_cons hfiles hgrows (isAbsolute_ofNames _) (segments_ofNames_concat hbefore hname)
          hname hbefore (List.forall_mem_nil _) ?_ (List.forall_mem_singleton.mpr haskFirst) hleads hmissing
          (chain_ne_nil _ _) fun middle count hcount hmiddle =>
            ih hbefore hlinks.front haskRest hcount hmiddle hmore
        rw [hstrides]
        exact hlinks

/-- The same of a path with anything behind its last name, by the directories above it. -/
theorem recovers_ancestors {path : Path} {segments : List (List UInt8)}
    (hsegments : path.segments = [] :: segments) (hplain : ∀ segment ∈ segments, IsPlain segment)
    (habsolute : path.isAbsolute = true) (hlinks : files.LinksLead [] path.strides)
    (hask : files.CanAsk path.ancestors) (h : later.Leads path place) :
    files.Recovers (files.deepest path.ancestors []) place := by
  have hparents : path.parents = (chain slash ([] :: segments).reverse).tail := by
    rw [parents, habsolute, if_pos rfl, hsegments]
  rw [ancestors, hparents] at hask ⊢
  obtain ⟨haskPath, haskAbove⟩ := List.forall_mem_cons.mp hask
  rcases tail_chain_cases hplain with ⟨hnothing, htail⟩ | ⟨before, name, rest, rfl, hname, hrest, htail⟩
  · have hpauses : ∀ stride ∈ path.strides, stride.IsPause := by
      refine isPause_of_mem_strides ?_
      rw [hsegments]
      exact List.forall_mem_cons.mpr ⟨rfl, hnothing⟩
    have hroot : files.IsDirectoryAt files.current := hfiles.current
    have hleads : files.Leads path [] := by
      rw [Leads, startOf, habsolute, if_pos rfl]
      exact ⟨0, Nat.zero_le _, .pauses hpauses hroot.root⟩
    obtain rfl : place = [] := h.unique (hgrows.leads hleads)
    rw [htail]
    exact ⟨List.forall_mem_nil _, [], hfiles.isPlace_startOf slash,
      canonical_eq_ok_iff.mpr ⟨.inl (haskPath hleads), [], hleads, rfl⟩, rfl⟩
  · obtain ⟨hbefore, -⟩ := List.forall_mem_append.mp hplain
    have hsegments : path.segments = ([] :: before) ++ name :: rest := hsegments
    obtain ⟨pauses, hstrides, -⟩ := exists_strides hsegments hname hrest
    rw [List.filterMap_cons_none rfl] at hstrides
    have hfront : files.LinksLead [] (before.filterMap stride?) := (hstrides ▸ hlinks).front
    rw [htail] at haskAbove ⊢
    rw [← List.append_nil place]
    exact recovers_cons hfiles hgrows habsolute hsegments hname hbefore hrest hlinks
      (List.forall_mem_singleton.mpr haskPath) h (List.forall_mem_nil _) (chain_ne_nil _ _)
      fun middle count hcount hmiddle => recovers_chain hfiles hgrows hbefore hfront haskAbove hcount
        hmiddle (List.forall_mem_singleton.mpr hname)

end

/-! ## Behind the current directory -/

/-- By names the system takes, a walk comes to the directory that they lead to. -/
theorem IsDirectoryAt.walks (h : files.IsDirectoryAt place)
    (hshort : ∀ name ∈ place, isTooLong name = false) :
    files.Walks [] (place.map .enter) 0 place := by
  induction place using List.reverseRecOn with
  | nil => exact .done []
  | append_singleton front name ih =>
      obtain ⟨hfront, hname⟩ := List.forall_mem_append.mp hshort
      obtain ⟨entries, hentries⟩ := h
      obtain ⟨above, habove, -⟩ := Node.exists_parent_of_at? hentries
      rw [List.map_append]
      have hlast : files.Walks front [.enter name] 0 (front ++ [name]) :=
        .enter (hname name List.mem_cons_self) (isPlace_of_directory hentries) (.done _)
      exact (ih ⟨above, habove⟩ hfront).append hlast

/-- The current directory stands in a tree as it can be on disk, and the system takes its names. -/
structure Grounded (files : FileSystem) : Prop extends files.WellFormed where
  names_short : ∀ name ∈ files.current, isTooLong name = false
  names_nonzero : ∀ name ∈ files.current, 0 ∉ name

theorem Grounded.isDirectoryAt (hfiles : files.Grounded) : files.IsDirectoryAt files.current :=
  hfiles.current

theorem Grounded.isName (hfiles : files.Grounded) : ∀ name ∈ files.current, Path.IsName name := by
  obtain ⟨entries, hcurrent⟩ := hfiles.current
  exact hfiles.toWellFormed.isName hcurrent

theorem Grounded.walks (hfiles : files.Grounded) :
    files.Walks [] (files.current.map .enter) 0 files.current :=
  hfiles.isDirectoryAt.walks hfiles.names_short

section

variable {path : Path}

theorem leads_join (hnames : ∀ name ∈ files.current, Path.IsName name)
    (hcurrent : files.Walks [] (files.current.map .enter) 0 files.current)
    (hne : path.octets ≠ []) (h : files.Leads path place) :
    files.Leads ((Path.ofNames files.current).join path) place := by
  rw [Leads, startOf, Path.isAbsolute_join (Path.isAbsolute_ofNames _), if_pos rfl]
  obtain ⟨links, hle, hwalks⟩ := h
  cases habsolute : path.isAbsolute with
  | true =>
      rw [startOf, habsolute, if_pos rfl] at hwalks
      rw [Path.join, habsolute, if_pos rfl]
      exact ⟨links, hle, hwalks⟩
  | false =>
      rw [startOf, habsolute, if_neg Bool.false_ne_true] at hwalks
      rw [Path.strides_join hnames habsolute hne]
      exact ⟨0 + links, by omega, hcurrent.append hwalks⟩

theorem Grounded.linksLead_join (hfiles : files.Grounded) (hne : path.octets ≠ [])
    (h : files.NoneDangles path) :
    files.LinksLead [] ((Path.ofNames files.current).join path).strides := by
  cases habsolute : path.isAbsolute with
  | true =>
      rw [NoneDangles, startOf, habsolute, if_pos rfl] at h
      rw [Path.join, habsolute, if_pos rfl]
      exact h
  | false =>
      rw [NoneDangles, startOf, habsolute, if_neg Bool.false_ne_true] at h
      rw [Path.strides_join hfiles.isName habsolute hne]
      intro before name after links location target heq hwalks hlink
      have hbehind {inner : List Stride} (hbefore : before = files.current.map .enter ++ inner)
          (hstrides : path.strides = inner ++ .enter name :: after) :
          ∃ count place, files.Walks [] (before ++ [.enter name]) count place := by
        subst hbefore
        obtain ⟨middle, count, more, hmiddle, hinner, rfl⟩ := hwalks.split
        obtain rfl : middle = files.current := (hmiddle.unique hfiles.walks).2
        obtain ⟨total, found, hthere⟩ := h hstrides hinner hlink
        rw [List.append_assoc]
        exact ⟨_, found, hfiles.walks.append hthere⟩
      rcases List.append_eq_append_iff.mp heq with ⟨inner, hinner, hstrides⟩ | ⟨inner, hinner, hstrides⟩
      · exact hbehind hinner hstrides
      · cases inner with
        | nil =>
            rw [List.append_nil] at hinner
            exact hbehind (hinner.symm.trans (List.append_nil _).symm) hstrides.symm
        | cons stride inner =>
            -- the link would be the current directory or above it
            cases hstrides
            obtain ⟨front, back, hcurrent, rfl, hback⟩ := List.map_eq_append_iff.mp hinner
            obtain ⟨other, rest, rfl, heq, -⟩ := List.map_eq_cons_iff.mp hback
            cases heq
            have hhere := hfiles.isDirectoryAt
            have hshort := hfiles.names_short
            rw [hcurrent] at hhere hshort
            obtain rfl : location = front := (hwalks.unique
              (hhere.front.walks fun name hmem => hshort name (List.mem_append_left _ hmem))).2
            rw [List.append_cons] at hhere
            obtain ⟨entries, hentries⟩ := hhere.front
            cases hlink.symm.trans hentries

theorem checkPath_of_nonzero (hne : path.octets ≠ []) (hzero : 0 ∉ path.octets) :
    checkPath path = if pathLimit < path.octets.length then .error .nameTooLong else .ok () := by
  rw [checkPath, if_neg (by simpa using hzero), List.isEmpty_eq_false_iff.mpr hne,
    if_neg Bool.false_ne_true]

theorem checkPath_eq_ok_iff : checkPath path = .ok () ↔
    path.octets ≠ [] ∧ 0 ∉ path.octets ∧ path.octets.length ≤ pathLimit := by
  unfold checkPath
  split
  · simp_all
  · split
    · simp_all
    · split
      · simp_all
      · simp_all

theorem Grounded.canAsk_ancestors (hfiles : files.Grounded) (hzero : 0 ∉ path.octets)
    (hfit : ∀ above ∈ ((Path.ofNames files.current).join path).ancestors,
      (files.canonical above).isOk = true → above.octets.length ≤ pathLimit) :
    files.CanAsk ((Path.ofNames files.current).join path).ancestors := by
  intro above habove place hleads
  have hall : 0 ∉ ((Path.ofNames files.current).join path).octets := by
    intro hmem
    rcases Path.mem_octets_join hmem with hmem | hslash | hmem
    · rcases Path.mem_octets_ofNames hmem with hslash | ⟨name, hname, hmem⟩
      · cases hslash
      · exact hfiles.names_nonzero name hname hmem
    · cases hslash
    · exact hzero hmem
  have habsolute : ((Path.ofNames files.current).join path).isAbsolute = true :=
    Path.isAbsolute_join (Path.isAbsolute_ofNames _)
  have hne : above.octets ≠ [] := by
    intro hnil
    have hhead := Path.isAbsolute_of_mem_ancestors habsolute habove
    rw [Path.isAbsolute, hnil] at hhead
    cases hhead
  have hcheck := checkPath_of_nonzero hne fun hmem =>
    hall ((Path.prefix_of_mem_ancestors habsolute habove).subset hmem)
  have hknown : checkPath above = .ok () ∨ checkPath above = .error .nameTooLong := by
    rw [hcheck]
    split
    · exact .inr rfl
    · exact .inl rfl
  have hcanonical := canonical_eq_ok_iff.mpr ⟨hknown, place, hleads, rfl⟩
  rw [hcheck, if_neg (Nat.not_lt.mpr (hfit above habove (by rw [hcanonical]; rfl)))]

/-- A directory has the same absolute path before and after it is made: if its path has no steps up and no
dangling links, and each directory above it that is there has a path that the system takes. -/
theorem Grounded.absolute_of_grows (hfiles : files.Grounded) (hup : .up ∉ path.components)
    (hfit : ∀ above ∈ ((Path.ofNames files.current).join path).ancestors,
      (files.canonical above).isOk = true → above.octets.length ≤ pathLimit)
    (hlinks : files.NoneDangles path) (hgrows : files.GrowsInto later)
    (hlater : later.isDirectory path = true) : later.absolute path = files.absolute path := by
  cases hcanonical : files.canonical path with
  | ok found => rw [absolute, absolute, hgrows.canonical hcanonical, hcanonical]
  | error cause =>
      obtain ⟨hcheck, place, hleads, -⟩ := isDirectory_iff.mp hlater
      obtain ⟨hne, hzero, -⟩ := checkPath_eq_ok_iff.mp hcheck
      have hplace := canonical_eq_ok_iff.mpr ⟨.inl hcheck, place, hleads, rfl⟩
      have hjoined : later.Leads ((Path.ofNames files.current).join path) place := by
        rw [← hgrows.current]
        refine leads_join ?_ ?_ hne hleads
        · rw [hgrows.current]
          exact hfiles.isName
        · rw [hgrows.current]
          exact hgrows.walks hfiles.walks
      have habsolute : ((Path.ofNames files.current).join path).isAbsolute = true :=
        Path.isAbsolute_join (Path.isAbsolute_ofNames _)
      obtain ⟨segments, hsegments⟩ := Path.segments_of_isAbsolute habsolute
      have hplain : ∀ segment ∈ segments, Path.IsPlain segment := fun segment hmem =>
        Path.isPlain_of_mem_segments_join hfiles.isName hup (hsegments ▸ List.mem_cons_of_mem _ hmem)
      obtain ⟨hmissing, existing, hexisting, hfound, heq⟩ := recovers_ancestors hfiles.toWellFormed
        hgrows hsegments hplain habsolute (hfiles.linksLead_join hne hlinks)
        (hfiles.canAsk_ancestors hzero hfit) hjoined
      obtain ⟨node, hnode, -⟩ := hexisting
      have hnames := hfiles.toWellFormed.isName hnode
      have hjoin : (if path.isAbsolute then path else (Path.ofNames files.current).join path) =
          (Path.ofNames files.current).join path := by
        rw [Path.join]
        split <;> rfl
      rw [absolute, absolute, hplace, hcanonical]
      dsimp only
      rw [hjoin, hfound, ← heq]
      change Path.ofNames _ = Path.normal (List.foldl Path.child (Path.ofNames existing) _).components
      rw [Path.foldl_child_ofNames hnames hmissing,
        Path.normal_ofNames (List.forall_mem_append.mpr ⟨hnames, hmissing⟩)]

end

end GoTrace.FileSystem
