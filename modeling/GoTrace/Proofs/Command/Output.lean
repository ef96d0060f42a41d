import GoTrace.Command.Output
import GoTrace.Proofs.FileTree.Making
import GoTrace.Proofs.FileTree.Missing

/-!
# The package of a directory that is yet to be made

The package of a generated file is chosen before the directory of the file is made. Its import path is the
one that the directory has afterwards.
-/

namespace GoTrace

open FileSystem

variable {files later : FileSystem}

theorem run_telling {path : Path} {action : FileAction Unit}
    (h : (writeOutput.telling path action).run.run files = (.ok (), later)) :
    action.run.run files = (.ok (), later) := by
  cases hrun : action.run.run files with
  | mk result middle =>
      have htold : (writeOutput.telling path action).run.run files =
          (result.mapError (.write path), middle) := by
        have hrun' : StateT.run action files = (result, middle) := hrun
        change StateT.run (Except.mapError (CommandError.write path) <$> action) files = _
        rw [StateT.run_map, hrun']
        rfl
      obtain ⟨hresult, rfl⟩ := Prod.mk.inj (htold.symm.trans h)
      cases result with
      | error cause => cases hresult
      | ok _ => rfl

theorem isDirectory_dot (h : files.IsDirectoryAt files.current) : files.isDirectory .dot = true := by
  have hwalks : files.Walks files.current [.stay] 0 files.current := .pause .stay h (.done _)
  exact isDirectory_iff.mpr ⟨rfl, files.current, ⟨0, Nat.zero_le _, hwalks⟩, h⟩

theorem grows_of_writeOutput {file : Path} {text : String} (hcurrent : files.IsDirectoryAt files.current)
    (h : (writeOutput file text).run.run files = (.ok (), later)) :
    files.GrowsInto later ∧ later.isDirectory (directoryOf file) = true := by
  have hwrite {files : FileSystem} (hcurrent : files.IsDirectoryAt files.current)
      (h : (writeOutput.telling file (FileAction.write file text.toUTF8)).run.run files =
        (.ok (), later)) : files.GrowsInto later :=
    FileAction.grows_of_write hcurrent (run_telling h)
  have hdot (h : (writeOutput.telling file (FileAction.write file text.toUTF8)).run.run files =
      (.ok (), later)) : files.GrowsInto later ∧ later.isDirectory .dot = true := by
    have hgrows := hwrite hcurrent h
    exact ⟨hgrows, hgrows.isDirectory (isDirectory_dot hcurrent)⟩
  unfold writeOutput at h
  unfold directoryOf
  cases hparent : file.parent? with
  | none =>
      rw [hparent] at h
      exact hdot h
  | some parent =>
      rw [hparent] at h
      dsimp only at h ⊢
      by_cases hempty : parent.octets.isEmpty = true
      · rw [if_pos hempty] at h ⊢
        exact hdot h
      · rw [if_neg hempty] at h ⊢
        rw [FileAction.run_bind] at h
        cases hmake : (writeOutput.telling parent (FileAction.makeDirectories parent)).run.run files with
        | mk result middle =>
            rw [hmake] at h
            cases result with
            | error cause => cases h
            | ok _ =>
                obtain ⟨hgrows, hdirectory⟩ := FileAction.grows_of_makeDirectories (run_telling hmake)
                have hparent := hdirectory fun hnil => hempty (List.isEmpty_iff.mpr hnil)
                have hmiddle : middle.IsDirectoryAt middle.current := by
                  rw [hgrows.current]
                  exact hgrows.isDirectoryAt hcurrent
                have hlast := hwrite hmiddle h
                exact ⟨hgrows.trans hlast, hlast.isDirectory hparent⟩

/-- A directory that is missing has the path that it will have, however it is made, and so the same import
path before and after a file is written to it: if its path has no steps up and no dangling links, and each
directory above it that is there has a path that the system takes. -/
theorem missing_has_path (hfiles : files.Grounded) {path : Path} (hup : .up ∉ path.components)
    (hlinks : files.NoneDangles path)
    (hfit : ∀ above ∈ ((Path.ofNames files.current).join path).ancestors,
      (files.canonical above).isOk = true → above.octets.length ≤ pathLimit) :
    (∀ later, files.GrowsInto later → later.isDirectory path = true →
        later.absolute path = files.absolute path) ∧
      (∀ later, (FileAction.makeDirectories path).run.run files = (.ok (), later) →
        later.absolute path = files.absolute path) ∧
      ∀ (workspace : Workspace) (file : Path) (text : String) (later : FileSystem),
        directoryOf file = path → (writeOutput file text).run.run files = (.ok (), later) →
          workspace.importPath? later path = workspace.importPath? files path := by
  have hmade {later : FileSystem} (hgrows : files.GrowsInto later)
      (hdirectory : later.isDirectory path = true) : later.absolute path = files.absolute path :=
    hfiles.absolute_of_grows hup hfit hlinks hgrows hdirectory
  refine ⟨fun later => hmade, fun later hmake => ?_, fun workspace file text later heq hwrite => ?_⟩
  · by_cases hempty : path.octets = []
    · -- the empty path needs no directories
      obtain ⟨octets⟩ := path
      obtain rfl : octets = [] := hempty
      cases hmake
      rfl
    · obtain ⟨hgrows, hdirectory⟩ := FileAction.grows_of_makeDirectories hmake
      exact hmade hgrows (hdirectory hempty)
  · obtain ⟨hgrows, hdirectory⟩ := grows_of_writeOutput hfiles.isDirectoryAt hwrite
    rw [Workspace.importPath?, Workspace.importPath?, hmade hgrows (heq ▸ hdirectory)]

/-! ## A link in the current directory -/

/-- The name of one letter that the current directory has below. -/
abbrev nameC : FileName := [0x63]

abbrev nameL : FileName := [0x6C]

/-- The name of the directory that the link leads to. -/
abbrev nameT : FileName := [0x74]

/-- The name of a directory that is made behind the link. -/
abbrev nameA : FileName := [0x61]

/-- A current directory with a link in it to a directory beside it. -/
def FileSystem.besideLink (name : FileName) : FileSystem where
  root := .directory [(name, .directory [(nameL, .link ⟨nameT⟩), (nameT, .directory [])])]
  current := [name]

section

variable {name : FileName}

theorem at?_besideLink (location : Location) :
    (FileSystem.besideLink name).root.at? (name :: location) =
      (Node.directory [(nameL, .link ⟨nameT⟩), (nameT, .directory [])]).at? location := by
  rw [FileSystem.besideLink, Node.at?, Node.entries, List.lookup_cons_self]
  rfl

theorem grounded_besideLink (hname : Path.IsName name) (hshort : isTooLong name = false)
    (hzero : 0 ∉ name) : (FileSystem.besideLink name).Grounded := by
  have hlink : (Node.link ⟨nameT⟩).HasNames := Node.hasNames_of_not_directory rfl
  have hinner : (Node.directory [(nameT, .directory [])]).HasNames :=
    Node.hasNames_cons (by decide) Node.hasNames_nil Node.hasNames_nil
  refine ⟨⟨Node.hasNames_cons hname (Node.hasNames_cons (by decide) hlink hinner) Node.hasNames_nil, ?_⟩,
    List.forall_mem_singleton.mpr hshort, List.forall_mem_singleton.mpr hzero⟩
  exact ⟨_, at?_besideLink []⟩

theorem walks_besideLink :
    (FileSystem.besideLink name).Walks [name] [.enter nameL] 1 [name, nameT] := by
  have htarget : (FileSystem.besideLink name).Walks [name] [.enter nameT] 0 [name, nameT] :=
    .enter (by decide) (isPlace_of_directory (at?_besideLink [nameT])) (.done _)
  exact .follow (by decide) (at?_besideLink [nameL]) htarget

/-- No path has a dangling link, as the only link there is leads to a directory. -/
theorem noneDangles_besideLink (path : Path) : (FileSystem.besideLink name).NoneDangles path := by
  intro before other after links location target hstrides hbefore hlink
  have hplace : location ++ [other] = [name] ++ [nameL] ∧ target = ⟨nameT⟩ := by
    simpa [FileSystem.besideLink, Node.nodes, Node.nodesOf] using Node.mem_nodes_of_at? hlink
  obtain ⟨rfl, hother⟩ := List.append_inj' hplace.1 rfl
  cases hother
  exact ⟨_, _, hbefore.append walks_besideLink⟩

end

/-- The missing directories are below a link. -/
theorem missing_has_path_link :
    (FileSystem.besideLink nameC).Grounded ∧ .up ∉ (Path.ofText "l/./a/b").components ∧
      (FileSystem.besideLink nameC).NoneDangles (.ofText "l/./a/b") ∧
      (FileSystem.besideLink nameC).absolute (.ofText "l/./a/b") = .ofText "/c/t/a/b" ∧
      ∃ later, (writeOutput (.ofText "l/./a/b/x.go") "package b\n").run.run (.besideLink nameC) =
          (.ok (), later) ∧
        ∀ workspace : Workspace, workspace.importPath? later (.ofText "l/./a/b") =
          workspace.importPath? (.besideLink nameC) (.ofText "l/./a/b") := by
  have hfiles : (FileSystem.besideLink nameC).Grounded :=
    grounded_besideLink (by decide) (by decide) (by decide)
  have hlinks : (FileSystem.besideLink nameC).NoneDangles (.ofText "l/./a/b") :=
    noneDangles_besideLink _
  have hup : .up ∉ (Path.ofText "l/./a/b").components := by
    decide +kernel
  have hfit : ∀ above ∈ ((Path.ofNames [nameC]).join (.ofText "l/./a/b")).ancestors,
      ((FileSystem.besideLink nameC).canonical above).isOk = true →
        above.octets.length ≤ pathLimit := by
    decide +kernel
  have hwritten : ((writeOutput (.ofText "l/./a/b/x.go") "package b\n").run.run
      (.besideLink nameC)).1 = .ok () := by
    decide +kernel
  obtain ⟨-, -, himport⟩ := missing_has_path hfiles hup hlinks hfit
  refine ⟨hfiles, hup, hlinks, by decide +kernel, ?_⟩
  revert hwritten
  cases hrun : (writeOutput (.ofText "l/./a/b/x.go") "package b\n").run.run (.besideLink nameC) with
  | mk result later =>
      rintro rfl
      exact ⟨later, rfl, fun workspace => himport workspace _ _ _ (by decide +kernel) hrun⟩

/-! ## Paths that the system does not take -/

def Path.dotted (count : Nat) (names : List FileName) : Path :=
  ⟨[Octet.slash].intercalate (List.replicate count [Octet.dot] ++ names)⟩

theorem isPlain_of_mem_dots {count : Nat} {segment : List UInt8}
    (h : segment ∈ List.replicate count [Octet.dot]) : Path.IsPlain segment := by
  rw [List.eq_of_mem_replicate h]
  exact ⟨by decide, by decide⟩

theorem isPlain_dots {name : FileName} (hname : Path.IsName name) (count : Nat) :
    ∀ segment ∈ name :: List.replicate count [Octet.dot], Path.IsPlain segment :=
  List.forall_mem_cons.mpr ⟨Path.isPlain_of_isName hname, fun _ => isPlain_of_mem_dots⟩

theorem isPlain_dotted {name : FileName} (hname : Path.IsName name) (count : Nat) :
    ∀ segment ∈ name :: List.replicate count [Octet.dot] ++ [nameL], Path.IsPlain segment :=
  List.forall_mem_append.mpr ⟨isPlain_dots hname count,
    List.forall_mem_singleton.mpr (Path.isPlain_of_isName (by decide))⟩

section

variable {name : FileName} {names : List FileName} (hne : names ≠ []) (count : Nat)

include hne

theorem octets_dotted_succ :
    (Path.dotted (count + 1) names).octets =
      Octet.dot :: Octet.slash :: (Path.dotted count names).octets := by
  have hmore : List.replicate count [Octet.dot] ++ names ≠ [] := List.append_ne_nil_of_right_ne_nil _ hne
  obtain ⟨first, rest, heq⟩ := List.exists_cons_of_ne_nil hmore
  rw [Path.dotted, Path.dotted, List.replicate_succ, List.cons_append, heq, List.intercalate_cons_cons]
  rfl

theorem length_dotted : (Path.dotted count names).octets.length =
    2 * count + (Path.dotted 0 names).octets.length := by
  induction count with
  | zero => rw [Nat.mul_zero, Nat.zero_add]
  | succ count ih =>
      rw [octets_dotted_succ hne, List.length_cons, List.length_cons, ih]
      omega

theorem mem_dotted {c : UInt8} (h : c ∈ (Path.dotted count names).octets) :
    c = Octet.dot ∨ c = Octet.slash ∨ c ∈ [Octet.slash].intercalate names := by
  induction count with
  | zero => exact .inr (.inr h)
  | succ count ih =>
      rw [octets_dotted_succ hne] at h
      rcases List.mem_cons.mp h with hdot | h
      · exact .inl hdot
      · rcases List.mem_cons.mp h with hslash | h
        · exact .inr (.inl hslash)
        · exact ih h

end

section

variable {name : FileName} (hname : Path.IsName name) (count : Nat)

theorem isAbsolute_dotted : (Path.dotted count [nameL, nameA]).isAbsolute = false := by
  cases count with
  | zero => rfl
  | succ count =>
      rw [Path.isAbsolute, octets_dotted_succ (List.cons_ne_nil _ _)]
      rfl

theorem segments_dotted : (Path.dotted count [nameL, nameA]).segments =
    List.replicate count [Octet.dot] ++ [nameL, nameA] := by
  have hslash : ∀ segment ∈ List.replicate count [Octet.dot] ++ [nameL, nameA], Octet.slash ∉ segment :=
    List.forall_mem_append.mpr ⟨fun segment hmem => (isPlain_of_mem_dots hmem).no_slash, by decide⟩
  exact Text.fieldsBy_intercalate (by simp) hslash

theorem up_notMem_dotted : .up ∉ (Path.dotted count [nameL, nameA]).components := by
  intro hmem
  have hplain : ∀ segment ∈ List.replicate count [Octet.dot] ++ [nameL, nameA],
      Path.component? segment ≠ some .up :=
    List.forall_mem_append.mpr ⟨fun segment hmem => (isPlain_of_mem_dots hmem).not_up, by decide⟩
  rw [Path.components, isAbsolute_dotted, if_neg Bool.false_ne_true, segments_dotted] at hmem
  rcases List.mem_append.mp hmem with hlead | hmem
  · split at hlead
    · cases List.mem_singleton.mp hlead
    · cases hlead
  · obtain ⟨segment, hsegment, hup⟩ := List.mem_filterMap.mp hmem
    exact hplain segment hsegment hup

theorem strides_dotted : (Path.dotted count [nameL, nameA]).strides =
    (List.replicate count .stay ++ [.enter nameL]) ++ [.enter nameA] := by
  have hlast : (Path.dotted count [nameL, nameA]).octets.getLast? = some 0x61 := by
    induction count with
    | zero => rfl
    | succ count ih =>
        have hoctets : (Path.dotted (count + 1) [nameL, nameA]).octets =
            [Octet.dot, Octet.slash] ++ (Path.dotted count [nameL, nameA]).octets :=
          octets_dotted_succ (by simp) count
        rw [hoctets, List.getLast?_append, ih, Option.some_or]
  have hstay : Path.stride? [Octet.dot] = some .stay := rfl
  rw [Path.strides_eq, segments_dotted, hlast, List.filterMap_append,
    List.filterMap_replicate_of_some hstay, List.append_assoc]
  simp [Path.stride?, Octet.dot, Octet.slash]

include hname

theorem join_dotted : (Path.ofNames [name]).join (Path.dotted count [nameL, nameA]) =
    Path.ofNames ((name :: List.replicate count [Octet.dot] ++ [nameL]) ++ [nameA]) := by
  have hnames : ∀ other ∈ [name], Path.IsName other := List.forall_mem_singleton.mpr hname
  have hlast := Path.getLast?_ofNames hnames (List.cons_ne_nil _ _)
  have hsegments : (name :: List.replicate count [Octet.dot] ++ [nameL]) ++ [nameA] =
      name :: (List.replicate count [Octet.dot] ++ [nameL, nameA]) := by simp
  have hmore : List.replicate count [Octet.dot] ++ [nameL, nameA] ≠ [] := by simp
  obtain ⟨first, rest, heq⟩ := List.exists_cons_of_ne_nil hmore
  have hempty : (Path.ofNames [name]).octets.isEmpty = false := rfl
  rw [Path.join, isAbsolute_dotted, if_neg Bool.false_ne_true, hempty, decide_eq_false hlast,
    Bool.or_false, if_neg Bool.false_ne_true, hsegments, Path.dotted, Path.ofNames, Path.ofNames, heq,
    List.intercalate_cons_cons, List.intercalate_singleton]
  simp

end

section

variable {name : FileName} {count : Nat}

theorem walks_dots :
    (FileSystem.besideLink name).Walks [name] (List.replicate count .stay ++ [.enter nameL]) 1
      [name, nameT] := by
  have hhere : (FileSystem.besideLink name).IsDirectoryAt [name] := ⟨_, at?_besideLink []⟩
  have hpauses : ∀ stride ∈ List.replicate count Stride.stay, stride.IsPause := by
    intro stride hmem
    rw [List.eq_of_mem_replicate hmem]
    exact .stay
  exact (Walks.pauses hpauses hhere).append walks_besideLink

theorem startOf_dotted : startOf (Path.dotted count [nameL, nameA]) [name] = [name] := by
  rw [startOf, isAbsolute_dotted, if_neg Bool.false_ne_true]

theorem makes_dotted (name : FileName) (hcheck : checkPath (Path.dotted count [nameL, nameA]) = .ok ()) :
    ∃ later, (FileAction.makeDirectories (Path.dotted count [nameL, nameA])).run.run (.besideLink name) =
        (.ok (), later) ∧
      later.canonical (Path.dotted count [nameL, nameA]) = .ok (.ofNames [name, nameT, nameA]) := by
  have hlast : FileAction.lastEntry? (Path.dotted count [nameL, nameA]).strides =
      some (List.replicate count .stay ++ [.enter nameL], nameA) := by
    rw [strides_dotted, FileAction.lastEntry?, List.reverse_append]
    simp
  have hparent : (FileSystem.besideLink name).walk .existing linkLimit
      (startOf (Path.dotted count [nameL, nameA]) [name]) (List.replicate count .stay ++ [.enter nameL]) =
        .ok [name, nameT] := by
    rw [startOf_dotted]
    exact walk_eq_ok_iff.mpr ⟨1, by decide, walks_dots⟩
  have hentries : (FileSystem.besideLink name).root.at? [name, nameT] = some (.directory []) :=
    at?_besideLink [nameT]
  have hrun := FileAction.run_makeDirectory hcheck hlast hparent hentries (by decide) rfl
  generalize hlater : { FileSystem.besideLink name with
    root := Node.put (.directory []) ([name, nameT] ++ [nameA]) (FileSystem.besideLink name).root } = later
    at hrun
  obtain ⟨hgrows, -⟩ := FileAction.grows_and_isDirectory hcheck (strides_dotted count) nofun hparent
    hentries (by decide) rfl hlater.symm
  have hnew : later.root.at? ([name, nameT] ++ [nameA]) = some (.directory []) := by
    rw [← hlater]
    exact Node.at?_put hentries _
  have hleads : later.Leads (Path.dotted count [nameL, nameA]) [name, nameT, nameA] := by
    have hlast : later.Walks [name, nameT] [.enter nameA] 0 [name, nameT, nameA] :=
      .enter (by decide) (isPlace_of_directory hnew) (.done _)
    have hcurrent : later.current = [name] := hgrows.current
    rw [Leads, hcurrent, startOf_dotted, strides_dotted]
    exact ⟨1, by decide, (hgrows.walks walks_dots).append hlast⟩
  refine ⟨later, ?_, canonical_eq_ok_iff.mpr ⟨.inl hcheck, _, hleads, rfl⟩⟩
  obtain ⟨hne, -⟩ := checkPath_eq_ok_iff.mp hcheck
  rw [FileAction.makeDirectories, Path.ancestors, FileAction.makeChain, List.isEmpty_eq_false_iff.mpr hne,
    if_neg Bool.false_ne_true]
  dsimp only
  rw [FileAction.run_tryCatch, hrun]

theorem not_leads_dotted (place : Location) :
    ¬ (FileSystem.besideLink name).Leads (Path.dotted count [nameL, nameA]) place := by
  have hnone : (FileSystem.besideLink name).root.at? ([name, nameT] ++ [nameA]) = none :=
    at?_besideLink [nameT, nameA]
  have hstart : startOf (Path.dotted count [nameL, nameA]) (FileSystem.besideLink name).current = [name] :=
    startOf_dotted
  rintro ⟨links, -, hwalks⟩
  rw [hstart, strides_dotted] at hwalks
  obtain ⟨middle, before, after, hbefore, hafter, -⟩ := hwalks.split
  obtain rfl : middle = [name, nameT] := (hbefore.unique walks_dots).2
  cases hafter with
  | pause hstride => cases hstride
  | enter _ hplace =>
      obtain ⟨node, hnode, -⟩ := hplace
      cases hnone.symm.trans hnode
  | follow _ hlink => cases hnone.symm.trans hlink

theorem chain_dots : Path.chain .slash ([] :: (name :: List.replicate count [Octet.dot])).reverse =
    Path.chain .slash ([] :: [name]).reverse := by
  induction count with
  | zero => rfl
  | succ count ih =>
      rw [List.replicate_succ', ← List.cons_append, Path.chain_concat_of_none rfl]
      exact ih

/-- Above the directory and the link there is only the current directory, and the root. -/
theorem ancestors_dotted (hname : Path.IsName name) :
    (Path.ofNames ((name :: List.replicate count [Octet.dot] ++ [nameL]) ++ [nameA])).ancestors =
      [Path.ofNames ((name :: List.replicate count [Octet.dot] ++ [nameL]) ++ [nameA]),
        Path.ofNames (name :: List.replicate count [Octet.dot] ++ [nameL]), Path.ofNames [name],
        .slash] := by
  have hsegments :
      (Path.ofNames ((name :: List.replicate count [Octet.dot] ++ [nameL]) ++ [nameA])).segments =
        [] :: ((name :: List.replicate count [Octet.dot] ++ [nameL]) ++ [nameA]) :=
    Path.segments_ofNames_concat (isPlain_dotted hname count) (by decide)
  have hlast := Path.chain_concat (by decide : Path.IsName nameL) (name :: List.replicate count [Octet.dot])
  have hone : Path.chain .slash ([] :: [name]).reverse = [Path.ofNames [name], .slash] :=
    Path.chain_concat hname []
  rw [Path.ancestors, Path.parents, Path.isAbsolute_ofNames, if_pos rfl, hsegments,
    Path.chain_concat (by decide), List.tail_cons, hlast, chain_dots, hone]

theorem not_holds_of_long {files : FileSystem} {path : Path} (h : pathLimit < path.octets.length) :
    ¬ files.holds path = true := by
  intro hholds
  obtain ⟨-, -, hfits⟩ := checkPath_eq_ok_iff.mp (exists_of_holds hholds).1
  omega

theorem holds_current (hgrounded : (FileSystem.besideLink name).Grounded) :
    (FileSystem.besideLink name).holds (.ofNames [name]) = true ∧
      (FileSystem.besideLink name).canonical (.ofNames [name]) = .ok (.ofNames [name]) := by
  have hname := hgrounded.isName name List.mem_cons_self
  have hsize : (Path.ofNames [name]).octets.length ≤ pathLimit := by
    have hshort := hgrounded.names_short name List.mem_cons_self
    have hle : name.length ≤ nameLimit := by simpa [isTooLong] using hshort
    rw [Path.ofNames, List.intercalate_singleton, List.length_cons]
    unfold nameLimit at hle
    unfold pathLimit
    omega
  have hzero : 0 ∉ (Path.ofNames [name]).octets := by
    intro hmem
    rcases Path.mem_octets_ofNames hmem with hslash | ⟨other, hother, hmem⟩
    · cases hslash
    · exact hgrounded.names_nonzero other hother hmem
  have hcheck : checkPath (.ofNames [name]) = .ok () :=
    checkPath_eq_ok_iff.mpr ⟨List.cons_ne_nil _ _, hzero, hsize⟩
  have hstrides : (Path.ofNames [name]).strides = [.enter name] :=
    Path.strides_ofNames_concat (List.forall_mem_nil _) hname
  have hleads : (FileSystem.besideLink name).Leads (.ofNames [name]) [name] :=
    ⟨0, Nat.zero_le _, hstrides ▸ hgrounded.walks⟩
  exact ⟨hgrounded.toWellFormed.holds_of_leads hcheck hleads,
    canonical_eq_ok_iff.mpr ⟨.inl hcheck, _, hleads, rfl⟩⟩

theorem absolute_dotted (hgrounded : (FileSystem.besideLink name).Grounded)
    (hlong : pathLimit <
      (Path.ofNames (name :: List.replicate count [Octet.dot] ++ [nameL])).octets.length) :
    (FileSystem.besideLink name).absolute (Path.dotted count [nameL, nameA]) =
      .ofNames [name, nameL, nameA] := by
  have hname := hgrounded.isName name List.mem_cons_self
  have hpath := Path.segments_ofNames_concat (isPlain_dotted hname count) (by decide : Path.IsName nameA)
  have hlink := Path.segments_ofNames_concat (isPlain_dots hname count) (by decide : Path.IsName nameL)
  have hlongAll : pathLimit < (Path.ofNames ((name :: List.replicate count [Octet.dot] ++ [nameL]) ++
      [nameA])).octets.length := by
    have hoctets := Path.octets_ofNames_concat (name :: List.replicate count [Octet.dot] ++ [nameL]) nameA
    rw [if_neg (by simp)] at hoctets
    rw [hoctets, List.length_append]
    exact Nat.lt_of_lt_of_le hlong (Nat.le_add_right _ _)
  obtain ⟨hthere, hstart⟩ := holds_current hgrounded
  have hnames : ∀ other ∈ [name], Path.IsName other := List.forall_mem_singleton.mpr hname
  have hmissing : ∀ other ∈ [nameL, nameA], Path.IsName other := by decide
  cases hcanonical : (FileSystem.besideLink name).canonical (Path.dotted count [nameL, nameA]) with
  | ok found =>
      obtain ⟨-, place, hleads, -⟩ := canonical_eq_ok_iff.mp hcanonical
      exact absurd hleads (not_leads_dotted place)
  | error cause =>
      have hcurrent : (FileSystem.besideLink name).current = [name] := rfl
      rw [absolute, hcanonical]
      dsimp only
      rw [isAbsolute_dotted, if_neg Bool.false_ne_true, hcurrent, join_dotted hname,
        ancestors_dotted hname,
        deepest_of_not_holds (List.cons_ne_nil _ _) (not_holds_of_long hlongAll)
          (Path.fileName?_of_segments hpath (by decide) (List.forall_mem_nil _)),
        deepest_of_not_holds (List.cons_ne_nil _ _) (not_holds_of_long hlong)
          (Path.fileName?_of_segments hlink (by decide) (List.forall_mem_nil _)),
        deepest_of_holds hthere, hstart]
      change Path.normal (List.foldl Path.child (Path.ofNames [name]) _).components = _
      rw [Path.foldl_child_ofNames hnames hmissing,
        Path.normal_ofNames (List.forall_mem_append.mpr ⟨hnames, hmissing⟩)]
      rfl

end

/-- A link behind so many dots that its path from the root is too long is passed over. -/
theorem missing_has_other_path :
    (FileSystem.besideLink (List.replicate 100 0x63)).Grounded ∧
      .up ∉ (Path.dotted 2000 [nameL, nameA]).components ∧
      (FileSystem.besideLink (List.replicate 100 0x63)).NoneDangles (Path.dotted 2000 [nameL, nameA]) ∧
      (FileSystem.besideLink (List.replicate 100 0x63)).absolute (Path.dotted 2000 [nameL, nameA]) =
        .ofNames [List.replicate 100 0x63, nameL, nameA] ∧
      ∃ later, (FileAction.makeDirectories (Path.dotted 2000 [nameL, nameA])).run.run
            (.besideLink (List.replicate 100 0x63)) = (.ok (), later) ∧
        later.absolute (Path.dotted 2000 [nameL, nameA]) =
          .ofNames [List.replicate 100 0x63, nameT, nameA] := by
  have hgrounded : (FileSystem.besideLink (List.replicate 100 0x63)).Grounded :=
    grounded_besideLink (by decide) (by decide +kernel) (by decide)
  have hcheck : checkPath (Path.dotted 2000 [nameL, nameA]) = .ok () := by
    have hsize := length_dotted (List.cons_ne_nil nameL [nameA]) 2000
    refine checkPath_eq_ok_iff.mpr ⟨?_, fun hmem => ?_, ?_⟩
    · rw [octets_dotted_succ (List.cons_ne_nil _ _)]
      exact List.cons_ne_nil _ _
    · have hzero := mem_dotted (List.cons_ne_nil _ _) 2000 hmem
      revert hzero
      decide
    · rw [hsize]
      decide
  have hlong : pathLimit < (Path.ofNames (List.replicate 100 0x63 :: List.replicate 2000 [Octet.dot] ++
      [nameL])).octets.length := by
    have hsize := length_dotted (List.cons_ne_nil nameL []) 2000
    have hpath : Path.ofNames (List.replicate 100 0x63 :: List.replicate 2000 [Octet.dot] ++ [nameL]) =
        ⟨(Octet.slash :: List.replicate 100 0x63 ++ [Octet.slash]) ++
          (Path.dotted 2000 [nameL]).octets⟩ := by
      obtain ⟨first, rest, heq⟩ := List.exists_cons_of_ne_nil
        (List.concat_ne_nil nameL (List.replicate 2000 [Octet.dot]))
      rw [Path.ofNames, Path.dotted, List.cons_append, heq, List.intercalate_cons_cons]
      rfl
    rw [hpath, List.length_append, hsize]
    decide +kernel
  obtain ⟨later, hrun, hcanonical⟩ := makes_dotted (List.replicate 100 0x63) hcheck
  refine ⟨hgrounded, up_notMem_dotted _, noneDangles_besideLink _, absolute_dotted hgrounded hlong,
    later, hrun, ?_⟩
  rw [absolute, hcanonical]

end GoTrace
