import GoTrace.Proofs.FileTree.Canonical
import GoTrace.Proofs.Module.Lookup
import GoTrace.Proofs.Text.Octet
import GoTrace.Proofs.Workspace.PackageName

/-!
# Directories and import paths

A directory of a module has an import path, and the import path stands for that directory again: its
place in the main module comes before all others. So a package is the same whether it is read by its
directory or by its import path.
-/

namespace GoTrace

/-! ## Below a module -/

namespace GoModule

theorem root_of_read {files : FileSystem} {directory : Path} {module : GoModule}
    (h : read files directory = .ok (some module)) : module.root = directory := by
  unfold read at h
  cases htext : FileSystem.onPath (fileIn directory) (files.readText (fileIn directory)) with
  | error cause =>
      rw [htext] at h
      cases h
  | ok text =>
      rw [htext] at h
      obtain ⟨path, -, heq⟩ := Option.map_eq_some_iff.mp (Except.ok.inj h)
      rw [← heq]

theorem root_mem_ancestors {files : FileSystem} {directory : Path} {module : GoModule}
    (h : discover files directory = .ok (some module)) : module.root ∈ directory.ancestors := by
  unfold discover at h
  split at h
  · rename_i found hfound
    rw [root_of_read h]
    exact List.mem_of_find?_eq_some hfound
  · cases h

end GoModule

namespace Workspace

variable {workspace : Workspace} {module : GoModule} {files : FileSystem}

theorem discover_eq_ok {host : Host} {start : Path} {later : FileSystem}
    (h : discover host start = .ok (workspace, later)) :
    GoModule.discover host.files (host.files.absolute start) = .ok workspace.module := by
  unfold discover at h
  cases hmodule : GoModule.discover host.files (host.files.absolute start) with
  | error cause =>
      rw [hmodule] at h
      cases h
  | ok found =>
      rw [hmodule] at h
      cases h
      rfl

theorem exists_root {host : Host} {start : Path} {later : FileSystem}
    (hhost : host.files.WellFormed) (h : discover host start = .ok (workspace, later))
    (hmodule : workspace.module = some module) :
    ∃ names : List FileName, (∀ name ∈ names, Path.IsName name) ∧
      module.root = Path.ofNames names := by
  have hdiscover := discover_eq_ok h
  rw [hmodule] at hdiscover
  have hroot := GoModule.root_mem_ancestors hdiscover
  obtain ⟨names, hnames, habsolute⟩ := hhost.exists_names_of_absolute start
  rw [habsolute] at hroot
  obtain ⟨shorter, hshorter, heq⟩ := Path.exists_of_mem_ancestors hnames hroot
  exact ⟨shorter, fun name hmem => hnames name (hshorter.subset hmem), heq⟩

/-- The import path of what lies below a module, by names that are texts. -/
def pathBelow (module : GoModule) (more : List String) : String :=
  if more = [] then module.path
  else module.path ++ "/" ++ String.ofList (['/'].intercalate (more.map String.toList))

section

variable {more : List String}

theorem slashed_texts (more : List String) :
    slashed ((more.map Text.octets).map .name) =
      String.ofList (['/'].intercalate (more.map String.toList)) := by
  rw [slashed, List.map_map, List.filterMap_map, ← List.filterMap_eq_map]
  refine congrArg (fun names => String.ofList (['/'].intercalate names)) ?_
  refine List.filterMap_congr fun text _ => ?_
  simp [Text.ofOctets?_octets]

variable (hmore : ∀ text ∈ more, Path.IsName (Text.octets text))

include hmore

theorem slashed_eq_empty_iff : slashed ((more.map Text.octets).map .name) = "" ↔ more = [] := by
  constructor
  · intro hempty
    cases more with
    | nil => rfl
    | cons text rest =>
        have hchars := congrArg String.toList hempty
        rw [slashed_texts, String.toList_ofList] at hchars
        have hname := (hmore text List.mem_cons_self).ne_nil
        have htext : text.toList ≠ [] := fun hnil =>
          hname (Text.octets_eq_nil_iff.mpr (String.toList_eq_nil_iff.mp hnil))
        cases rest with
        | nil => exact absurd (by simpa using hchars) htext
        | cons next rest =>
            rw [List.map_cons, List.map_cons, List.intercalate_cons_cons] at hchars
            exact absurd (List.append_eq_nil_iff.mp (List.append_eq_nil_iff.mp hchars).1).1 htext
  · rintro rfl
    rfl

theorem fields_of_texts : (Text.fieldsBy (· = '/') (['/'].intercalate (more.map String.toList))).filter
    (fun segment => !segment.isEmpty) = more.map String.toList := by
  by_cases hne : more = []
  · subst hne
    rfl
  · have hslash : ∀ field ∈ more.map String.toList, '/' ∉ field :=
      List.forall_mem_map.mpr fun text htext hmem =>
        (hmore text htext).no_slash (Text.slash_mem_octets hmem)
    rw [Text.fieldsBy_intercalate (by simpa using hne) hslash, List.filter_eq_self]
    refine List.forall_mem_map.mpr fun text htext => ?_
    have hname := (hmore text htext).ne_nil
    simpa [Text.octets_eq_nil_iff] using hname

theorem directoryBelow_texts {outer : List FileName} (houter : ∀ name ∈ outer, Path.IsName name) :
    directoryBelow (Path.ofNames outer) (['/'].intercalate (more.map String.toList)) =
      Path.ofNames (outer ++ more.map Text.octets) := by
  have hnames : ∀ name ∈ more.map Text.octets, Path.IsName name := List.forall_mem_map.mpr hmore
  rw [directoryBelow, fields_of_texts hmore, ← Path.foldl_child_ofNames houter hnames, List.foldl_map,
    List.foldl_map]
  simp only [String.ofList_toList]

theorem importPath?_of_canonical (hmodule : workspace.module = some module) {directory : Path}
    (hdirectory : files.canonical directory = .ok directory)
    (hbelow : directory.relativeTo? module.root = some ((more.map Text.octets).map .name)) :
    workspace.importPath? files directory = some (pathBelow module more) := by
  have hplace : files.absolute directory = directory := by rw [FileSystem.absolute, hdirectory]
  rw [importPath?, hplace, hmodule]
  simp only [Option.bind_some, hbelow, Option.map_some, slashed_eq_empty_iff hmore, Option.some_or]
  rw [slashed_texts]
  rfl

theorem directory?_pathBelow (hmodule : workspace.module = some module) {outer : List FileName}
    (houter : ∀ name ∈ outer, Path.IsName name) (hroot : module.root = Path.ofNames outer)
    (hthere : files.isDirectory (Path.ofNames (outer ++ more.map Text.octets)) = true) :
    workspace.directory? files (pathBelow module more) =
      some (Path.ofNames (outer ++ more.map Text.octets)) := by
  have hsays : GoModule.below? module.path.toList (pathBelow module more).toList =
      some (['/'].intercalate (more.map String.toList)) := by
    unfold pathBelow
    split
    · rename_i hnil
      rw [hnil]
      exact GoModule.below?_self _
    · have htext : (module.path ++ "/" ++
          String.ofList (['/'].intercalate (more.map String.toList))).toList =
          module.path.toList ++ '/' :: ['/'].intercalate (more.map String.toList) := by
        simp
      rw [htext, GoModule.below?_append]
  have hown : workspace.candidates (pathBelow module more) =
      Path.ofNames (outer ++ more.map Text.octets) ::
        (workspace.candidates (pathBelow module more)).tail := by
    rw [candidates, hmodule, Option.map_some, Option.getD_some, moduleCandidates, hsays,
      Option.map_some, hroot, directoryBelow_texts hmore houter]
    rfl
  rw [directory?, hown, List.find?_cons_of_pos hthere]

end

end Workspace

/-! ## Reading a directory -/

theorem FileSystem.exists_node_of_packageSources {files : FileSystem} {directory : Path}
    {units : List SourceUnit} (h : files.packageSources directory = .ok units) :
    ∃ entries, files.node directory = .ok (.directory entries) := by
  obtain ⟨sources, -, hsources, -, -⟩ := exists_of_packageSources h
  unfold sourceFiles FileSystem.list at hsources
  cases hnode : files.node directory with
  | error cause =>
      rw [hnode] at hsources
      cases hsources
  | ok node =>
      rw [hnode] at hsources
      cases node with
      | directory entries => exact ⟨entries, rfl⟩
      | file content => cases hsources
      | link target => cases hsources

namespace Workspace

variable {workspace : Workspace} {files : FileSystem}

theorem exists_of_loadDirectory {directory : Path} {package : LoadedPackage}
    (h : workspace.loadDirectory files directory = .ok package) :
    ∃ importPath units, workspace.importPath? files (files.absolute directory) = some importPath ∧
      files.packageSources (files.absolute directory) = .ok units ∧
      assemble importPath units = some package := by
  unfold loadDirectory at h
  dsimp only at h
  split at h
  · cases h
  · rename_i importPath himport
    cases hunits : files.packageSources (files.absolute directory) with
    | error cause =>
        rw [hunits] at h
        cases h
    | ok units =>
        rw [hunits] at h
        dsimp only [bind, Except.bind] at h
        split at h
        · rename_i found hfound
          cases h
          exact ⟨importPath, units, himport, rfl, hfound⟩
        · cases h

theorem path_of_assemble {importPath : String} {units : List SourceUnit} {package : LoadedPackage}
    (h : assemble importPath units = some package) : package.path = importPath := by
  obtain ⟨-, heq⟩ := Option.ite_none_left_eq_some.mp h
  rw [← Option.some.inj heq]

/-- A package that is read from a directory of the main module is read from its import path as well:
the same files under the same names, in the same order. What the import path stands for is a directory
that has this import path. The directories below the root of the module must have texts for names, since
an import path is made of no others. -/
theorem load_of_loadDirectory {host : Host} (hhost : host.files.WellFormed) {start : Path}
    {workspace : Workspace} {later : FileSystem}
    (hdiscover : discover host start = .ok (workspace, later)) {module : GoModule}
    (hmodule : workspace.module = some module) {files : FileSystem} (hfiles : files.WellFormed)
    {directory place : Path} (hplace : files.canonical directory = .ok place)
    {below : List PathComponent} (hbelow : place.relativeTo? module.root = some below)
    (htexts : ∀ name, .name name ∈ below → (Text.ofOctets? name).isSome = true)
    {package : LoadedPackage} (h : workspace.loadDirectory files directory = .ok package) :
    workspace.load files package.path = .ok (some package) ∧
      ∃ found, workspace.directory? files package.path = some found ∧
        workspace.importPath? files found = some package.path := by
  -- from the directory to the import path: the names below the root of the module
  have habsolute : files.absolute directory = place := by rw [FileSystem.absolute, hplace]
  obtain ⟨importPath, units, himport, hunits, hassemble⟩ := exists_of_loadDirectory h
  rw [habsolute] at himport hunits
  obtain ⟨entries, hnode⟩ := FileSystem.exists_node_of_packageSources hunits
  have hcanonical := hfiles.canonical_of_canonical hplace hnode
  obtain ⟨outer, houter, hroot⟩ := exists_root hhost hdiscover hmodule
  obtain ⟨location, -, hnames, rfl⟩ := hfiles.exists_place_of_canonical hplace
  rw [hroot] at hbelow
  obtain ⟨more, rfl, hrelative⟩ :=
    Path.exists_of_relativeTo? hnames houter (Option.isSome_iff_exists.mpr ⟨below, hbelow⟩)
  obtain rfl : below = more.map .name := Option.some.inj (hbelow.symm.trans hrelative)
  obtain ⟨texts, rfl⟩ := Text.exists_texts fun name hname => htexts name (List.mem_map_of_mem hname)
  have hmore : ∀ text ∈ texts, Path.IsName (Text.octets text) :=
    List.forall_mem_map.mp (List.forall_mem_append.mp hnames).2
  have hpathBelow := importPath?_of_canonical hmore hmodule hcanonical (hroot ▸ hrelative)
  obtain rfl : importPath = pathBelow module texts := Option.some.inj (himport.symm.trans hpathBelow)
  -- and back: the first of the places for that import path is the same directory
  have hthere : files.isDirectory (Path.ofNames (outer ++ texts.map Text.octets)) = true := by
    rw [FileSystem.isDirectory, hnode]
    rfl
  have hfound := directory?_pathBelow hmore hmodule houter hroot hthere
  rw [path_of_assemble hassemble]
  refine ⟨?_, _, hfound, hpathBelow⟩
  rw [load, hfound]
  dsimp only
  rw [hunits]
  exact congrArg Except.ok hassemble

end Workspace

/-! ## A module behind a link -/

/-- A module in one directory, with a link to it in the root, a link inside it, and a package in a
directory whose name is no text. -/
def FileSystem.linked : FileSystem where
  root :=
    let file (text : String) : Node := .file text.toUTF8
    .directory [(Text.octets "l", .link (.ofText "m")), (Text.octets "m", .directory
      [(Text.octets "go.mod", file "module example.com/m"), (Text.octets "q", .link (.ofText "p")),
        (Text.octets "p", .directory [(Text.octets "a.go", file "package p")]),
        ([0xFF], .directory [(Text.octets "a.go", file "package p")])])]
  current := []

theorem FileSystem.hasNames_linked : FileSystem.linked.root.HasNames := by
  have hfile (text : String) : (Node.file text.toUTF8).HasNames :=
    Node.hasNames_of_not_directory rfl
  have hlink (text : String) : (Node.link (.ofText text)).HasNames :=
    Node.hasNames_of_not_directory rfl
  have hpackage : (Node.directory [(Text.octets "a.go", .file "package p".toUTF8)]).HasNames :=
    Node.hasNames_cons (by decide) (hfile _) Node.hasNames_nil
  exact Node.hasNames_cons (by decide) (hlink _) <|
    Node.hasNames_cons (by decide)
      (Node.hasNames_cons (by decide) (hfile _) <| Node.hasNames_cons (by decide) (hlink _) <|
        Node.hasNames_cons (by decide) hpackage <| Node.hasNames_cons (by decide) hpackage
          Node.hasNames_nil)
      Node.hasNames_nil

/-- A host with that module, and with variables that tell where all else is. -/
def Host.linked : Host :=
  ⟨.linked, [("GOROOT", Text.octets "/go"), ("GOPATH", Text.octets "/w")], none, none⟩

def Workspace.linked : Workspace :=
  ⟨some ⟨"example.com/m", .ofText "/m", [], []⟩,
    ⟨some (.ofText "/go"), [.ofText "/w"], some (.ofText "/w/pkg/mod")⟩⟩

theorem Workspace.discover_linked : ∃ later, discover .linked (.ofText "l") = .ok (linked, later) := by
  have hchecks : ((discover .linked (.ofText "l")).toOption.any fun found =>
      decide (found.1 = linked)) = true := by
    decide +kernel
  obtain ⟨⟨workspace, later⟩, hdiscover, hworkspace⟩ := Resolution.exists_of_any_toOption hchecks
  obtain rfl : workspace = linked := of_decide_eq_true hworkspace
  exact ⟨later, hdiscover⟩

/-- The directory is given through both links. -/
theorem Workspace.load_of_loadDirectory_linked :
    ∃ later, discover .linked (.ofText "l") = .ok (linked, later) ∧
      FileSystem.linked.canonical (.ofText "l/q") = .ok (.ofText "/m/p") ∧
      linked.loadDirectory .linked (.ofText "l/q") =
        .ok ⟨"example.com/m/p", "p", [⟨"/m/p/a.go", "package p"⟩]⟩ ∧
      linked.load .linked "example.com/m/p" =
        .ok (some ⟨"example.com/m/p", "p", [⟨"/m/p/a.go", "package p"⟩]⟩) := by
  have hfiles : FileSystem.linked.WellFormed := ⟨FileSystem.hasNames_linked, _, rfl⟩
  obtain ⟨later, hdiscover⟩ := discover_linked
  have hcanonical : FileSystem.linked.canonical (.ofText "l/q") = .ok (.ofText "/m/p") := by
    decide +kernel
  have hnames : FileSystem.linked.list (.ofText "/m/p") = .ok [Text.octets "a.go"] := by
    decide +kernel
  have hsources := FileSystem.sourceFiles_of_sorted hnames (by decide +kernel)
  have hplace : FileSystem.linked.absolute (.ofText "l/q") = .ofText "/m/p" := by
    rw [FileSystem.absolute, hcanonical]
  have himport : linked.importPath? .linked (.ofText "/m/p") = some "example.com/m/p" := by
    decide +kernel
  have hload : linked.loadDirectory .linked (.ofText "l/q") =
      .ok ⟨"example.com/m/p", "p", [⟨"/m/p/a.go", "package p"⟩]⟩ := by
    rw [loadDirectory, hplace]
    simp only [himport]
    rw [FileSystem.packageSources, hsources]
    decide +kernel
  have hbelow : (Path.ofText "/m/p").relativeTo? (.ofText "/m") = some [.name (Text.octets "p")] := by
    decide +kernel
  refine ⟨later, hdiscover, hcanonical, hload, ?_⟩
  refine (load_of_loadDirectory hfiles hdiscover rfl hfiles hcanonical hbelow ?_ hload).1
  intro name hname
  cases List.mem_singleton.mp hname
  decide +kernel

/-- The import path leaves out the name that is no text, and stands for the root of the module, where
there are no sources. -/
theorem Workspace.load_of_loadDirectory_unspelled :
    ∃ later, discover .linked (.ofText "l") = .ok (linked, later) ∧
      FileSystem.linked.canonical ((Path.ofText "/m").child [0xFF]) =
        .ok ((Path.ofText "/m").child [0xFF]) ∧
      ((Path.ofText "/m").child [0xFF]).relativeTo? (.ofText "/m") = some [.name [0xFF]] ∧
      linked.loadDirectory .linked ((Path.ofText "/m").child [0xFF]) =
        .ok ⟨"example.com/m", "p", [⟨"/m/\uFFFD/a.go", "package p"⟩]⟩ ∧
      linked.load .linked "example.com/m" = .ok none := by
  obtain ⟨later, hdiscover⟩ := discover_linked
  have hcanonical : FileSystem.linked.canonical ((Path.ofText "/m").child [0xFF]) =
      .ok ((Path.ofText "/m").child [0xFF]) := by
    decide +kernel
  have hplace : FileSystem.linked.absolute ((Path.ofText "/m").child [0xFF]) =
      (Path.ofText "/m").child [0xFF] := by
    rw [FileSystem.absolute, hcanonical]
  have himport : linked.importPath? .linked ((Path.ofText "/m").child [0xFF]) =
      some "example.com/m" := by
    decide +kernel
  have hnames : FileSystem.linked.list ((Path.ofText "/m").child [0xFF]) =
      .ok [Text.octets "a.go"] := by
    decide +kernel
  have hsources := FileSystem.sourceFiles_of_sorted hnames (by decide +kernel)
  have hroot : linked.directory? .linked "example.com/m" = some (.ofText "/m") := by
    decide +kernel
  have hrootNames : FileSystem.linked.list (.ofText "/m") =
      .ok [Text.octets "go.mod", Text.octets "q", Text.octets "p", [0xFF]] := by
    decide +kernel
  have hrootSources := FileSystem.sourceFiles_of_sorted hrootNames (by decide +kernel)
  refine ⟨later, hdiscover, hcanonical, by decide +kernel, ?_, ?_⟩
  · rw [loadDirectory, hplace]
    simp only [himport]
    rw [FileSystem.packageSources, hsources]
    decide +kernel
  · rw [load, hroot]
    dsimp only
    rw [FileSystem.packageSources, hrootSources]
    decide +kernel

end GoTrace
