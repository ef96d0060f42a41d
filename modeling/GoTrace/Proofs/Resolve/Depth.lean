import GoTrace.Proofs.Grammar.Extent
import GoTrace.Proofs.Resolve.Steps

/-!
# Resolutions end

The interfaces that are being resolved are different declarations, of packages that the session holds or
of such that the loader has. A library declares fewer types than its sources have characters, so no
interface of a library runs out of its bound, whatever the session is.
-/

namespace GoTrace

theorem exists_ok_of_mapM {α β ε : Type} {f : α → Except ε β} {values : List α} {results : List β}
    (h : values.mapM f = .ok results) {result : β} (hmem : result ∈ results) :
    ∃ value ∈ values, f value = .ok result := by
  induction values generalizing results with
  | nil =>
      cases h
      cases hmem
  | cons value rest ih =>
      rw [List.mapM_cons] at h
      cases hvalue : f value with
      | error cause =>
          rw [hvalue] at h
          cases h
      | ok first =>
          cases hrest : rest.mapM f with
          | error cause =>
              rw [hvalue, hrest] at h
              cases h
          | ok others =>
              rw [hvalue, hrest] at h
              cases h
              rcases List.mem_cons.mp hmem with rfl | hmem
              · exact ⟨value, List.mem_cons_self, hvalue⟩
              · obtain ⟨found, hfound, hresult⟩ := ih hrest hmem
                exact ⟨found, List.mem_cons_of_mem _ hfound, hresult⟩

theorem Package.exists_parse_of_mem {loaded : LoadedPackage} {package : Package}
    (h : Package.parse loaded = .ok package) {file : SourceFile} (hfile : file ∈ package.units) :
    ∃ unit ∈ loaded.units, SourceFile.parse unit.text (some unit.fileName) = .ok file := by
  rw [Package.parse] at h
  cases hunits : loaded.units.mapM fun unit =>
      (SourceFile.parse unit.text (some unit.fileName)).mapError
        (Failure.map (ResolveError.parse unit.fileName)) with
  | error failure =>
      rw [hunits] at h
      cases h
  | ok units =>
      rw [hunits] at h
      cases h
      obtain ⟨unit, hunit, hparse⟩ := exists_ok_of_mapM hunits hfile
      exact ⟨unit, hunit, Resolution.mapError_eq_ok.mp hparse⟩

theorem Package.mem_typeSpecs_of_findType {package : Package} {name : String} {unit : Nat}
    {spec : TypeSpec} (h : package.findType name = some (unit, spec)) :
    ∃ file ∈ package.units, spec ∈ file.typeSpecs ∧ spec.name.name = name := by
  obtain ⟨file, hfile, hfind⟩ := Package.exists_of_findInUnits h
  refine ⟨file, hfile, List.mem_of_find?_eq_some hfind, ?_⟩
  simpa using List.find?_some hfind

theorem length_flatMap_le {α β γ : Type} {values : List α} {f : α → List β} {g : α → List γ}
    (h : ∀ value ∈ values, (f value).length ≤ (g value).length) :
    (values.flatMap f).length ≤ (values.flatMap g).length := by
  induction values with
  | nil => exact Nat.le_refl _
  | cons value rest ih =>
      rw [List.flatMap_cons, List.flatMap_cons, List.length_append, List.length_append]
      have hvalue := h value List.mem_cons_self
      have hrest := ih fun other hmem => h other (List.mem_cons_of_mem _ hmem)
      omega

theorem mem_of_lookup {α β : Type} [BEq α] [LawfulBEq α] {entries : List (α × β)} {key : α}
    {value : β} (h : entries.lookup key = some value) : (key, value) ∈ entries := by
  obtain ⟨before, rest, rfl, -⟩ := List.lookup_eq_some_iff.mp h
  exact List.mem_append_right _ List.mem_cons_self

namespace Resolution

variable {α β : Type} {loader : Loader} {bad : ResolveFailure → Prop} {fits : Session → Prop}

/-! ## Calls that last -/

/-- In the sessions that fit, the action does not fail in a bad way. It leaves a session that fits, unless
it breaks off. -/
def Lasts (bad : ResolveFailure → Prop) (fits : Session → Prop) (action : Resolution α) : Prop :=
  ∀ session, fits session →
    (∀ failure, answer action session = .error failure → ¬ bad failure) ∧
      (Lasting (answer action session) → fits (after action session))

theorem Lasts.bind {action : Resolution α} {next : α → Resolution β} (h : Lasts bad fits action)
    (h' : ∀ value session, fits session → answer action session = .ok value →
      Lasts bad fits (next value)) : Lasts bad fits (action >>= next) := by
  intro session hs
  obtain ⟨hgood, hafter⟩ := h session hs
  rw [answer_bind, after_bind]
  cases hanswer : answer action session with
  | ok value =>
      rw [hanswer] at hafter
      exact h' value session hs hanswer _ (hafter trivial)
  | error failure =>
      rw [hanswer] at hafter
      refine ⟨fun other heq => hgood other (by rw [hanswer, Except.error.inj heq]), fun hlasting => ?_⟩
      exact hafter (by cases failure <;> exact hlasting)

theorem Lasts.of_error {cause : ResolveError} (hgood : ∀ cause, ¬ bad (.error cause)) :
    Lasts bad fits (fail cause : Resolution α) :=
  fun _ hs => ⟨fun _ heq => Except.error.inj heq ▸ hgood cause, fun _ => hs⟩

theorem Lasts.renamed {action : Resolution α} (h : Lasts bad fits action)
    (hgood : ∀ cause, ¬ bad (.error cause)) (rename : ResolveError → ResolveError) :
    Lasts bad fits (renamed rename action) := by
  intro session hs
  obtain ⟨hfails, hafter⟩ := h session hs
  rw [answer_renamed, after_renamed, lasting_mapError]
  refine ⟨fun failure heq => ?_, hafter⟩
  cases hanswer : answer action session with
  | ok value =>
      rw [hanswer] at heq
      cases heq
  | error found =>
      rw [hanswer] at heq
      cases heq
      cases found with
      | error cause => exact hgood _
      | splitCharacter => exact hfails _ hanswer
      | exhausted => exact hfails _ hanswer

/-- What sessions have to keep for calls to last in them. -/
structure Suits (loader : Loader) (bad : ResolveFailure → Prop) (fits : Session → Prop) : Prop where
  keeps : loader.KeepsPaths
  errors : ∀ cause, ¬ bad (.error cause)
  parsed : ∀ {path failure}, loader.parsed path = .error failure → ¬ bad failure
  whole : ∀ {session path package}, fits session → session.packages.lookup path = some package →
    package.Splits → ¬ bad .splitCharacter
  asking : ∀ {session} requests, fits session → fits (session.asking requests)
  naming : ∀ {session} found key table, fits session → fits (session.naming found key table)
  adding : ∀ {session path package}, fits session → loader.parsed path = .ok package →
    fits (session.adding package)

namespace Suits

variable (suits : Suits loader bad fits)

include suits

theorem package (path : String) : Lasts bad fits (package loader path) := by
  intro session hs
  cases hkept : session.packages.lookup path with
  | some found =>
      rw [answer_package_of_kept hkept, after_package_of_kept hkept]
      exact ⟨nofun, fun _ => hs⟩
  | none =>
      rw [answer_package_of_new suits.keeps hkept, after_package_of_new suits.keeps hkept]
      refine ⟨fun failure => suits.parsed, fun _ => ?_⟩
      have hasked := suits.asking [.load path] hs
      cases hparsed : loader.parsed path with
      | error failure => exact hasked
      | ok package => exact suits.adding hasked hparsed

theorem importTable (package : Package) (unit : Nat) :
    Lasts bad fits (importTable loader package unit) := by
  intro session hs
  cases hkept : session.importTables.lookup (package.path, unit) with
  | some table =>
      rw [after_importTable_of_kept hkept]
      refine ⟨?_, fun _ => hs⟩
      simp [Resolution.importTable, answer_bind, hkept]
  | none =>
      rw [answer_importTable_of_new hkept, after_importTable_of_new hkept]
      dsimp only
      have hasked := suits.asking ((session.unknownPaths package unit).eraseDups.map .locate) hs
      cases loader.namesOf (session.unknownPaths package unit) with
      | error cause =>
          exact ⟨fun _ heq => Except.error.inj heq ▸ suits.errors cause, fun _ => hasked⟩
      | ok found => exact ⟨by simp, fun _ => suits.naming _ _ _ hasked⟩

omit suits in
def lasting (suits : Suits loader bad fits) : Inheritance loader where
  good package := package.Splits → ¬ bad .splitCharacter
  holds := Lasts bad fits
  pure _ _ hs := ⟨nofun, fun _ => hs⟩
  fail _ := .of_error suits.errors
  bind h h' := h.bind fun value _ _ _ => h' value
  renamed _ h := h.renamed suits.errors _
  get _ hs := ⟨nofun, fun _ => hs⟩
  package_bind {_ path _} h := by
    refine (suits.package path).bind fun found session hs hanswer => h found ?_
    have hafter := (suits.package path session hs).2 (by rw [hanswer]; trivial)
    exact suits.whole hafter (lookup_of_answer_package suits.keeps hanswer)
  importTable {package} _ unit := suits.importTable package unit
  unreadable hgood hsplits _ hs :=
    ⟨fun _ heq => Except.error.inj heq ▸ hgood hsplits, fun hlasting => nomatch hlasting⟩

end Suits

/-! ## What is left to resolve -/

variable {stack : List InterfaceKey}

def remaining (keys stack : List InterfaceKey) : List InterfaceKey :=
  keys.filter fun key => !stack.contains key

theorem remaining_push_lt {keys : List InterfaceKey} {key : InterfaceKey} (hkey : key ∈ keys)
    (hnew : key ∉ stack) :
    (remaining keys (stack ++ [key])).length < (remaining keys stack).length := by
  have hpush : remaining keys (stack ++ [key]) =
      (remaining keys stack).filter fun other => !other == key := by
    unfold remaining
    rw [List.filter_filter]
    refine List.filter_congr fun other _ => ?_
    by_cases heq : other = key <;> simp [heq]
  rw [hpush, List.length_filter_lt_length_iff_exists]
  exact ⟨key, List.mem_filter.mpr ⟨hkey, by simpa using hnew⟩, by simp⟩

end Resolution

open Resolution

/-- Some package of the session has a constant that cannot be read. -/
def Session.Splits (session : Session) : Prop :=
  ∃ path package, session.packages.lookup path = some package ∧ package.Splits

/-- A session which declares at most `keys` and is resolving `stack`, and in which nothing breaks off if
that is bad. -/
structure Session.Bounded (bad : ResolveFailure → Prop) (keys stack : List InterfaceKey)
    (session : Session) : Prop where
  whole : session.Splits → ¬ bad .splitCharacter
  declared : ∀ {path name package}, session.packages.lookup path = some package →
    (package.findType name).isSome = true → (path, name) ∈ keys
  resolving : session.resolving = stack

/-- A loader whose packages do not fail in a bad way. -/
structure Loader.Spares (bad : ResolveFailure → Prop) (loader : Loader) : Prop where
  keeps : loader.KeepsPaths
  errors : ∀ cause, ¬ bad (.error cause)
  parsed : ∀ {path failure}, loader.parsed path = .error failure → ¬ bad failure
  whole : ∀ {path package}, loader.parsed path = .ok package → package.Splits → ¬ bad .splitCharacter

namespace Resolution

variable {loader : Loader} {bad : ResolveFailure → Prop} {keys stack : List InterfaceKey}

theorem splits_of_splits_adding {session : Session} {added : Package}
    (h : (session.adding added).Splits) : added.Splits ∨ session.Splits := by
  obtain ⟨path, package, hlookup, hsplits⟩ := h
  rcases Session.lookup_adding_cases hlookup with ⟨-, rfl⟩ | hlookup
  · exact .inl hsplits
  · exact .inr ⟨path, package, hlookup, hsplits⟩

theorem suits_whole (spares : loader.Spares bad) :
    Suits loader bad fun session => session.Splits → ¬ bad .splitCharacter where
  keeps := spares.keeps
  errors := spares.errors
  parsed := spares.parsed
  whole hs hlookup hsplits := hs ⟨_, _, hlookup, hsplits⟩
  asking _ hs := hs
  naming _ _ _ hs := hs
  adding hs hparsed hsplits :=
    (splits_of_splits_adding hsplits).elim (spares.whole hparsed) hs

theorem suits_bounded (spares : loader.Spares bad)
    (hkeys : ∀ key, loader.Declares key → key ∈ keys) :
    Suits loader bad (Session.Bounded bad keys stack) where
  keeps := spares.keeps
  errors := spares.errors
  parsed := spares.parsed
  whole hs hlookup hsplits := hs.whole ⟨_, _, hlookup, hsplits⟩
  asking _ hs := ⟨hs.whole, hs.declared, hs.resolving⟩
  naming _ _ _ hs := ⟨hs.whole, hs.declared, hs.resolving⟩
  adding {session path added} hs hparsed := by
    refine ⟨fun hsplits => ?_, ?_, hs.resolving⟩
    · exact (splits_of_splits_adding hsplits).elim (spares.whole hparsed) hs.whole
    · intro other name package hlookup hfound
      rcases Session.lookup_adding_cases hlookup with ⟨rfl, rfl⟩ | hlookup
      · rw [spares.keeps.path_of_parsed hparsed]
        exact hkeys (path, name) ⟨_, hparsed, hfound⟩
      · exact hs.declared hlookup hfound

/-! ## Interfaces last -/

theorem entering_bounded {session : Session} (hs : session.Bounded bad keys stack)
    (key : InterfaceKey) : (entering session key).Bounded bad keys (stack ++ [key]) :=
  ⟨hs.whole, hs.declared, by rw [entering, hs.resolving]⟩

theorem leaving_bounded {session : Session} {key : InterfaceKey}
    (hs : session.Bounded bad keys (stack ++ [key])) (hnew : key ∉ stack) :
    (leaving session key).Bounded bad keys stack := by
  refine ⟨hs.whole, hs.declared, ?_⟩
  rw [leaving, hs.resolving, List.erase_append_right _ hnew, List.erase_cons_head, List.append_nil]

/-- A declaration lasts when the resolver does that it asks, and it asks only when it is there. -/
theorem declaredInterface_lasts (suits : Suits loader bad (Session.Bounded bad keys stack))
    {resolve : String → String → Resolution Interface} {path name : String}
    (hresolve : (path, name) ∈ keys →
      ∀ path name, Lasts bad (Session.Bounded bad keys stack) (resolve path name)) :
    Lasts bad (Session.Bounded bad keys stack) (declaredInterface loader resolve path name) := by
  rw [declaredInterface_eq_bind]
  refine (suits.package path).bind fun package session hs hanswer => ?_
  have hkept := lookup_of_answer_package suits.keeps hanswer
  have hafter := (suits.package path session hs).2 (by rw [hanswer]; trivial)
  cases hfound : package.findType name with
  | none =>
      unfold declaredOf
      rw [hfound]
      exact suits.lasting.fail rfl
  | some found =>
      have hkey := hafter.declared hkept (by rw [hfound]; rfl)
      exact suits.lasting.declaredOf (hresolve hkey) (suits.whole hafter hkept) path name

theorem interfaceUpTo_lasts (spares : loader.Spares bad)
    (hkeys : ∀ key, loader.Declares key → key ∈ keys) {bound : Nat}
    (hbound : (remaining keys stack).length < bound) (path name : String) :
    Lasts bad (Session.Bounded bad keys stack) (interfaceUpTo loader bound path name) := by
  induction bound generalizing stack path name with
  | zero => exact absurd hbound (Nat.not_lt_zero _)
  | succ bound ih =>
      intro session hs
      cases hlookup : session.interfaces.lookup (path, name) with
      | some interface =>
          rw [answer_interfaceUpTo_of_kept _ hlookup, after_interfaceUpTo_of_kept _ hlookup]
          exact ⟨nofun, fun _ => hs⟩
      | none =>
          by_cases hcyclic : (path, name) ∈ session.resolving
          · rw [answer_interfaceUpTo_of_cyclic _ hlookup hcyclic,
              after_interfaceUpTo_of_cyclic _ hlookup hcyclic]
            exact ⟨fun _ heq => Except.error.inj heq ▸ spares.errors _, fun _ => hs⟩
          · have hnew : (path, name) ∉ stack := hs.resolving ▸ hcyclic
            have hresolve : (path, name) ∈ keys → ∀ path' name',
                Lasts bad (Session.Bounded bad keys (stack ++ [(path, name)]))
                  (interfaceUpTo loader bound path' name') := by
              intro hkey
              have hless := remaining_push_lt hkey hnew
              exact ih (by omega)
            obtain ⟨hgood, hafter⟩ :=
              declaredInterface_lasts (suits_bounded spares hkeys) hresolve _
                (entering_bounded hs (path, name))
            rw [answer_interfaceUpTo_of_new _ hlookup hcyclic]
            refine ⟨hgood, fun hlasting => ?_⟩
            have hleft := leaving_bounded (hafter hlasting) hnew
            rw [after_interfaceUpTo_of_new _ hlookup hcyclic hlasting]
            dsimp only
            split
            · exact ⟨hleft.whole, hleft.declared, hleft.resolving⟩
            · exact hleft

end Resolution

/-! ## The declarations of a session -/

/-- The types that the packages of the session declare, by path and name. -/
def Session.declared (session : Session) : List InterfaceKey :=
  session.packages.flatMap fun entry =>
    (entry.2.units.flatMap SourceFile.typeSpecs).map fun spec => (entry.1, spec.name.name)

namespace Session

variable {session : Session}

theorem length_declared : session.declared.length = session.declaredTypes := by
  simp [declared, declaredTypes, List.length_flatMap]

theorem mem_declared {path name : String} {package : Package}
    (hlookup : session.packages.lookup path = some package)
    (hfound : (package.findType name).isSome = true) : (path, name) ∈ session.declared := by
  obtain ⟨⟨unit, spec⟩, hfound⟩ := Option.isSome_iff_exists.mp hfound
  obtain ⟨file, hfile, hspec, hname⟩ := Package.mem_typeSpecs_of_findType hfound
  simp only [declared, List.mem_flatMap, List.mem_map]
  exact ⟨(path, package), mem_of_lookup hlookup, spec, ⟨file, hfile, hspec⟩, by rw [hname]⟩

end Session

/-! ## The declarations of a library -/

namespace Library

def declaredIn (unit : SourceUnit) : List TypeSpec :=
  match SourceFile.parse unit.text (some unit.fileName) with
  | .ok file => file.typeSpecs
  | .error _ => []

/-- The types that all sources declare, by the path of their package and their name. -/
def declared (library : Library) : List InterfaceKey :=
  library.packages.flatMap fun entry =>
    entry.2.flatMap fun unit => (declaredIn unit).map fun spec => (entry.1, spec.name.name)

theorem length_declaredIn_le (unit : SourceUnit) :
    (declaredIn unit).length ≤ unit.text.toList.length := by
  unfold declaredIn
  cases hfile : SourceFile.parse unit.text (some unit.fileName) with
  | ok file => exact SourceFile.typeSpecs_length_le hfile
  | error failure => exact Nat.zero_le _

theorem length_declared_le (library : Library) : library.declared.length ≤ library.size := by
  unfold declared size
  refine length_flatMap_le fun entry _ => length_flatMap_le fun unit _ => ?_
  rw [List.length_map]
  exact length_declaredIn_le unit

theorem mem_declaredIn {unit : SourceUnit} {file : SourceFile}
    (hread : SourceFile.parse unit.text (some unit.fileName) = .ok file) {spec : TypeSpec}
    (hspec : spec ∈ file.typeSpecs) : spec ∈ declaredIn unit := by
  unfold declaredIn
  rwa [hread]

theorem mem_declared {library : Library} {key : InterfaceKey}
    (h : library.loader.Declares key) : key ∈ library.declared := by
  obtain ⟨package, hparsed, hfound⟩ := h
  obtain ⟨loaded, hload, hparse⟩ := Loader.exists_load_of_parsed hparsed
  obtain ⟨⟨place, spec⟩, hfound⟩ := Option.isSome_iff_exists.mp hfound
  obtain ⟨file, hfile, hspec, hname⟩ := Package.mem_typeSpecs_of_findType hfound
  obtain ⟨unit, hunit, hread⟩ := Package.exists_parse_of_mem hparse hfile
  simp only [loader, Except.ok.injEq, Option.map_eq_some_iff] at hload
  obtain ⟨units, hunits, rfl⟩ := hload
  simp only [declared, List.mem_flatMap, List.mem_map]
  exact ⟨(key.1, units), mem_of_lookup hunits, unit, hunit, spec, mem_declaredIn hread hspec,
    by rw [hname]⟩

/-- The bound of a call is above the number of declarations that are not in resolution, of the library
and of the packages of the session together. -/
theorem remaining_lt_depthBound (library : Library) {keys : List InterfaceKey} {session : Session}
    (h : keys.length ≤ session.declaredTypes + library.size) (stack : List InterfaceKey) :
    (Resolution.remaining keys stack).length <
      Resolution.depthBound library.loader session := by
  have hremaining : (Resolution.remaining keys stack).length ≤ keys.length :=
    List.length_filter_le _ _
  have hextent : library.loader.extent = library.size := rfl
  have hproduct : library.size ≤ (session.importCount + library.size + 1) * library.size :=
    Nat.le_mul_of_pos_left _ (Nat.succ_pos _)
  rw [Resolution.depthBound, hextent]
  omega

/-- The bound that an interface starts with is above the number of declarations there are. -/
theorem interface_lasts (library : Library) {bad : ResolveFailure → Prop}
    (spares : library.loader.Spares bad) (path name : String) :
    Lasts bad (fun session => session.Splits → ¬ bad .splitCharacter)
      (interface library.loader path name) := by
  intro session hs
  have hkeys : ∀ key, library.loader.Declares key → key ∈ session.declared ++ library.declared :=
    fun key hkey => List.mem_append_right _ (mem_declared hkey)
  have hbounded : session.Bounded bad (session.declared ++ library.declared) session.resolving :=
    ⟨hs, fun hlookup hfound => List.mem_append_left _ (Session.mem_declared hlookup hfound), rfl⟩
  have hlength : (session.declared ++ library.declared).length ≤
      session.declaredTypes + library.size := by
    rw [List.length_append, Session.length_declared]
    exact Nat.add_le_add_left library.length_declared_le _
  have hbound := library.remaining_lt_depthBound hlength session.resolving
  rw [answer_interface, after_interface]
  obtain ⟨hgood, hafter⟩ :=
    interfaceUpTo_lasts spares hkeys hbound path name session hbounded
  exact ⟨hgood, fun hlasting => (hafter hlasting).whole⟩

theorem interface_ends (library : Library) (path name : String) (session : Session) :
    answer (interface library.loader path name) session ≠ .error .exhausted := by
  have spares : library.loader.Spares (· = .exhausted) :=
    ⟨library.keepsPaths, nofun, fun h heq => library.loader.parsed_ne_exhausted _ (heq ▸ h),
      fun _ _ => nofun⟩
  exact fun h => (library.interface_lasts spares path name session fun _ => nofun).1 _ h rfl

end Library

end GoTrace
