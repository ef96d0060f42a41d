import GoTrace.Proofs.Resolve.Cycles
import GoTrace.Proofs.Resolve.Steps
import Mathlib.Data.List.Nodup

/-!
# What a loader is asked

A session asks its loader only for what it does not know, and it never forgets. So a package that was
loaded or added is not asked for again, and neither is the name of a package that was found out.
-/

namespace GoTrace

open Resolution

namespace Session

variable {loader : Loader} {session later : Session}

/-! ## Questions go to what is unknown -/

theorem Change.knows (h : session.Change later) {request : LoaderRequest}
    (hknows : session.Knows request) : later.Knows request := by
  cases h with
  | ask _ => cases request <;> exact hknows
  | add _ =>
      cases request with
      | locate path =>
          simp only [Knows, adding, List.lookup_cons] at hknows ⊢
          split
          · rfl
          · exact hknows
      | load path =>
          simp only [Knows, adding, List.lookup_cons] at hknows ⊢
          split
          · rfl
          · exact hknows
  | name table _ _ =>
      cases request with
      | locate path =>
          simp only [Knows, naming, List.lookup_append, Option.isSome_or] at hknows ⊢
          rw [hknows, Bool.or_true]
      | load path => exact hknows
  | enter key => cases request <;> exact hknows
  | leave key => cases request <;> exact hknows
  | keep _ _ _ => cases request <;> exact hknows

theorem Changes.knows (h : Changes session later) {request : LoaderRequest}
    (hknows : session.Knows request) : later.Knows request := by
  induction h with
  | refl => exact hknows
  | tail _ hchange ih => exact hchange.knows ih

theorem Change.asked (h : session.Change later) :
    ∃ asked, later.requests = asked ++ session.requests ∧
      ∀ request ∈ asked, ¬ session.Knows request := by
  cases h with
  | ask hunknown => exact ⟨_, rfl, fun request hmem => hunknown request (List.mem_reverse.mp hmem)⟩
  | add _ => exact ⟨[], rfl, nofun⟩
  | name _ _ _ => exact ⟨[], rfl, nofun⟩
  | enter _ => exact ⟨[], rfl, nofun⟩
  | leave _ => exact ⟨[], rfl, nofun⟩
  | keep _ _ _ => exact ⟨[], rfl, nofun⟩

theorem Changes.asked (h : Changes session later) :
    ∃ asked, later.requests = asked ++ session.requests ∧
      ∀ request ∈ asked, ¬ session.Knows request := by
  induction h with
  | refl => exact ⟨[], rfl, nofun⟩
  | tail hchanges hchange ih =>
      obtain ⟨before, hbefore, hunknown⟩ := ih
      obtain ⟨last, hlast, hunknown'⟩ := hchange.asked
      refine ⟨last ++ before, by rw [hlast, hbefore, List.append_assoc], fun request hmem => ?_⟩
      rcases List.mem_append.mp hmem with hmem | hmem
      · exact fun hknows => hunknown' request hmem (Changes.knows hchanges hknows)
      · exact hunknown request hmem

theorem Leads.asked (h : Leads session later) :
    ∃ rest, later.requests = rest ++ session.requests ∧
      ∀ request, session.Knows request → request ∉ rest := by
  obtain ⟨rest, heq, hunknown⟩ := h.changes.asked
  exact ⟨rest, heq, fun request hknows hmem => hunknown request hmem hknows⟩

/-! ## The name of a package that is there is known -/

/-- The name of every package that is there is known. -/
def Named (session : Session) : Prop :=
  ∀ path, session.Knows (.load path) → session.Knows (.locate path)

theorem Change.named (h : session.Change later) (hnamed : session.Named) : later.Named := by
  intro path hknows
  have hkept := hnamed path
  cases h with
  | ask _ => exact hkept hknows
  | @add package _ =>
      simp only [Knows, adding, List.lookup_cons] at hkept hknows ⊢
      split
      · rfl
      · rename_i hne
        rw [hne] at hknows
        exact hkept hknows
  | name table hnew hunknown =>
      have hchange : session.Change (session.naming _ _ table) := .name table hnew hunknown
      exact hchange.knows (hkept hknows)
  | enter _ => exact hkept hknows
  | leave _ => exact hkept hknows
  | keep _ _ _ => exact hkept hknows

theorem Changes.named (h : Changes .empty session) : session.Named := by
  induction h with
  | refl => exact nofun
  | tail _ hchange ih => exact hchange.named ih

theorem Leads.asked_of_lookup (h : Leads .empty session) {path : String} {package : Package}
    (hlookup : session.packages.lookup path = some package) (hlater : Leads session later) :
    ∃ rest, later.requests = rest ++ session.requests ∧ .load path ∉ rest ∧ .locate path ∉ rest := by
  have hload : session.Knows (.load path) := by simp [Knows, hlookup]
  obtain ⟨rest, hrest, hunknown⟩ := Leads.asked hlater
  exact ⟨rest, hrest, hunknown _ hload, hunknown _ ((Leads.changes h).named path hload)⟩

/-! ## Import tables -/

theorem nodup_eraseDups {α : Type} [BEq α] [LawfulBEq α] (values : List α) :
    values.eraseDups.Nodup := by
  match values with
  | [] => exact List.nodup_nil
  | value :: rest =>
      rw [List.eraseDups_cons, List.nodup_cons, List.mem_eraseDups, List.mem_filter]
      exact ⟨by simp, nodup_eraseDups (rest.filter fun other => !other == value)⟩
termination_by values.length
decreasing_by
  exact Nat.lt_succ_of_le (List.length_filter_le _ _)

/-- An import table locates every path once that it needs and that is not known. -/
theorem requests_importTable_of_new {loader : Loader} {package : Package} {unit : Nat}
    (h : session.importTables.lookup (package.path, unit) = none) :
    (after (importTable loader package unit) session).requests =
      ((session.unknownPaths package unit).eraseDups.map LoaderRequest.locate).reverse ++
        session.requests := by
  rw [after_importTable_of_new h]
  dsimp only
  split <;> rfl

theorem exists_located (loader : Loader) (package : Package) (unit : Nat) (session : Session) :
    ∃ paths : List String, paths.Nodup ∧
      (after (importTable loader package unit) session).requests =
        (paths.map LoaderRequest.locate).reverse ++ session.requests := by
  cases hkept : session.importTables.lookup (package.path, unit) with
  | some table =>
      rw [after_importTable_of_kept hkept]
      exact ⟨[], List.nodup_nil, rfl⟩
  | none => exact ⟨_, nodup_eraseDups _, requests_importTable_of_new hkept⟩

theorem isSome_lookup_of_namesOf {loader : Loader} {paths : List String}
    {found : List (String × String)} (h : loader.namesOf paths = .ok found) {path : String}
    (hpath : path ∈ paths) : (found.lookup path).isSome = true := by
  by_cases hmissing : loader.missing paths = []
  · rw [Loader.namesOf_eq_ok hmissing, Except.ok.injEq] at h
    rw [← h, Loader.lookup_names, if_pos (List.mem_eraseDups.mpr hpath), Loader.nameOf,
      Option.isSome_map]
    have hlocated := List.filter_eq_nil_iff.mp hmissing path (List.mem_eraseDups.mpr hpath)
    simpa [Option.isSome_iff_ne_none] using hlocated
  · rw [Loader.namesOf_eq_error hmissing] at h
    cases h

/-- When an import table was made, the names are known of all packages that were located for it. -/
theorem knows_of_answer_importTable {loader : Loader} {package : Package} {unit : Nat}
    {table : ImportTable} (h : answer (importTable loader package unit) session = .ok table)
    {paths : List String}
    (hpaths : (after (importTable loader package unit) session).requests =
      (paths.map LoaderRequest.locate).reverse ++ session.requests) {path : String}
    (hpath : path ∈ paths) :
    (after (importTable loader package unit) session).Knows (.locate path) := by
  cases hkept : session.importTables.lookup (package.path, unit) with
  | some table =>
      rw [after_importTable_of_kept hkept, List.self_eq_append_left, List.reverse_eq_nil_iff,
        List.map_eq_nil_iff] at hpaths
      rw [hpaths] at hpath
      cases hpath
  | none =>
      rw [requests_importTable_of_new hkept, List.append_cancel_right_eq, List.reverse_inj,
        List.map_inj_right fun _ _ => LoaderRequest.locate.inj] at hpaths
      rw [← hpaths, List.mem_eraseDups] at hpath
      rw [answer_importTable_of_new hkept] at h
      rw [after_importTable_of_new hkept]
      dsimp only
      cases hnames : loader.namesOf (session.unknownPaths package unit) with
      | error cause =>
          rw [hnames] at h
          cases h
      | ok found =>
          have hfound := isSome_lookup_of_namesOf hnames hpath
          change ((found ++ session.packageNames).lookup path).isSome = true
          rw [List.lookup_append, Option.isSome_or, hfound, Bool.true_or]

/-! ## Packages are loaded at steps of their own -/

theorem Step.asked (h : session.Step loader later) (keeps : loader.KeepsPaths) :
    ∃ asked, later.requests = asked ++ session.requests :=
  (h.changes keeps).asked.imp fun _ hasked => hasked.1

theorem Step.eq_of_load_mem (h : session.Step loader later) (keeps : loader.KeepsPaths)
    {asked : List LoaderRequest} (hasked : later.requests = asked ++ session.requests)
    {path : String} (hmem : .load path ∈ asked) :
    asked = [.load path] ∧ later = after (Resolution.package loader path) session := by
  have hsilent : later.requests ≠ session.requests := by
    intro hsame
    rw [hsame, List.self_eq_append_left] at hasked
    rw [hasked] at hmem
    cases hmem
  cases h with
  | addPackage loaded =>
      cases hkept : session.packages.lookup loaded.path with
      | some package => exact absurd (by rw [after_addPackage_of_kept hkept]) hsilent
      | none =>
          refine absurd ?_ hsilent
          rw [after_addPackage_of_new hkept]
          split <;> rfl
  | package other =>
      cases hkept : session.packages.lookup other with
      | some package => exact absurd (by rw [after_package_of_kept hkept]) hsilent
      | none =>
          have hrequests : (after (Resolution.package loader other) session).requests =
              [.load other] ++ session.requests := by
            rw [after_package_of_new keeps hkept]
            split <;> rfl
          obtain rfl := List.append_cancel_right (hasked.symm.trans hrequests)
          obtain rfl := LoaderRequest.load.inj (List.mem_singleton.mp hmem)
          exact ⟨rfl, rfl⟩
  | importTable package unit =>
      obtain ⟨paths, -, hrequests⟩ := exists_located loader package unit session
      obtain rfl := List.append_cancel_right (hasked.symm.trans hrequests)
      simp at hmem
  | enter _ => exact absurd rfl hsilent
  | leave _ => exact absurd rfl hsilent
  | keep _ _ _ => exact absurd rfl hsilent

theorem Steps.exists_loading (h : Steps loader session later) (keeps : loader.KeepsPaths)
    {asked before : List LoaderRequest} {path : String}
    (hasked : later.requests = asked ++ .load path :: before)
    (hbefore : session.requests <:+ before) :
    ∃ middle, Steps loader session middle ∧
      (after (Resolution.package loader path) middle).requests = .load path :: before ∧
        Steps loader (after (Resolution.package loader path) middle) later := by
  induction h generalizing asked with
  | refl =>
      have hlength := congrArg List.length hasked
      have hle := hbefore.length_le
      rw [List.length_append, List.length_cons] at hlength
      omega
  | @tail middle later hsteps hstep ih =>
      obtain ⟨last, hlast⟩ := hstep.asked keeps
      have hearlier : ∀ asked, middle.requests = asked ++ .load path :: before → _ := fun _ h =>
        (ih h).imp fun _ hloading => hloading.imp_right fun hloaded =>
          hloaded.imp_right fun hlater => hlater.tail hstep
      rcases List.append_eq_append_iff.mp (hasked.symm.trans hlast) with
        ⟨rest, hrest, hmiddle⟩ | ⟨rest, -, hmiddle⟩
      · cases rest with
        | nil => exact hearlier [] hmiddle.symm
        | cons request rest =>
            -- the step at which the package is loaded
            obtain ⟨rfl, rfl⟩ := List.cons.inj hmiddle
            have hmem : LoaderRequest.load path ∈ last := by simp [hrest]
            obtain ⟨rfl, hloading⟩ := hstep.eq_of_load_mem keeps hlast hmem
            obtain ⟨rfl, rfl⟩ : asked = [] ∧ rest = [] := by
              simpa using List.singleton_eq_append_iff.mp hrest
            refine ⟨middle, hsteps, ?_, ?_⟩
            · rw [← hloading]
              exact hasked
            · rw [← hloading]
      · exact hearlier rest hmiddle

/-! ## Packages are asked for once -/

theorem exists_lookup_of_parsed (keeps : loader.KeepsPaths) {path : String} {package : Package}
    (h : loader.parsed path = .ok package) (session : Session) :
    ∃ found, (after (Resolution.package loader path) session).packages.lookup path = some found := by
  cases hkept : session.packages.lookup path with
  | some found => exact ⟨found, by rw [after_package_of_kept hkept, hkept]⟩
  | none =>
      have hanswer := (answer_package_of_new keeps hkept).trans h
      exact ⟨package, lookup_of_answer_package keeps hanswer⟩

/-- Every call goes by steps over its loader. From the moment on at which a call loads a package that
parses, or at which one is added, neither the package nor its name is asked for again, in this call or
later; from the moment on at which an import table is made, no name is that was asked for its sake;
and no import table asks twice. -/
theorem asks_once :
    (∀ {loader : Loader} {α : Type} {action : Resolution α}, loader.KeepsPaths →
      Operation loader action → ∀ session, Steps loader session (after action session)) ∧
    (∀ {loader : Loader} {α : Type} {action : Resolution α} {session later : Session}
      {path : String} {package : Package} {asked before : List LoaderRequest},
      loader.KeepsPaths → Operation loader action → Leads .empty session →
        (after action session).requests = asked ++ .load path :: before →
          session.requests <:+ before → loader.parsed path = .ok package →
            Leads (after action session) later →
              ∃ rest, later.requests = rest ++ .load path :: before ∧
                .load path ∉ rest ∧ .locate path ∉ rest) ∧
    (∀ {loaded : LoadedPackage} {package : Package} {session later : Session},
      Leads .empty session → answer (addPackage loaded) session = .ok package →
        Leads (after (addPackage loaded) session) later →
          ∃ rest, later.requests = rest ++ (after (addPackage loaded) session).requests ∧
            .load loaded.path ∉ rest ∧ .locate loaded.path ∉ rest) ∧
    ∀ (loader : Loader) (package : Package) (unit : Nat) (session : Session),
      ∃ paths : List String, paths.Nodup ∧
        (after (importTable loader package unit) session).requests =
          (paths.map LoaderRequest.locate).reverse ++ session.requests ∧
        ∀ {table : ImportTable} {later : Session},
          answer (importTable loader package unit) session = .ok table →
            Leads (after (importTable loader package unit) session) later →
              ∃ rest, later.requests =
                  rest ++ (after (importTable loader package unit) session).requests ∧
                ∀ path ∈ paths, .locate path ∉ rest := by
  refine ⟨fun keeps hcall session => hcall.steps keeps session, ?_, ?_, ?_⟩
  · intro loader α action session later path package asked before keeps hcall hsession hasked hbefore
      hparsed hlater
    obtain ⟨middle, hmiddle, hloaded, hrest⟩ :=
      Steps.exists_loading (hcall.steps keeps session) keeps hasked hbefore
    obtain ⟨found, hfound⟩ := exists_lookup_of_parsed keeps hparsed middle
    have hreached := (hsession.trans (hmiddle.leads keeps)).tail ⟨_, keeps, .package path⟩
    rw [← hloaded]
    exact Leads.asked_of_lookup hreached hfound ((Steps.leads hrest keeps).trans hlater)
  · intro loaded package session later hsession hanswer hlater
    have hadded := hsession.tail ⟨_, Library.empty.keepsPaths, .addPackage loaded⟩
    exact Leads.asked_of_lookup hadded (lookup_of_answer_addPackage hanswer) hlater
  · intro loader package unit session
    obtain ⟨paths, hnodup, hpaths⟩ := exists_located loader package unit session
    refine ⟨paths, hnodup, hpaths, fun hanswer hlater => ?_⟩
    obtain ⟨rest, hrest, hunknown⟩ := Leads.asked hlater
    refine ⟨rest, hrest, fun path hpath => hunknown _ ?_⟩
    exact knows_of_answer_importTable hanswer hpaths hpath

/-- Two packages that import each other. When the cycle through both is reported, each was loaded, and
the report is made again without asking; so it is when one of them was added before. -/
theorem asks_once_ring :
    ∃ package : Package, Library.ring.loader.parsed "a" = .ok package ∧
      let call := interface Library.ring.loader "a" "D"
      let asked := after call .empty
      let added := after (addPackage ⟨"b", "b", [⟨"b.go", "package b"⟩]⟩) .empty
      let named := after (importTable Library.ring.loader package 0) .empty
      asked.requests = [.load "b", .locate "b"] ++ .load "a" :: [] ∧
        (∃ rest, (after call asked).requests = rest ++ .load "a" :: [] ∧
          .load "a" ∉ rest ∧ .locate "a" ∉ rest) ∧
        (∃ rest, (after call added).requests = rest ++ added.requests ∧
          .load "b" ∉ rest ∧ .locate "b" ∉ rest) ∧
        ∃ paths : List String,
          named.requests = (paths.map LoaderRequest.locate).reverse ++ [] ∧
            ∃ rest, (after call named).requests = rest ++ named.requests ∧
              ∀ path ∈ paths, .locate path ∉ rest := by
  obtain ⟨hcalls, hloads, hadds, himports⟩ := asks_once
  have keeps := Library.ring.keepsPaths
  have hcall : Operation Library.ring.loader (interface Library.ring.loader "a" "D") :=
    .interface "a" "D"
  have hlater (session : Session) := Steps.leads (hcalls keeps hcall session) keeps
  have hchecks : ((answer (scope Library.ring.loader "a" 0) .empty).toOption.any fun scope =>
      (answer (importTable Library.ring.loader scope.package 0) .empty).toOption.any fun _ =>
        (answer (addPackage ⟨"b", "b", [⟨"b.go", "package b"⟩]⟩) .empty).toOption.any fun _ =>
          true) = true := by
    decide +kernel
  obtain ⟨scope, hscope, hchecks⟩ := exists_of_any_toOption hchecks
  obtain ⟨table, htable, hchecks⟩ := exists_of_any_toOption hchecks
  obtain ⟨added, hadded, -⟩ := exists_of_any_toOption hchecks
  obtain ⟨package, hanswer, hscope⟩ := exists_answer_of_bind hscope
  obtain ⟨_, -, hscope⟩ := exists_answer_of_bind hscope
  obtain rfl : package = scope.package := by
    cases hscope
    rfl
  have hparsed := (answer_package_of_new keeps rfl).symm.trans hanswer
  have hasked : (after (interface Library.ring.loader "a" "D") .empty).requests =
      [.load "b", .locate "b"] ++ .load "a" :: [] := by
    decide +kernel
  obtain ⟨paths, -, hpaths, hspares⟩ := himports Library.ring.loader scope.package 0 .empty
  exact ⟨scope.package, hparsed, hasked,
    hloads keeps hcall .refl hasked (List.suffix_refl _) hparsed (hlater _),
    hadds .refl hadded (hlater _), paths, hpaths, hspares htable (hlater _)⟩

end Session

end GoTrace
