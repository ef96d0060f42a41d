import GoTrace.Proofs.Resolve.References

/-!
# How references are explored

Resolving an interface goes along references, depth first: while a declaration is being resolved it asks
for the types that it refers to, and for no others. It is kept when all of them are kept. So what is kept
has been resolved to the end, in any session, and a cycle that is reported was met where a reference leads
back to an interface in resolution.
-/

namespace GoTrace

open Resolution

/-- A loader that fails in other ways than by the report of a cycle. -/
def Loader.ReportsNoCycle (loader : Loader) : Prop :=
  ∀ ⦃path cause⦄, loader.load path = .error cause → cause.isCycle = false

theorem Library.reportsNoCycle (library : Library) : library.loader.ReportsNoCycle :=
  fun _ _ h => nomatch h

namespace Resolution

variable {α β : Type} {loader : Loader}

/-! ## What reports no cycle -/

def Silent (action : Resolution α) : Prop :=
  ∀ session cause, answer action session = .error (.error cause) → cause.isCycle = false

theorem Silent.bind {action : Resolution α} {next : α → Resolution β} (h : Silent action)
    (h' : ∀ value, Silent (next value)) : Silent (action >>= next) := by
  intro session cause hanswer
  rw [answer_bind] at hanswer
  split at hanswer
  · exact h' _ _ _ hanswer
  · rename_i failure hfailure
    exact h _ _ (by rw [hfailure, Except.error.inj hanswer])

theorem silent_package (keeps : loader.KeepsPaths) (silent : loader.ReportsNoCycle) (path : String) :
    Silent (package loader path) := by
  intro session cause hanswer
  cases hkept : session.packages.lookup path with
  | some found =>
      rw [answer_package_of_kept hkept] at hanswer
      cases hanswer
  | none =>
      rw [answer_package_of_new keeps hkept, Loader.parsed] at hanswer
      split at hanswer
      · rename_i hload
        cases hanswer
        exact silent hload
      · cases hanswer
        rfl
      · obtain ⟨unit, -, failure, -, heq⟩ := Package.exists_parse_error hanswer
        cases failure <;> cases heq
        rfl

theorem silent_importTable (package : Package) (unit : Nat) :
    Silent (importTable loader package unit) := by
  intro session cause hanswer
  cases hkept : session.importTables.lookup (package.path, unit) with
  | some table =>
      simp [importTable, answer_bind, hkept] at hanswer
  | none =>
      rw [answer_importTable_of_new hkept] at hanswer
      by_cases hmissing : loader.missing (session.unknownPaths package unit) = []
      · rw [Loader.namesOf_eq_ok hmissing] at hanswer
        cases hanswer
      · rw [Loader.namesOf_eq_error hmissing] at hanswer
        cases hanswer
        rfl

def silencing (keeps : loader.KeepsPaths) (silent : loader.ReportsNoCycle) : Inheritance loader where
  good _ := True
  holds := Silent
  pure _ _ _ h := nomatch h
  fail hcause _ _ h := by
    cases h
    exact hcause
  bind := Silent.bind
  renamed {_ action rename} hrename h session cause hanswer := by
    rw [answer_renamed] at hanswer
    have hfails := h session
    cases hfound : answer action session with
    | ok value =>
        rw [hfound] at hanswer
        cases hanswer
    | error failure =>
        rw [hfound] at hanswer
        cases failure with
        | error cause =>
            cases hanswer
            rw [hrename]
            exact hfails cause hfound
        | splitCharacter => cases hanswer
        | exhausted => cases hanswer
  get _ _ h := nomatch h
  package_bind h := (silent_package keeps silent _).bind fun _ => h _ trivial
  importTable _ unit := silent_importTable _ unit
  unreadable _ _ _ _ h := nomatch h

end Resolution

/-! ## One step of the exploration -/

/-- A session on the way from `start` that is resolving `stack`. What it keeps was resolved to the
end. -/
structure Session.Exploring (loader : Loader) (session start : Session)
    (stack : List InterfaceKey) : Prop where
  viewing : Viewing loader start session
  conclusive : session.Conclusive loader
  resolving : session.resolving = stack

namespace Resolution

variable {α β : Type} {loader : Loader} {start : Session} {stack : List InterfaceKey}
  {resolve : String → String → Resolution Interface} {may must : InterfaceKey → Prop}

/-- The action asks `resolve` for such types only that it `may` ask for, and has asked for those that it
`must` when it succeeds. -/
structure Explores (loader : Loader) (start : Session) (stack : List InterfaceKey)
    (resolve : String → String → Resolution Interface) (may must : InterfaceKey → Prop)
    (action : Resolution α) : Prop where
  keeps : ∀ {session}, session.Exploring loader start stack → Lasting (answer action session) →
    (after action session).Exploring loader start stack ∧
      Extends session.interfaces (after action session).interfaces
  finds : ∀ {session value}, session.Exploring loader start stack →
    answer action session = .ok value → ∀ target, must target →
      ∃ found, (after action session).interfaces.lookup target = some found
  reports : ∀ {session chain}, session.Exploring loader start stack →
    answer action session = .error (.error (.cyclicEmbed chain)) →
      ∃ later target, later.Exploring loader start stack ∧ may target ∧
        answer (resolve target.1 target.2) later = .error (.error (.cyclicEmbed chain))

namespace Explores

theorem mono {may' must' : InterfaceKey → Prop} {action : Resolution α}
    (h : Explores loader start stack resolve may must action) (hmay : ∀ target, may target → may' target)
    (hmust : ∀ target, must' target → must target) :
    Explores loader start stack resolve may' must' action where
  keeps := h.keeps
  finds hs hanswer target htarget := h.finds hs hanswer target (hmust target htarget)
  reports hs hanswer := by
    obtain ⟨later, target, hlater, htarget, hreport⟩ := h.reports hs hanswer
    exact ⟨later, target, hlater, hmay target htarget, hreport⟩

theorem bind {must' : InterfaceKey → Prop} {action : Resolution α} {next : α → Resolution β}
    (h : Explores loader start stack resolve may must action)
    (h' : ∀ {value session}, session.Exploring loader start stack →
      answer action session = .ok value →
        Explores loader start stack resolve may must' (next value)) :
    Explores loader start stack resolve may (fun target => must target ∨ must' target)
      (action >>= next) where
  keeps {session} hs hlasting := by
    have hkeeps := h.keeps hs
    rw [answer_bind] at hlasting
    rw [after_bind]
    cases hanswer : answer action session with
    | error failure =>
        rw [hanswer] at hkeeps
        simp only [hanswer] at hlasting
        exact hkeeps (by cases failure <;> exact hlasting)
    | ok value =>
        rw [hanswer] at hkeeps
        simp only [hanswer] at hlasting
        obtain ⟨hbetween, hextends⟩ := hkeeps trivial
        obtain ⟨hlater, hextends'⟩ := (h' hs hanswer).keeps hbetween hlasting
        exact ⟨hlater, hextends.trans hextends'⟩
  finds {session result} hs hresult target htarget := by
    obtain ⟨value, hvalue, hresult⟩ := exists_answer_of_bind hresult
    obtain ⟨hbetween, -⟩ := h.keeps hs (by rw [hvalue]; trivial)
    rw [after_bind, hvalue]
    rcases htarget with htarget | htarget
    · obtain ⟨found, hfound⟩ := h.finds hs hvalue target htarget
      obtain ⟨-, hextends⟩ := (h' hs hvalue).keeps hbetween (by rw [hresult]; trivial)
      exact ⟨found, hextends _ _ hfound⟩
    · exact (h' hs hvalue).finds hbetween hresult target htarget
  reports {session chain} hs hreport := by
    rw [answer_bind] at hreport
    split at hreport
    · rename_i value hvalue
      obtain ⟨hbetween, -⟩ := h.keeps hs (by rw [hvalue]; trivial)
      exact (h' hs hvalue).reports hbetween hreport
    · rename_i failure hfailure
      exact h.reports hs (by rw [hfailure, Except.error.inj hreport])

/-- An action that is made of packages and import tables only, of packages that are shown. -/
theorem of_parts (steady : loader.Steady) (silent : loader.ReportsNoCycle) {action : Resolution α}
    (h : ∀ inherits : Inheritance loader,
      (∀ package, start.packageAt loader package.path = .ok package → inherits.good package) →
        inherits.holds action) :
    Explores loader start stack resolve may (fun _ => False) action where
  keeps {session} hs _ := by
    have keeps : loader.KeepsPaths := fun _ _ => steady.path
    obtain ⟨hinterfaces, hresolving⟩ := h (untouching keeps) (fun _ _ => trivial) session
    have hsteps := h (stepping loader) (fun _ _ => trivial) session
    have hchanges := (Session.Steps.leads hsteps keeps).changes
    refine ⟨⟨h (showing steady start) (fun _ => id) session hs.viewing,
      hs.conclusive.of_changes hchanges hinterfaces, hresolving.trans hs.resolving⟩, ?_⟩
    rw [hinterfaces]
    exact .refl _
  finds _ _ _ := False.elim
  reports {session _} _ hreport := by
    have keeps : loader.KeepsPaths := fun _ _ => steady.path
    cases h (silencing keeps silent) (fun _ _ => trivial) session _ hreport

theorem pure (steady : loader.Steady) (silent : loader.ReportsNoCycle) (value : α) :
    Explores loader start stack resolve may (fun _ => False) (pure value) :=
  of_parts steady silent fun inherits _ => inherits.pure value

theorem fail {cause : ResolveError} (h : cause.isCycle = false) :
    Explores loader start stack resolve may must (Resolution.fail cause : Resolution α) where
  keeps hs _ := ⟨hs, .refl _⟩
  finds _ h := nomatch h
  reports _ hreport := by
    cases hreport
    cases h

theorem after_parts (steady : loader.Steady) (silent : loader.ReportsNoCycle) {action : Resolution α}
    {next : α → Resolution β}
    (h : ∀ inherits : Inheritance loader,
      (∀ package, start.packageAt loader package.path = .ok package → inherits.good package) →
        inherits.holds action)
    (h' : ∀ {value session}, session.Exploring loader start stack →
      answer action session = .ok value →
        Explores loader start stack resolve may must (next value)) :
    Explores loader start stack resolve may must (action >>= next) :=
  ((of_parts steady silent h).bind h').mono (fun _ => id) fun _ => .inr

theorem andThen_pure (steady : loader.Steady) (silent : loader.ReportsNoCycle)
    {action : Resolution α} {f : α → β} (h : Explores loader start stack resolve may must action) :
    Explores loader start stack resolve may must (action >>= fun value => Pure.pure (f value)) :=
  (h.bind fun _ _ => .pure steady silent _).mono (fun _ => id) fun _ => .inl

end Explores

/-! ## Declarations -/

theorem pathOf_of_answer_packagePath {scope : Scope} {aliasName path : String} {session : Session}
    (h : answer (packagePath scope aliasName) session = .ok path) :
    scope.imports.pathOf aliasName = some path := by
  unfold packagePath at h
  split at h
  · cases h
    assumption
  · cases h

theorem memberError_eq_cyclicEmbed {declared : String} {cause : ResolveError} {chain : List String} :
    memberError declared cause = .cyclicEmbed chain ↔ cause = .cyclicEmbed chain := by
  cases cause <;> simp [memberError]

section

variable (steady : loader.Steady) (silent : loader.ReportsNoCycle)
  (hresolve : ∀ path name, Explores loader start stack resolve (· = (path, name)) (· = (path, name))
    (resolve path name))

include hresolve

theorem embeddedInterface_explores (path name declared : String) :
    Explores loader start stack resolve (· = (path, name)) (· = (path, name))
      (embeddedInterface resolve path name declared) := by
  have hinner := hresolve path name
  rw [embeddedInterface_eq]
  refine ⟨fun {session} hs hlasting => ?_, fun {session value} hs hanswer => ?_,
    fun {session chain} hs hreport => ?_⟩
  · rw [answer_renamed, lasting_mapError] at hlasting
    rw [after_renamed]
    exact hinner.keeps hs hlasting
  · rw [answer_renamed] at hanswer
    rw [after_renamed]
    exact hinner.finds hs (mapError_eq_ok.mp hanswer)
  · refine hinner.reports hs ?_
    rw [answer_renamed] at hreport
    cases hfound : answer (resolve path name) session with
    | ok found =>
        rw [hfound] at hreport
        cases hreport
    | error failure =>
        rw [hfound] at hreport
        cases failure with
        | error cause =>
            have hcause := Failure.error.inj (Except.error.inj hreport)
            rw [memberError_eq_cyclicEmbed.mp hcause]
        | splitCharacter => cases hreport
        | exhausted => cases hreport

include steady silent

variable {scope : Scope}

theorem embed_explores (type : TypeExpr) (declared : String) :
    Explores loader start stack resolve (scope.Names type) (scope.Names type)
      (embed loader resolve scope declared type) := by
  unfold embed
  split
  · rename_i name htype
    split
    · rename_i hfound
      exact (embeddedInterface_explores hresolve _ _ _).mono
        (fun target heq => heq ▸ .own htype hfound) fun target hnames => (hnames.of_own htype).1
    · rename_i hmissing
      split
      · exact (Explores.pure steady silent _).mono (fun _ => id)
          fun target hnames => hmissing (hnames.of_own htype).2
      · split
        · exact .fail rfl
        · exact .fail rfl
  · rename_i aliasName name htype
    refine .after_parts steady silent (fun inherits _ => inherits.packagePath _ _) fun _ hpath => ?_
    have hpathOf := pathOf_of_answer_packagePath hpath
    refine .after_parts steady silent (fun inherits _ => inherits.package _) fun _ _ => ?_
    split
    · exact .fail rfl
    · exact (embeddedInterface_explores hresolve _ _ _).mono
        (fun target heq => heq ▸ .imported htype hpathOf)
          fun target hnames => hnames.of_imported htype hpathOf
  · exact .fail rfl
  · exact .fail rfl
  · exact .fail rfl

theorem referenced_explores {type : TypeExpr} {package : Option String} {name : String}
    {args : List TypeExpr} (htype : type.unparen = .name package name args) (declared : String) :
    Explores loader start stack resolve (scope.Names type) (scope.Names type)
      (referenced resolve scope declared package name args) := by
  unfold referenced
  split
  · exact .fail rfl
  · rename_i hargs
    obtain rfl : args = [] := by simpa using hargs
    split
    · rename_i aliasName
      refine .after_parts steady silent (fun inherits _ => inherits.packagePath _ _) fun _ hpath => ?_
      have hpathOf := pathOf_of_answer_packagePath hpath
      exact (hresolve _ _).mono (fun target heq => heq ▸ .imported htype hpathOf)
        fun target hnames => hnames.of_imported htype hpathOf
    · split
      · rename_i hfound
        exact (hresolve _ _).mono (fun target heq => heq ▸ .own htype hfound)
          fun target hnames => (hnames.of_own htype).1
      · rename_i hmissing
        split
        · exact (Explores.pure steady silent _).mono (fun _ => id)
            fun target hnames => hmissing (hnames.of_own htype).2
        · exact .fail rfl

def Embeds (scope : Scope) (elements : List Element) (target : InterfaceKey) : Prop :=
  ∃ type span, .embed [⟨false, type⟩] span ∈ elements ∧ scope.Names type target

theorem addElement_explores (hscope : start.packageAt loader scope.package.path = .ok scope.package)
    (element : Element) (declared : String) (methods : MethodSet) :
    Explores loader start stack resolve (Embeds scope [element]) (Embeds scope [element])
      (addElement loader resolve scope declared methods element) := by
  unfold addElement
  split
  · refine ((Explores.of_parts steady silent fun inherits hgood => inherits.bind
      (inherits.method (hgood _ hscope) _ _) fun _ => inherits.pure _).mono (fun _ => id) ?_)
    rintro target ⟨type, span, hmem, -⟩
    simp at hmem
  · rename_i type span
    refine ((embed_explores steady silent hresolve type declared).andThen_pure steady silent).mono
      (fun target hnames => ⟨type, span, List.mem_singleton_self _, hnames⟩) ?_
    rintro target ⟨type', span', hmem, hnames⟩
    cases List.mem_singleton.mp hmem
    exact hnames
  · exact .fail rfl
  · exact .fail rfl

theorem members_explores (hscope : start.packageAt loader scope.package.path = .ok scope.package)
    (elements : List Element) (declared : String) :
    Explores loader start stack resolve (Embeds scope elements) (Embeds scope elements)
      (members loader resolve scope declared elements) := by
  unfold members
  generalize Roster.empty = methods
  induction elements generalizing methods with
  | nil =>
      refine (Explores.pure steady silent methods).mono (fun _ => False.elim) ?_
      rintro target ⟨type, span, hmem, -⟩
      cases hmem
  | cons element rest ih =>
      rw [List.foldlM_cons]
      have hsplit : ∀ target, Embeds scope (element :: rest) target ↔
          Embeds scope [element] target ∨ Embeds scope rest target := by
        intro target
        simp [Embeds, List.mem_cons, or_and_right, exists_or]
      refine (Explores.bind ?_ fun _ _ => (ih _).mono ?_ fun _ => id).mono (fun _ => id)
        fun target => (hsplit target).mp
      · exact (addElement_explores steady silent hresolve hscope element declared methods).mono
          (fun target hnames => (hsplit target).mpr (.inl hnames)) fun _ => id
      · exact fun target hnames => (hsplit target).mpr (.inr hnames)

theorem declaredIn_explores {key : InterfaceKey} {spec : TypeSpec}
    (hscope : start.packageAt loader scope.package.path = .ok scope.package)
    (hdeclared : start.DeclaredBy loader key scope spec) :
    Explores loader start stack resolve (start.Refers loader key) (start.Refers loader key)
      (declaredIn loader resolve key.2 scope spec) := by
  unfold declaredIn
  split
  · rename_i elements htype
    refine ((members_explores steady silent hresolve hscope elements key.2).andThen_pure steady
      silent).mono ?_ fun target hrefers => ?_
    · rintro target ⟨type, span, hmem, hnames⟩
      exact .embed hdeclared htype hmem hnames
    · cases hrefers with
      | embed hdeclared' htype' hmem hnames =>
          obtain ⟨rfl, rfl⟩ := hdeclared.unique hdeclared'
          cases htype.symm.trans htype'
          exact ⟨_, _, hmem, hnames⟩
      | reference hdeclared' hnames =>
          obtain ⟨rfl, rfl⟩ := hdeclared.unique hdeclared'
          cases hnames with
          | own htype' => cases htype.symm.trans htype'
          | imported htype' => cases htype.symm.trans htype'
  · rename_i qualifier name args htype
    refine ((referenced_explores steady silent hresolve htype key.2).andThen_pure steady silent).mono
      (fun target => .reference hdeclared) fun target hrefers => ?_
    cases hrefers with
    | embed hdeclared' htype' hmem hnames =>
        obtain ⟨rfl, rfl⟩ := hdeclared.unique hdeclared'
        cases htype.symm.trans htype'
    | reference hdeclared' hnames =>
        obtain ⟨rfl, rfl⟩ := hdeclared.unique hdeclared'
        exact hnames
  · exact .fail rfl

theorem declaredInterface_explores (key : InterfaceKey) :
    Explores loader start stack resolve (start.Refers loader key) (start.Refers loader key)
      (declaredInterface loader resolve key.1 key.2) := by
  have keeps : loader.KeepsPaths := fun _ _ => steady.path
  rw [declaredInterface_eq_bind]
  refine .after_parts steady silent (fun inherits _ => inherits.package _)
    fun {package _} hs hpackage => ?_
  obtain ⟨hpath, hshown⟩ := hs.viewing.packageAt_of_answer keeps hpackage
  unfold declaredOf
  split
  · exact .fail rfl
  · rename_i unit spec hfound
    split
    · exact .fail rfl
    · refine .after_parts steady silent (fun inherits hgood => inherits.importTable (hgood _ hshown) _)
        fun {imports _} hs htable => ?_
      rw [Session.answer_importTable_eq_ok_iff, hs.viewing.shows.tables hshown] at htable
      have hdeclared : start.DeclaredBy loader key ⟨package, unit, imports⟩ spec :=
        ⟨by rw [← hpath]; exact hshown, hfound, htable⟩
      exact declaredIn_explores steady silent hresolve hshown hdeclared

end

/-! ## Interfaces -/

theorem firm_of_answer_declaredInterface (keeps : loader.KeepsPaths)
    {resolve : String → String → Resolution Interface}
    (hresolve : ∀ path name, (stepping loader).holds (resolve path name)) {key : InterfaceKey}
    {session : Session} {interface : Interface}
    (h : answer (declaredInterface loader resolve key.1 key.2) session = .ok interface) :
    (after (declaredInterface loader resolve key.1 key.2) session).Firm key := by
  rw [declaredInterface_eq_bind] at h ⊢
  obtain ⟨package, hpackage, h⟩ := exists_answer_of_bind h
  rw [after_bind, hpackage]
  have hkept := lookup_of_answer_package keeps hpackage
  have hsteps : (stepping loader).holds (declaredOf loader resolve key.1 key.2 package) :=
    (stepping loader).declaredOf hresolve trivial key.1 key.2
  have hchanges := ((hsteps (after (Resolution.package loader key.1) session)).leads keeps).changes
  refine ⟨package, hchanges.lookup_packages hkept, fun unit spec hfound => ?_⟩
  obtain ⟨unit', spec', imports, hfound', himports, -, hafter⟩ := exists_of_answer_declaredOf h
  obtain ⟨rfl, rfl⟩ := Prod.mk.inj (Option.some.inj (hfound.symm.trans hfound'))
  have htable := lookup_of_answer_importTable himports
  have hsteps' : (stepping loader).holds
      (declaredIn loader resolve key.2 ⟨package, unit, imports⟩ spec) :=
    (stepping loader).declaredIn hresolve key.2 trivial spec
  have hchanges' := ((hsteps' (after (importTable loader package unit)
    (after (Resolution.package loader key.1) session))).leads keeps).changes
  dsimp only
  rw [hafter]
  exact ⟨imports, hchanges'.lookup_importTables htable⟩

/-- An interface that was resolved is kept. -/
theorem exists_kept_of_answer_interfaceUpTo {bound : Nat} {path name : String} {session : Session}
    {interface : Interface}
    (h : answer (interfaceUpTo loader (bound + 1) path name) session = .ok interface) :
    ∃ found, (after (interfaceUpTo loader (bound + 1) path name) session).interfaces.lookup
      (path, name) = some found := by
  obtain hlookup | ⟨hlookup, hnew, hanswer⟩ := kept_or_declared_of_answer_interfaceUpTo _ h
  · rw [after_interfaceUpTo_of_kept _ hlookup]
    exact ⟨interface, hlookup⟩
  · rw [after_interfaceUpTo_of_new _ hlookup hnew (by rw [hanswer]; trivial)]
    simp only [hanswer]
    exact ⟨interface, List.lookup_cons_self⟩

end Resolution

namespace Session.Exploring

variable {loader : Loader} {session start : Session} {stack : List InterfaceKey} {key : InterfaceKey}

theorem entering (h : session.Exploring loader start stack) (key : InterfaceKey) :
    (Resolution.entering session key).Exploring loader start (stack ++ [key]) where
  viewing := h.viewing.congr rfl rfl rfl
  conclusive := h.conclusive.of_changes (.single (.enter key)) rfl
  resolving := by rw [Resolution.entering, h.resolving]

theorem leaving (h : session.Exploring loader start (stack ++ [key])) (hnew : key ∉ stack) :
    (Resolution.leaving session key).Exploring loader start stack where
  viewing := h.viewing.congr rfl rfl rfl
  conclusive := h.conclusive.of_changes (.single (.leave key)) rfl
  resolving := by
    rw [Resolution.leaving, h.resolving, List.erase_append_right _ hnew]
    simp

/-- An interface is kept when its declaration stays and all that it refers to is kept. -/
theorem keeping (keeps : loader.KeepsPaths) (grounded : start.Grounded loader)
    (h : session.Exploring loader start stack) {interface : Interface} (hfirm : session.Firm key)
    (hrefers : ∀ target, start.Refers loader key target →
      ∃ found, session.interfaces.lookup target = some found)
    (hchanges : Changes session (session.keeping key interface)) :
    (session.keeping key interface).Exploring loader start stack where
  viewing := h.viewing.congr rfl rfl rfl
  conclusive := by
    have hconcluded : session.Concluded loader key := by
      refine .intro hfirm fun target htarget => ?_
      obtain ⟨found, hfound⟩ := hrefers target ((h.viewing.refers_iff keeps grounded).mp htarget)
      exact h.conclusive hfound
    intro other found hfound
    simp only [Session.keeping, List.lookup_cons] at hfound
    split at hfound
    · rename_i heq
      rw [eq_of_beq heq]
      exact hconcluded.of_changes hchanges
    · exact (h.conclusive hfound).of_changes hchanges
  resolving := h.resolving

theorem restart (h : session.Exploring loader start stack) :
    session.Exploring loader session stack :=
  ⟨.refl h.viewing.grounded, h.conclusive, h.resolving⟩

end Session.Exploring

namespace Resolution

variable {loader : Loader} {start : Session} {stack : List InterfaceKey} (steady : loader.Steady)
  (silent : loader.ReportsNoCycle) (grounded : start.Grounded loader)

include steady silent grounded

/-- The bound does not matter: what is kept afterwards was resolved to the end. -/
theorem interfaceUpTo_explores (bound : Nat) (path name : String) :
    Explores loader start stack (interfaceUpTo loader bound) (· = (path, name)) (· = (path, name))
      (interfaceUpTo loader bound path name) := by
  have keeps : loader.KeepsPaths := fun _ _ => steady.path
  induction bound generalizing stack path name with
  | zero => exact ⟨fun _ h => (nomatch h), fun _ h => (nomatch h), fun _ h => (nomatch h)⟩
  | succ bound ih =>
      have hdeclared (stack : List InterfaceKey) : Explores loader start stack
          (interfaceUpTo loader bound) (start.Refers loader (path, name))
            (start.Refers loader (path, name)) (declaredUpTo loader bound (path, name)) :=
        declaredInterface_explores steady silent ih (path, name)
      refine ⟨fun {session} hs hlasting => ?_, fun {session value} hs hanswer target heq => ?_,
        fun hs hreport => ⟨_, _, hs, rfl, hreport⟩⟩
      · have hleaves := leaves_interfaceUpTo loader bound path name session
        generalize after (interfaceUpTo loader (bound + 1) path name) session = later at hleaves ⊢
        cases hleaves with
        | same => exact ⟨hs, .refl _⟩
        | broken hlookup hcyclic hbroken =>
            rw [answer_interfaceUpTo_of_new _ hlookup hcyclic] at hlasting
            exact absurd hlasting hbroken
        | failed hlookup hcyclic hfailed =>
            have hnew : (path, name) ∉ stack := hs.resolving ▸ hcyclic
            obtain ⟨hinner, hextends⟩ :=
              (hdeclared _).keeps (hs.entering (path, name)) (by rw [hfailed]; trivial)
            exact ⟨hinner.leaving hnew, hextends⟩
        | kept hlookup hcyclic hkept =>
            have hnew : (path, name) ∉ stack := hs.resolving ▸ hcyclic
            obtain ⟨hinner, hextends⟩ :=
              (hdeclared _).keeps (hs.entering (path, name)) (by rw [hkept]; trivial)
            have hsteps := interfaceUpTo_steps keeps bound
            have hfirm := (firm_of_answer_declaredInterface keeps hsteps hkept).of_changes
              (.single (.leave (path, name)))
            have hchanges := (step_keeping keeps hsteps hkept).changes keeps
            refine ⟨(hinner.leaving hnew).keeping keeps grounded hfirm
              ((hdeclared _).finds (hs.entering (path, name)) hkept) hchanges,
              Extends.cons hextends hlookup _⟩
      · subst heq
        exact exists_kept_of_answer_interfaceUpTo hanswer

theorem interface_explores (path name : String) :
    Explores loader start stack (interface loader) (· = (path, name)) (· = (path, name))
      (interface loader path name) where
  keeps {session} hs hlasting := by
    rw [answer_interface] at hlasting
    rw [after_interface]
    exact (interfaceUpTo_explores steady silent grounded _ path name).keeps hs hlasting
  finds {session value} hs hanswer := by
    rw [answer_interface] at hanswer
    rw [after_interface]
    exact (interfaceUpTo_explores steady silent grounded _ path name).finds hs hanswer
  reports hs hreport := ⟨_, _, hs, rfl, hreport⟩

theorem resolvedPackage_explores (path : String) :
    Explores loader start stack (interface loader) (fun _ => True) (fun _ => False)
      (resolvedPackage loader path) := by
  have hnames (names : List String) : Explores loader start stack (interface loader) (fun _ => True)
      (fun _ => False) (names.mapM fun name => interface loader path name) := by
    induction names with
    | nil => exact .pure steady silent _
    | cons name rest ih =>
        rw [List.mapM_cons]
        refine ((interface_explores steady silent grounded path name).mono (fun _ _ => trivial)
          fun _ => False.elim).bind (fun {_ _} _ _ => ih.andThen_pure steady silent) |>.mono
            (fun _ => id) fun _ => .inl
  unfold resolvedPackage
  exact .after_parts steady silent (fun inherits _ => inherits.package _)
    fun _ _ => (hnames _).andThen_pure steady silent

end Resolution

/-- Whatever calls were made over one loader, what is kept was resolved to the end. -/
theorem Session.Reached.exploring {loader : Loader} (steady : loader.Steady)
    (silent : loader.ReportsNoCycle) {session : Session} (h : session.Used loader) :
    session.Exploring loader session [] := by
  induction h with
  | empty => exact ⟨.refl (grounded_empty loader), nofun, rfl⟩
  | @call session _ _ action _ heq hcall hlasting ih =>
      subst heq
      have keeps : Loader.KeepsPaths _ := fun _ _ => steady.path
      have hgrounded := (hcall.steps keeps session).grounded keeps ih.viewing.grounded
      have hchanges := ((hcall.steps keeps session).leads keeps).changes
      have huntouched (h : (after action session).interfaces = session.interfaces ∧
          (after action session).resolving = session.resolving) :
          (after action session).Exploring _ (after action session) [] :=
        ⟨.refl hgrounded, ih.conclusive.of_changes hchanges h.1, h.2.trans ih.resolving⟩
      cases hcall with
      | addPackage _ => exact huntouched (untouched_addPackage _ _)
      | package path => exact huntouched (untouched_package keeps _ _)
      | importTable unit _ => exact huntouched (untouched_importTable _ _ _)
      | scope path unit => exact huntouched ((untouching keeps).scope path unit session)
      | parameters fields _ =>
          exact huntouched ((untouching keeps).parameters trivial fields session)
      | type expr _ => exact huntouched ((untouching keeps).type trivial expr session)
      | resolvedPackage path =>
          exact ((resolvedPackage_explores steady silent ih.viewing.grounded path).keeps ih
            hlasting).1.restart
      | interface path name =>
          exact ((interface_explores steady silent ih.viewing.grounded path name).keeps ih
            hlasting).1.restart

end GoTrace
