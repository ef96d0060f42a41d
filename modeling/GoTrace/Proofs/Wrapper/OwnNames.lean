import GoTrace.Proofs.Resolve.Answer
import GoTrace.Proofs.Wrapper.Mentions
import GoTrace.Proofs.Wrapper.Numbering

/-!
# Names that aliases hide

A generated file declares a type and a function for each interface, and types of its own package and
predeclared ones stand in it without a qualifier. An import with such a name as its alias takes the name
away from them. The aliases are chosen without a look at these names: here it is said exactly when one
of them is taken away.
-/

namespace GoTrace

/-! ## What is given out as an alias -/

namespace FileImports

/-- When the package at `path` gets its alias, the name is reserved, or it is the alias of a package
whose path comes earlier. -/
def GivenBefore (imports : FileImports) (path name : String) : Prop :=
  name ∈ reservedNames ∨ ∃ earlier, earlier < path ∧ imports.alias? earlier = some name

variable {localPath : String} {packages : PathMap}

theorem exists_numberedBy {path aliasName : String}
    (h : (ofPackages localPath packages).alias? path = some aliasName) :
    ∃ preferred n, (path, preferred) ∈ packages.entries ∧
      aliasName = numberedBy (baseAlias path preferred) n ∧
      ∀ lower < n, (ofPackages localPath packages).GivenBefore path
        (numberedBy (baseAlias path preferred) lower) := by
  obtain ⟨before, after, haliases⟩ := List.append_of_mem (mem_of_alias? h)
  obtain ⟨preferred, hmem, heq⟩ := eq_numberedAlias_of_assign haliases
  obtain ⟨n, hn, hbefore⟩ := exists_eq_firstFree ((before.map (·.2)).reverse ++ reservedNames)
    (numberedBy (baseAlias path preferred)) 0
  refine ⟨preferred, n, (List.mem_filter.mp hmem).1, heq.trans hn, fun lower hlt => ?_⟩
  rcases List.mem_append.mp (hbefore lower (Nat.zero_le lower) hlt) with hgiven | hreserved
  · obtain ⟨⟨earlier, given⟩, hentry, heq⟩ := List.mem_map.mp (List.mem_reverse.mp hgiven)
    have hearlier := (List.pairwise_append.mp (haliases ▸ pairwise_aliases)).2.2 _ hentry _
      List.mem_cons_self
    refine .inr ⟨earlier, hearlier, alias?_eq_some_iff.mpr ?_⟩
    rw [haliases, ← heq]
    exact List.mem_append_left _ hentry
  · exact .inl hreserved

/-- A name is given out unless it is reserved, when some package prefers it, or comes to it by numbers
that are all given out before. -/
theorem containsAlias_iff {name : String} :
    (ofPackages localPath packages).containsAlias name = true ↔
      name ∉ reservedNames ∧ ∃ path preferred n, (path, preferred) ∈ packages.entries ∧
        path ≠ "" ∧ path ≠ localPath ∧ name = numberedBy (baseAlias path preferred) n ∧
        ∀ lower < n, (ofPackages localPath packages).GivenBefore path
          (numberedBy (baseAlias path preferred) lower) := by
  have hcontains : (ofPackages localPath packages).containsAlias name = true ↔
      ∃ path, (ofPackages localPath packages).alias? path = some name := by
    simp [containsAlias, alias?_eq_some_iff]
  rw [hcontains]
  constructor
  · rintro ⟨path, halias⟩
    obtain ⟨preferred, n, hmem, heq, hbefore⟩ := exists_numberedBy halias
    obtain ⟨-, hempty, hlocal⟩ := isSome_alias?_iff.mp (Option.isSome_iff_exists.mpr ⟨name, halias⟩)
    exact ⟨not_mem_of_mem_assign (mem_of_alias? halias), path, preferred, n, hmem, hempty, hlocal, heq,
      hbefore⟩
  · rintro ⟨hfree, path, preferred, n, hmem, hempty, hlocal, rfl, hbefore⟩
    obtain ⟨aliasName, halias⟩ := exists_alias? (List.mem_map_of_mem hmem) hlocal hempty
    obtain ⟨preferred', m, hmem', rfl, hbefore'⟩ := exists_numberedBy halias
    obtain rfl := preferred_unique hmem hmem'
    rcases Nat.lt_trichotomy m n with hlt | rfl | hlt
    · -- The alias of the package itself would be given out before.
      rcases hbefore m hlt with hreserved | ⟨earlier, hearlier, hgiven⟩
      · exact absurd hreserved (not_mem_of_mem_assign (mem_of_alias? halias))
      · have hsame := List.inj_on_of_nodup_map (nodup_assign reservedNames _)
          (mem_of_alias? hgiven) (mem_of_alias? halias) rfl
        obtain rfl : earlier = path := congrArg Prod.fst hsame
        exact absurd hearlier (String.lt_irrefl earlier)
    · exact ⟨path, halias⟩
    · rcases hbefore' n hlt with hreserved | ⟨earlier, -, hgiven⟩
      · exact absurd hreserved hfree
      · exact ⟨earlier, hgiven⟩

end FileImports

/-! ## What a file calls its own -/

/-- The types that a wrapper names: the interface, the type of tracers, and those in signatures. -/
def Interface.typeNames (backend : Backend) (interface : Interface) :
    List (Option PackageRef × String) :=
  interface.mention :: backend.mention :: interface.methods.items.flatMap Method.names

namespace WrapperFile

open Resolution

/-- The names that a file with wrappers declares, and the types that it names without a qualifier. -/
inductive OwnName (output : OutputPackage) (backend : Backend) (interfaces : List Interface) :
    String → Prop
  | wrapper {interface : Interface} : interface ∈ interfaces →
      OwnName output backend interfaces ("Traced" ++ interface.name)
  | constructor {interface : Interface} : interface ∈ interfaces →
      OwnName output backend interfaces ("NewTraced" ++ interface.name)
  | bare {interface : Interface} {package : Option PackageRef} {name : String} :
      interface ∈ interfaces → (package, name) ∈ interface.typeNames backend →
      (Descriptor.named package name).render (importsOf output backend interfaces).qualifier = name →
      OwnName output backend interfaces name

/-- The name is one of the file's own, and the file imports a package under it. -/
def Hidden (output : OutputPackage) (backend : Backend) (interfaces : List Interface)
    (name : String) : Prop :=
  OwnName output backend interfaces name ∧
    (importsOf output backend interfaces).containsAlias name = true

variable {output : OutputPackage} {backend : Backend} {interfaces : List Interface} {name : String}

/-- The types that stand without a qualifier are the predeclared ones and those of the file's
package. -/
theorem render_named_eq_iff {imports : FileImports} {package : Option PackageRef} :
    (Descriptor.named package name).render imports.qualifier = name ↔
      ∀ held, package = some held → held.path = imports.localPath := by
  cases package with
  | none => simp [Descriptor.render]
  | some held =>
      have hne (aliasName : String) : aliasName ++ "." ++ name ≠ name := by
        intro heq
        have hlength := congrArg String.length heq
        rw [String.length_append, String.length_append, show ".".length = 1 from rfl] at hlength
        omega
      by_cases hlocal : held.path = imports.localPath <;>
        simp [Descriptor.render, FileImports.qualifier, hlocal, hne]

/-- A file takes one of its own names away just where the name is not one of the reserved four and a
package prefers it, or comes to it by numbers that are all given out before. -/
theorem hidden_iff (output : OutputPackage) (backend : Backend) (interfaces : List Interface)
    (name : String) :
    Hidden output backend interfaces name ↔
      OwnName output backend interfaces name ∧ name ∉ reservedNames ∧
        ∃ path preferred n, (path, preferred) ∈ (packages backend interfaces).entries ∧
          path ≠ "" ∧ path ≠ output.path ∧
          name = numberedBy (FileImports.baseAlias path preferred) n ∧
          ∀ lower < n, (importsOf output backend interfaces).GivenBefore path
            (numberedBy (FileImports.baseAlias path preferred) lower) :=
  and_congr_right fun _ => FileImports.containsAlias_iff

/-- A package where a method of `A` refers to a package that its file calls `error`, and one from `B`,
which is declared in another file, gives an `error`. -/
def failing : Library :=
  (Library.empty.add "e/api" ⟨"a.go", "package api\n\nimport error \"x/failure\"\n\n" ++
      "type A interface \x7b\n\tB\n\tM(cause error.T)\n\x7d\n"⟩).add "e/api"
    ⟨"b.go", "package api\n\ntype B interface \x7b\n\tN() error\n\x7d\n"⟩

/-- The file imports one package as `error`, and the result type of `N` stands there as `error`. -/
theorem error_hidden :
    ∃ interface file method,
      answer (Resolution.interface failing.loader "e/api" "A") Session.empty = .ok interface ∧
      (empty ⟨"out", "e/out"⟩ .openTelemetry).addAll [interface] = (.ok (), file) ∧
      Hidden ⟨"out", "e/out"⟩ .openTelemetry file.interfaces.items "error" ∧
      ("x/failure", "error") ∈ (importsOf ⟨"out", "e/out"⟩ .openTelemetry file.interfaces.items).aliases ∧
      method ∈ interface.methods.items ∧
      methodText .openTelemetry
          (importsOf ⟨"out", "e/out"⟩ .openTelemetry file.interfaces.items) interface
          (WrapperFields.ofMethods interface.methods) method =
        "\nfunc (t *TracedA) N() error \x7b\n" ++
          "\t_, span := t.tracer.Start(context.Background(), \"A.N\")\n\tdefer span.End()\n\n" ++
          "\treturn t.next.N()\n\x7d\n" := by
  have hchecks : ((answer (Resolution.interface failing.loader "e/api" "A")
      Session.empty).toOption.any fun interface =>
        let file := ((empty ⟨"out", "e/out"⟩ .openTelemetry).addAll [interface]).2
        let imports := importsOf ⟨"out", "e/out"⟩ .openTelemetry file.interfaces.items
        decide (("x/failure", "error") ∈ imports.aliases ∧ imports.containsAlias "error" = true) &&
          interface.methods.items.any fun method =>
            decide ((none, "error") ∈ method.names ∧
              methodText .openTelemetry imports interface
                  (WrapperFields.ofMethods interface.methods) method =
                "\nfunc (t *TracedA) N() error \x7b\n" ++
                  "\t_, span := t.tracer.Start(context.Background(), \"A.N\")\n" ++
                  "\tdefer span.End()\n\n" ++
                  "\treturn t.next.N()\n\x7d\n")) = true := by
    decide +kernel
  obtain ⟨interface, hinterface, hchecks⟩ := exists_of_any_toOption hchecks
  obtain ⟨himports, hmethods⟩ := Bool.and_eq_true_iff.mp hchecks
  obtain ⟨hentry, hcontains⟩ := of_decide_eq_true himports
  obtain ⟨method, hmethod, hchecks⟩ := List.any_eq_true.mp hmethods
  obtain ⟨hname, htext⟩ := of_decide_eq_true hchecks
  have htype : (none, "error") ∈ interface.typeNames .openTelemetry :=
    List.mem_cons_of_mem _ (List.mem_cons_of_mem _ (List.mem_flatMap.mpr ⟨method, hmethod, hname⟩))
  have hown : OwnName ⟨"out", "e/out"⟩ .openTelemetry
      ((empty ⟨"out", "e/out"⟩ .openTelemetry).addAll [interface]).2.interfaces.items "error" :=
    .bare (List.mem_singleton_self interface) htype (render_named_eq_iff.mpr fun _ hnone => nomatch hnone)
  exact ⟨interface, _, method, hinterface, rfl, ⟨hown, hcontains⟩, hentry, hmethod, htext⟩

end WrapperFile

end GoTrace
