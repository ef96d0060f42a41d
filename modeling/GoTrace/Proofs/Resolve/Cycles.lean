import GoTrace.Proofs.Resolve.Exploring
import GoTrace.Proofs.Resolve.Made
import Mathlib.Data.List.Chain
import Mathlib.Data.List.Nodup

/-!
# Cycles that are reported

While a declaration is being resolved it refers to the next one, so the interfaces in resolution are a
path in the graph of references. The check for cycles finds the end of that path on the path itself.
What it reports is therefore a cycle of references, which can be reached from the interface that was
asked for. An interface that resolves has been resolved to the end, so there is no cycle below it.
-/

namespace GoTrace

open Lexeme Resolution Relation

/-! ## What is reported -/

/-- The references lead from type to type, all of them different, and at last back to `key`, which
is one of them. -/
structure Closes (refers : InterfaceKey → InterfaceKey → Prop) (keys : List InterfaceKey)
    (key : InterfaceKey) : Prop where
  distinct : keys.Nodup
  mem : key ∈ keys
  references : (keys ++ [key]).IsChain refers

namespace Resolution

/-- The check for cycles fails where the path of references meets one of its own types. -/
theorem exists_closes_of_cyclicEmbed {loader : Loader} (steady : loader.Steady)
    (silent : loader.ReportsNoCycle) {start : Session} (grounded : start.Grounded loader)
    {stack : List InterfaceKey} {bound : Nat} {path name : String} {session : Session}
    {chain : List String} (hs : session.Exploring loader start stack) (hdistinct : stack.Nodup)
    (hpath : (stack ++ [(path, name)]).IsChain (start.Refers loader))
    (h : answer (interfaceUpTo loader bound path name) session =
      .error (.error (.cyclicEmbed chain))) :
    ∃ keys key, Closes (start.Refers loader) keys key ∧ chain = cycleFrom key keys ∧
      stack ++ [(path, name)] <+: keys ++ [key] := by
  induction bound generalizing stack path name session with
  | zero => cases h
  | succ bound ih =>
      cases hlookup : session.interfaces.lookup (path, name) with
      | some interface =>
          rw [answer_interfaceUpTo_of_kept _ hlookup] at h
          cases h
      | none =>
          by_cases hcyclic : (path, name) ∈ session.resolving
          · rw [answer_interfaceUpTo_of_cyclic _ hlookup hcyclic] at h
            cases h
            rw [hs.resolving] at hcyclic ⊢
            exact ⟨stack, (path, name), ⟨hdistinct, hcyclic, hpath⟩, rfl, List.prefix_rfl⟩
          · rw [answer_interfaceUpTo_of_new _ hlookup hcyclic] at h
            obtain ⟨later, target, hlater, hrefers, htarget⟩ :=
              (declaredInterface_explores steady silent
                (interfaceUpTo_explores steady silent grounded bound) (path, name)).reports
                  (hs.entering (path, name)) h
            have hnew : (path, name) ∉ stack := hs.resolving ▸ hcyclic
            have hdistinct' : (stack ++ [(path, name)]).Nodup := by
              rw [List.nodup_append_comm]
              exact List.nodup_cons.mpr ⟨hnew, hdistinct⟩
            have hpath' : (stack ++ [(path, name)] ++ [target]).IsChain (start.Refers loader) := by
              rw [List.append_assoc, List.singleton_append, List.isChain_append_cons_cons]
              exact ⟨hpath, hrefers, .singleton _⟩
            obtain ⟨keys, key, hcloses, hchain, hprefix⟩ := ih hlater hdistinct' hpath' htarget
            exact ⟨keys, key, hcloses, hchain, (List.prefix_append _ _).trans hprefix⟩

def shown (key : InterfaceKey) : String := key.1 ++ "." ++ key.2

theorem shown_inj {key other : InterfaceKey} (hkey : IsIdentifier key.2)
    (hother : IsIdentifier other.2) (h : shown key = shown other) : key = other := by
  have hword {name : String} (hname : IsIdentifier name) (path : List Char) :
      wordAhead (name.toList.reverse ++ '.' :: path) = name.toList.reverse := by
    have hdot : isIdentChar '.' = false := by decide
    exact wordAhead_append (by rw [List.all_reverse]; exact hname.all_isIdentChar) hdot
  have hreverse : key.2.toList.reverse ++ '.' :: key.1.toList.reverse =
      other.2.toList.reverse ++ '.' :: other.1.toList.reverse := by
    simpa [shown] using congrArg (fun text => text.toList.reverse) h
  have hname : key.2 = other.2 := by
    have hwords := congrArg wordAhead hreverse
    rw [hword hkey, hword hother, List.reverse_inj] at hwords
    exact String.toList_inj.mp hwords
  rw [hname, List.append_cancel_left_eq, List.cons.injEq, List.reverse_inj] at hreverse
  exact Prod.ext (String.toList_inj.mp hreverse.2) hname

end Resolution

theorem Session.Parsed.isIdentifier {loader : Loader} {session : Session} (parsed : session.Parsed)
    {key target : InterfaceKey} (h : session.Refers loader key target) : IsIdentifier key.2 := by
  obtain ⟨scope, spec, hpackage, hfound, -⟩ := h.exists_declaredBy
  have hparsed : scope.package.IsParsed := by
    unfold packageAt at hpackage
    split at hpackage
    · rename_i found hkept
      cases hpackage
      exact parsed hkept
    · obtain ⟨loaded, -, hparse⟩ := Loader.exists_load_of_parsed hpackage
      exact ⟨loaded, hparse⟩
  exact (hparsed.legible_of_findType hfound).2.1

/-- The chain shows a cycle of references that can be reached from `start`. -/
structure CycleFrom (refers : InterfaceKey → InterfaceKey → Prop) (start : InterfaceKey)
    (chain : List String) : Prop where
  two_le_length : 2 ≤ chain.length
  closed : chain.head? = chain.getLast?
  distinct : chain.dropLast.Nodup
  references : ∃ first rest, chain = (first :: rest).map shown ∧
    (first :: rest).IsChain refers ∧ ReflTransGen refers start first

theorem exists_refers_of_mem {refers : InterfaceKey → InterfaceKey → Prop}
    {keys : List InterfaceKey} {last key : InterfaceKey} (h : (keys ++ [last]).IsChain refers)
    (hmem : key ∈ keys) : ∃ target, refers key target := by
  obtain ⟨before, rest, rfl⟩ := List.append_of_mem hmem
  obtain ⟨target, others, hrest⟩ := List.exists_cons_of_ne_nil (List.concat_ne_nil last rest)
  rw [List.append_assoc, List.cons_append, hrest, List.isChain_append_cons_cons] at h
  exact ⟨target, h.2.1⟩

theorem Closes.cycleFrom {refers : InterfaceKey → InterfaceKey → Prop}
    (identifier : ∀ {key target}, refers key target → IsIdentifier key.2)
    {keys : List InterfaceKey} {start key : InterfaceKey} (h : Closes refers keys key)
    (hstart : [start] <+: keys ++ [key]) :
    CycleFrom refers start (Resolution.cycleFrom key keys) := by
  obtain ⟨before, rest, rfl, hbefore⟩ := List.eq_append_cons_of_mem h.mem
  have hdrop : (before ++ key :: rest).dropWhile (· ≠ key) = key :: rest := by
    rw [List.dropWhile_append_of_pos, List.dropWhile_cons_of_neg (by simp)]
    intro other hother
    exact decide_eq_true fun heq => hbefore (heq ▸ hother)
  have hchain : Resolution.cycleFrom key (before ++ key :: rest) =
      (key :: rest).map shown ++ [shown key] := by
    rw [Resolution.cycleFrom, hdrop, List.map_append]
    rfl
  have hdistinct : ((key :: rest).map shown).Nodup := by
    refine List.Nodup.map_on ?_ (List.nodup_append.mp h.distinct).2.1
    intro first hfirst second hsecond heq
    have hidentifier {other : InterfaceKey} (hother : other ∈ key :: rest) :
        IsIdentifier other.2 := by
      obtain ⟨target, hrefers⟩ :=
        exists_refers_of_mem h.references (List.mem_append_right before hother)
      exact identifier hrefers
    exact shown_inj (hidentifier hfirst) (hidentifier hsecond) heq
  have hreach : ReflTransGen refers start key := by
    obtain ⟨others, hothers⟩ := hstart
    have hwalk := h.references
    rw [← hothers, List.singleton_append] at hwalk
    refine hwalk.induction (ReflTransGen refers start) _ (fun _ _ hrefers hreach =>
      hreach.tail hrefers) (fun _ => .refl) key ?_
    rw [← List.singleton_append, hothers]
    exact List.mem_append_left _ h.mem
  rw [hchain]
  refine ⟨by simp, by rw [List.getLast?_concat]; rfl, ?_, key, rest ++ [key], ?_, ?_, hreach⟩
  · rwa [List.dropLast_concat]
  · rw [← List.cons_append, List.map_append]
    rfl
  · have hreferences := h.references
    rw [List.append_assoc, List.cons_append] at hreferences
    exact hreferences.right_of_append

/-! ## Interfaces in any session -/

namespace Session

variable {loader : Loader} {session : Session}

theorem Exploring.acyclicFrom (steady : loader.Steady) (silent : loader.ReportsNoCycle)
    (hs : session.Exploring loader session []) {path name : String} {found : Interface}
    (h : answer (interface loader path name) session = .ok found) :
    AcyclicFrom (session.Refers loader) (path, name) := by
  have hexplores : Explores loader session [] (interface loader) (· = (path, name))
      (· = (path, name)) (interface loader path name) :=
    interface_explores steady silent hs.viewing.grounded path name
  obtain ⟨hlater, -⟩ := hexplores.keeps hs (by rw [h]; trivial)
  obtain ⟨kept, hkept⟩ := hexplores.finds hs h (path, name) rfl
  have hlaterRefers : Subrelation (flip (session.Refers loader))
      (flip ((after (interface loader path name) session).Refers loader)) :=
    (hlater.viewing.refers_iff (fun _ _ => steady.path) hs.viewing.grounded).mpr
  exact acyclicFrom_of_accessible (hlaterRefers.accessible (hlater.conclusive hkept).accessible)

/-- The check for cycles reports cycles of references only, and only such that can be reached from
the interface that was asked for. -/
theorem Exploring.cycleFrom (steady : loader.Steady) (silent : loader.ReportsNoCycle)
    (hs : session.Exploring loader session []) (parsed : session.Parsed) {path name : String}
    {chain : List String}
    (h : answer (interface loader path name) session = .error (.error (.cyclicEmbed chain))) :
    CycleFrom (session.Refers loader) (path, name) chain := by
  rw [answer_interface] at h
  obtain ⟨keys, key, hcloses, rfl, hprefix⟩ := exists_closes_of_cyclicEmbed steady silent
    hs.viewing.grounded hs .nil (.singleton _) h
  exact hcloses.cycleFrom parsed.isIdentifier hprefix

/-- The session as if it had not made any import table yet. -/
def untabled (session : Session) : Session := { session with importTables := [] }

theorem Reached.refers_iff (steady : loader.Steady) (h : session.Secluded loader)
    {key target : InterfaceKey} :
    session.Refers loader key target ↔ session.untabled.Refers loader key target := by
  have hviewing := h.viewing steady
  have huntabled : Viewing loader .empty session.untabled :=
    ⟨⟨hviewing.grounded.path, hviewing.grounded.name⟩, hviewing.shows.packages, hviewing.shows.names,
      fun _ _ => tableAt_congr rfl hviewing.shows.names⟩
  have keeps : loader.KeepsPaths := fun _ _ => steady.path
  rw [hviewing.refers_iff keeps (grounded_empty loader),
    huntabled.refers_iff keeps (grounded_empty loader)]

/-- Whatever calls were made before, with packages added among them, resolving an interface ends. One
that resolves has no cycle of references below it, and a report of a cycle shows one. An alias stands for
what the import table of its file says. As long as nothing was added, and no package passed that the
resolver did not hand out, that is the table which is made from the file anew. -/
theorem interface_cycles (library : Library) {session : Session}
    (h : session.Used library.loader) (path name : String) :
    let answered := answer (interface library.loader path name) session
    answered ≠ .error .exhausted ∧
      (∀ found, answered = .ok found →
        AcyclicFrom (session.Refers library.loader) (path, name)) ∧
      (∀ chain, answered = .error (.error (.cyclicEmbed chain)) →
        CycleFrom (session.Refers library.loader) (path, name) chain) ∧
      (session.Secluded library.loader → ∀ key target,
        session.Refers library.loader key target ↔
          session.untabled.Refers library.loader key target) := by
  have steady := library.steady
  have hs := h.exploring steady library.reportsNoCycle
  exact ⟨library.interface_ends path name session,
    fun _ => hs.acyclicFrom steady library.reportsNoCycle,
    fun _ => hs.cycleFrom steady library.reportsNoCycle h.parsed,
    fun hsecluded _ _ => hsecluded.refers_iff steady⟩

end Session

/-- Two packages that import each other, with a cycle that leads through both of them, through an
embedded interface, a named one and an embedded one again. -/
def Library.ring : Library :=
  (Library.empty.add "a" ⟨"a.go", "package a\nimport \"b\"\n" ++
      "type A interface \x7b b.B \x7d\ntype D interface \x7b M(); A \x7d"⟩).add "b"
    ⟨"b.go", "package b\nimport \"a\"\n" ++
      "type B = C\ntype C interface \x7b a.A \x7d\ntype E interface \x7b N() \x7d\n" ++
      "type F interface \x7b E \x7d"⟩

/-- The names of the methods of an interface, or why it does not resolve. -/
def Library.methodsOf (library : Library) (session : Session) (path name : String) :
    Except ResolveFailure (List String) :=
  (answer (interface library.loader path name) session).map (·.methods.keys)

/-- After a call that succeeds the cycle is reported as it is, and the call succeeds again. -/
theorem Session.interface_cycles_ring :
    let session := after (interface Library.ring.loader "b" "F") .empty
    AcyclicFrom (session.Refers Library.ring.loader) ("b", "F") ∧
      CycleFrom (session.Refers Library.ring.loader) ("a", "D") ["a.A", "b.B", "b.C", "a.A"] := by
  intro session
  have hused : session.Used Library.ring.loader :=
    .call .empty rfl (.interface "b" "F") (by decide +kernel)
  obtain ⟨-, hacyclic, -⟩ := Session.interface_cycles Library.ring hused "b" "F"
  obtain ⟨-, -, hcycle, -⟩ := Session.interface_cycles Library.ring hused "a" "D"
  have hfound : Library.ring.methodsOf session "b" "F" = .ok ["N"] := by decide +kernel
  have hreport : Library.ring.methodsOf session "a" "D" =
      .error (.error (.cyclicEmbed ["a.A", "b.B", "b.C", "a.A"])) := by
    decide +kernel
  constructor
  · cases hanswer : answer (interface Library.ring.loader "b" "F") session with
    | ok found => exact hacyclic found hanswer
    | error failure =>
        rw [Library.methodsOf, hanswer] at hfound
        cases hfound
  · cases hanswer : answer (interface Library.ring.loader "a" "D") session with
    | ok found =>
        rw [Library.methodsOf, hanswer] at hreport
        cases hreport
    | error failure =>
        rw [Library.methodsOf, hanswer] at hreport
        cases hreport
        exact hcycle _ hanswer

/-! ## A table that is kept past its packages -/

/-- The declared type that a type expression of the scope is a name of, if any. -/
def Scope.named? (scope : Scope) (type : TypeExpr) : Option InterfaceKey :=
  match type.unparen with
  | .name none name [] =>
      if (scope.package.findType name).isSome then some (scope.package.path, name) else none
  | .name (some aliasName) name [] => (scope.imports.pathOf aliasName).map (·, name)
  | _ => none

theorem Scope.names_of_named? {scope : Scope} {type : TypeExpr} {key : InterfaceKey}
    (h : scope.named? type = some key) : scope.Names type key := by
  unfold named? at h
  split at h
  · rename_i name htype
    split at h
    · rename_i hdeclared
      cases h
      exact .own htype hdeclared
    · cases h
  · rename_i aliasName name htype
    obtain ⟨path, hpath, rfl⟩ := Option.map_eq_some_iff.mp h
    exact .imported htype hpath
  · cases h

/-- The types that the declaration of an interface embeds. -/
def Session.embedded (loader : Loader) (session : Session) (key : InterfaceKey) :
    List InterfaceKey :=
  ((session.packageAt loader key.1).toOption.bind fun package =>
    (package.findType key.2).bind fun (unit, spec) =>
      (session.tableAt loader package unit).map fun imports =>
        match spec.type.unparen with
        | .interface elements => elements.filterMap fun
            | .embed [⟨false, type⟩] _ => Scope.named? ⟨package, unit, imports⟩ type
            | _ => none
        | _ => []).getD []

theorem Session.refers_of_mem_embedded {loader : Loader} {session : Session}
    {key target : InterfaceKey} (h : target ∈ session.embedded loader key) :
    session.Refers loader key target := by
  unfold embedded at h
  cases hpackage : session.packageAt loader key.1 with
  | error failure => simp [hpackage, Except.toOption] at h
  | ok package =>
  cases hfound : package.findType key.2 with
  | none => simp [hpackage, hfound, Except.toOption] at h
  | some entry =>
  obtain ⟨unit, spec⟩ := entry
  cases hkept : session.tableAt loader package unit with
  | none => simp [hpackage, hfound, hkept, Except.toOption] at h
  | some imports =>
  simp only [hpackage, hfound, hkept, Except.toOption, Option.bind_some, Option.map_some,
    Option.getD_some] at h
  split at h
  · rename_i elements htype
    obtain ⟨element, hmem, hnamed⟩ := List.mem_filterMap.mp h
    split at hnamed
    · exact .embed ⟨hpackage, hfound, hkept⟩ htype hmem (Scope.names_of_named? hnamed)
    · cases hnamed
  · cases h

/-- Two packages that the first one imports by the names that their clauses tell. -/
def Library.swapped : Library :=
  ((Library.empty.add "a" ⟨"a.go", "package a\nimport \"x/b\"\nimport \"y/c\"\n" ++
      "type A interface \x7b c.I \x7d"⟩).add "x/b" ⟨"b.go", "package b"⟩).add
    "y/c" ⟨"c.go", "package c"⟩

/-- The first of them is added under the name of the second, and the second under that of the first,
when there is a table already. The interface then resolves by the old names, though by the new ones it
embeds an interface that embeds it. -/
theorem Session.interface_cycles_swapped :
    let loader := Library.swapped.loader
    let session := after (addPackage ⟨"y/c", "b", [⟨"c.go", "package b\ntype I interface \x7b N() \x7d"⟩]⟩)
      (after (addPackage ⟨"x/b", "c", [⟨"b.go", "package c\nimport \"a\"\n" ++
          "type I interface \x7b a.A \x7d"⟩]⟩)
        (after (scope loader "a" 0) .empty))
    session.Used loader ∧ Library.swapped.methodsOf session "a" "A" = .ok ["N"] ∧
      ¬ AcyclicFrom (session.untabled.Refers loader) ("a", "A") := by
  intro loader session
  refine ⟨?_, by decide +kernel, fun hacyclic => ?_⟩
  · have htabled : Session.Used loader (after (scope loader "a" 0) .empty) :=
      .call .empty rfl (.scope "a" 0) (by decide +kernel)
    exact .call (.call htabled rfl (.addPackage trivial) (by decide +kernel)) rfl
      (.addPackage trivial) (by decide +kernel)
  · have hleaving : session.untabled.Refers loader ("a", "A") ("x/b", "I") :=
      Session.refers_of_mem_embedded (by decide +kernel)
    have hreturning : session.untabled.Refers loader ("x/b", "I") ("a", "A") :=
      Session.refers_of_mem_embedded (by decide +kernel)
    exact hacyclic ("a", "A") .refl (.tail (.single hleaving) hreturning)

end GoTrace
