import GoTrace.Proofs.Resolve.Answer
import GoTrace.Proofs.Wrapper.Imports
import GoTrace.Proofs.Wrapper.ParameterNames

/-!
# Packages that parameters hide

The body of a generated method calls packages by the aliases of the file. A parameter that keeps its
name hides none of them, since such names are no aliases. The other names are chosen without a look at
the aliases: here it is said exactly when one of them hides a package.
-/

namespace GoTrace

/-! ## Names that are chosen -/

theorem filter_isDigit_underscoredBy (place count : Nat) :
    (underscoredBy ("a" ++ toString place) count).toList.filter Char.isDigit =
      Nat.toDigits 10 place := by
  have hdigits : (Nat.toDigits 10 place).filter Char.isDigit = Nat.toDigits 10 place :=
    List.filter_eq_self.mpr fun _ => Literal.isDigit_of_mem_toDigits
  have hunderscores : (List.replicate count '_').filter Char.isDigit = [] :=
    List.filter_replicate_of_neg (by decide)
  rw [toList_underscoredBy, List.filter_cons_of_neg (by decide), List.filter_append, hdigits,
    hunderscores, List.append_nil]

theorem place_eq_of_underscoredBy_eq {place place' count count' : Nat}
    (h : underscoredBy ("a" ++ toString place) count = underscoredBy ("a" ++ toString place') count') :
    place = place' := by
  have hdigits : Nat.toDigits 10 place = Nat.toDigits 10 place' := by
    rw [← filter_isDigit_underscoredBy place count, h, filter_isDigit_underscoredBy]
  refine toString_injective (String.toList_injective ?_)
  rw [toList_toString, toList_toString, hdigits]

/-- Some parameter has no name that it can keep, and `name` is what it gets: `a` and its place, with as
few underscores as make it differ from the names that are kept. -/
def Method.RenamesTo (method : Method) (imports : FileImports) (name : String) : Prop :=
  ∃ place, method.RenamesAt imports place ∧
    FewestUnderscores (fun other => ∃ holder, method.KeepsAt imports holder other)
      ("a" ++ toString place) name

section

variable {method : Method} {imports : FileImports} {place : Nat} {name : String}

theorem Method.RenamesAt.exists_fewestUnderscores (h : method.RenamesAt imports place) :
    ∃ name, (parameterNames method imports)[place]? = some name ∧
      FewestUnderscores (fun other => ∃ holder, method.KeepsAt imports holder other)
        ("a" ++ toString place) name := by
  obtain ⟨name, hname, hfewest⟩ := h.exists_getElem?_parameterNames
  refine ⟨name, hname, hfewest.congr fun count => or_iff_left_of_imp fun hmem => ?_⟩
  obtain ⟨earlier, hearlier⟩ := List.mem_iff_getElem?.mp hmem
  rw [List.getElem?_take, Option.ite_none_right_eq_some] at hearlier
  obtain ⟨hlt, hother⟩ := hearlier
  rcases keepsAt_or_renamesAt_of_getElem? hother with hkept | hrenamed
  · exact ⟨earlier, hkept⟩
  · obtain ⟨chosen, hchosen, count', heq, -⟩ := hrenamed.exists_getElem?_parameterNames
    obtain rfl := Option.some.inj (hother.symm.trans hchosen)
    exact absurd (place_eq_of_underscoredBy_eq heq.symm) (Nat.ne_of_lt hlt)

theorem mem_parameterNames_iff :
    name ∈ parameterNames method imports ↔
      (∃ place, method.KeepsAt imports place name) ∨ method.RenamesTo imports name := by
  constructor
  · intro hmem
    obtain ⟨place, hname⟩ := List.mem_iff_getElem?.mp hmem
    refine (keepsAt_or_renamesAt_of_getElem? hname).imp (fun hkept => ⟨place, hkept⟩) fun hrenamed => ?_
    obtain ⟨chosen, hchosen, hfewest⟩ := hrenamed.exists_fewestUnderscores
    obtain rfl := Option.some.inj (hname.symm.trans hchosen)
    exact ⟨place, hrenamed, hfewest⟩
  · rintro (⟨place, hkept⟩ | ⟨place, hrenamed, hfewest⟩)
    · exact List.mem_of_getElem? hkept.getElem?_parameterNames
    · obtain ⟨chosen, hchosen, hfewest'⟩ := hrenamed.exists_fewestUnderscores
      exact List.mem_of_getElem? (hfewest.unique hfewest' ▸ hchosen)

theorem Method.KeepsAt.ne_alias (h : method.KeepsAt imports place name) {entry : String × String}
    (hentry : entry ∈ imports.aliases) : entry.2 ≠ name := by
  obtain ⟨-, -, -, -, haliases⟩ := h
  exact haliases entry hentry

theorem alias_mem_parameterNames_iff {entry : String × String} (hentry : entry ∈ imports.aliases) :
    entry.2 ∈ parameterNames method imports ↔ method.RenamesTo imports entry.2 := by
  rw [mem_parameterNames_iff]
  exact or_iff_right fun ⟨_, hkept⟩ => hkept.ne_alias hentry rfl

end

/-! ## Packages in the body of a method -/

namespace FileImports

/-- The package that an alias means in the body of a generated method, unless the receiver, the span or
a parameter hides it. -/
def pathIn (imports : FileImports) (method : Method) (aliasName : String) : Option String :=
  if aliasName ∈ "t" :: "span" :: parameterNames method imports then none
  else (imports.aliases.find? fun entry => entry.2 = aliasName).map (·.1)

theorem pathIn_eq_some_iff {localPath : String} {packages : PathMap} {method : Method}
    {entry : String × String} (hentry : entry ∈ (ofPackages localPath packages).aliases) :
    (ofPackages localPath packages).pathIn method entry.2 = some entry.1 ↔
      entry.2 ∉ parameterNames method (ofPackages localPath packages) := by
  have hfree : entry.2 ∉ reservedNames := not_mem_of_mem_assign hentry
  have ht : entry.2 ≠ "t" := fun heq => hfree (heq ▸ by decide)
  have hspan : entry.2 ≠ "span" := fun heq => hfree (heq ▸ by decide)
  rw [pathIn, find?_alias hentry]
  simp [ht, hspan]

end FileImports

namespace WrapperFile

open FileImports Resolution

variable {output : OutputPackage} {backend : Backend} {interfaces : List Interface}

/-- A parameter hides a package just where a name is chosen that is the alias of the package, and all
other aliases mean their packages. -/
theorem hides_iff_renamesTo {entry : String × String}
    (hentry : entry ∈ (importsOf output backend interfaces).aliases) (method : Method) :
    (entry.2 ∈ parameterNames method (importsOf output backend interfaces) ↔
        method.RenamesTo (importsOf output backend interfaces) entry.2) ∧
      ((importsOf output backend interfaces).pathIn method entry.2 = some entry.1 ↔
        ¬ method.RenamesTo (importsOf output backend interfaces) entry.2) :=
  ⟨alias_mem_parameterNames_iff hentry,
    (pathIn_eq_some_iff hentry).trans (not_congr (alias_mem_parameterNames_iff hentry))⟩

/-- A method whose second parameter cannot be called `a1`. -/
def obscuring : Method :=
  ⟨"N", [⟨some "a1", .named none "int"⟩, ⟨some "_", .named none "int"⟩], []⟩

/-- A method whose second parameter can be called `a1`. -/
def revealing : Method :=
  ⟨"P", [⟨none, .named none "int"⟩, ⟨some "_", .named none "int"⟩], []⟩

/-- An interface with both methods. Its file calls the package `context` as a second parameter is called
that cannot be `a1`. -/
def partlyHidden : Interface :=
  .new "A" ⟨"e/api", "api"⟩ <| ((Roster.empty.replace
    ⟨"M", [⟨some "ctx", .named (some ⟨"context", "a1_"⟩) "Context"⟩], []⟩).replace
      obscuring).replace revealing

/-- One of the methods hides the package, the other does not. -/
theorem hides_iff_renamesTo_partly :
    let imports := importsOf ⟨"out", "e/out"⟩ .openTelemetry [partlyHidden]
    ("context", "a1_") ∈ imports.aliases ∧
      obscuring.RenamesTo imports "a1_" ∧ imports.pathIn obscuring "a1_" ≠ some "context" ∧
      ¬ revealing.RenamesTo imports "a1_" ∧ imports.pathIn revealing "a1_" = some "context" := by
  intro imports
  have hentry : ("context", "a1_") ∈ imports.aliases := by decide +kernel
  have hhidden : "a1_" ∈ parameterNames obscuring imports := by decide +kernel
  have hseen : "a1_" ∉ parameterNames revealing imports := by decide +kernel
  obtain ⟨hhides, hpath⟩ := hides_iff_renamesTo hentry obscuring
  obtain ⟨hshows, hpath'⟩ := hides_iff_renamesTo hentry revealing
  have hrenames := hhides.mp hhidden
  have hkeeps := mt hshows.mpr hseen
  exact ⟨hentry, hrenames, fun hmeans => hpath.mp hmeans hrenames, hkeeps, hpath'.mpr hkeeps⟩

/-- A package with an interface that calls the package `context` as its second method would call a
parameter without a name. -/
def borrowed : Library :=
  Library.empty.add "e/api"
    ⟨"api.go", "package api\nimport a0 \"context\"\ntype A interface \x7b M(ctx a0.Context); N(int) \x7d\n"⟩

/-- The parameter without a name gets the name that the file has for the package `context`, and hides the
package where the span is opened. -/
theorem a0_mem_parameterNames :
    ∃ interface file method,
      answer (Resolution.interface borrowed.loader "e/api" "A") Session.empty = .ok interface ∧
      (empty ⟨"out", "e/out"⟩ .openTelemetry).addAll [interface] = (.ok (), file) ∧
      method ∈ interface.methods.items ∧
      ("context", "a0") ∈ (importsOf ⟨"out", "e/out"⟩ .openTelemetry file.interfaces.items).aliases ∧
      "a0" ∈ parameterNames method (importsOf ⟨"out", "e/out"⟩ .openTelemetry file.interfaces.items) ∧
      (importsOf ⟨"out", "e/out"⟩ .openTelemetry file.interfaces.items).pathIn method "a0" = none ∧
      methodText .openTelemetry
          (importsOf ⟨"out", "e/out"⟩ .openTelemetry file.interfaces.items) interface
          (WrapperFields.ofMethods interface.methods) method =
        "\nfunc (t *TracedA) N(a0 int) \x7b\n" ++
          "\t_, span := t.tracer.Start(a0.Background(), \"A.N\")\n\tdefer span.End()\n\n" ++
          "\tt.next.N(a0)\n\x7d\n" := by
  have hchecks : ((answer (Resolution.interface borrowed.loader "e/api" "A")
      Session.empty).toOption.any fun interface =>
        let file := ((empty ⟨"out", "e/out"⟩ .openTelemetry).addAll [interface]).2
        let imports := importsOf ⟨"out", "e/out"⟩ .openTelemetry file.interfaces.items
        interface.methods.items.any fun method =>
          decide (("context", "a0") ∈ imports.aliases ∧ "a0" ∈ parameterNames method imports ∧
            imports.pathIn method "a0" = none ∧
            methodText .openTelemetry imports interface
                (WrapperFields.ofMethods interface.methods) method =
              "\nfunc (t *TracedA) N(a0 int) \x7b\n" ++
                "\t_, span := t.tracer.Start(a0.Background(), \"A.N\")\n\tdefer span.End()\n\n" ++
                "\tt.next.N(a0)\n\x7d\n")) = true := by
    decide +kernel
  obtain ⟨interface, hinterface, hchecks⟩ := exists_of_any_toOption hchecks
  obtain ⟨method, hmethod, hchecks⟩ := List.any_eq_true.mp hchecks
  exact ⟨interface, _, method, hinterface, rfl, hmethod, of_decide_eq_true hchecks⟩

end WrapperFile

end GoTrace
