import GoTrace.Proofs.Resolve.SideBySide
import Mathlib.Data.List.Pairwise
import Mathlib.Data.Option.Basic

/-!
# Packages with their files rearranged

Types and constants are looked for in the files of a package one after the other, and an import table
belongs to the place of its file. Where no two files declare one type or one constant, the same is found
in the same file in whatever order the files are, and all operations over the one loader match those over
the other.
-/

namespace GoTrace

namespace SourceFile

/-- The names of the types that the file declares. -/
def typeNames (file : SourceFile) : List String :=
  file.typeSpecs.map (·.name.name)

/-- The names of the constants that the file declares. -/
def constNames (file : SourceFile) : List String :=
  file.constSpecs.flatMap fun spec => spec.names.map (·.name)

theorem mem_typeNames_of_find? {file : SourceFile} {name : String} {spec : TypeSpec}
    (h : file.typeSpecs.find? (fun spec => spec.name.name = name) = some spec) :
    name ∈ file.typeNames := by
  have hname : spec.name.name = name := by simpa using List.find?_some h
  exact hname ▸ List.mem_map_of_mem (List.mem_of_find?_eq_some h)

theorem mem_constNames_of_find? {file : SourceFile} {name : String} {spec : ConstSpec}
    (h : file.constSpecs.find? (fun spec => spec.declares name) = some spec) :
    name ∈ file.constNames := by
  have hdeclares : spec.declares name = true := by simpa using List.find?_some h
  obtain ⟨ident, hident, hname⟩ := List.any_eq_true.mp hdeclares
  exact List.mem_flatMap.mpr ⟨spec, List.mem_of_find?_eq_some h,
    List.mem_map.mpr ⟨ident, hident, of_decide_eq_true hname⟩⟩

end SourceFile

/-! ## Packages -/

namespace Package

/-- The same was found in the same file, wherever that file stands. -/
def SameFound {α : Type} (units units' : List SourceFile) (found found' : Nat × α) : Prop :=
  found.2 = found'.2 ∧ units[found.1]? = units'[found'.1]?

theorem getElem?_of_findInUnits {α : Type} {find : SourceFile → Option α} {units : List SourceFile}
    {unit : Nat} {found : α} (h : findInUnits find units = some (unit, found)) :
    ∃ file, units[unit]? = some file ∧ find file = some found := by
  obtain ⟨⟨file, place⟩, hfile, hfound⟩ := List.exists_of_findSome?_eq_some h
  obtain ⟨found, hfind, heq⟩ := Option.map_eq_some_iff.mp hfound
  cases heq
  exact ⟨file, List.mem_zipIdx_iff_getElem?.mp hfile, hfind⟩

theorem findInUnits_eq_none_iff {α : Type} {find : SourceFile → Option α} {units : List SourceFile} :
    findInUnits find units = none ↔ ∀ file ∈ units, find file = none := by
  rw [findInUnits, List.findSome?_eq_none_iff]
  constructor
  · intro h file hfile
    obtain ⟨place, hplace⟩ := List.mem_iff_getElem?.mp hfile
    exact Option.map_eq_none_iff.mp (h (file, place) (List.mem_zipIdx_iff_getElem?.mpr hplace))
  · intro h entry hentry
    rw [h entry.1 (List.fst_mem_of_mem_zipIdx hentry), Option.map_none]

/-- What at most one file has is found in that file, in whatever order the files are. -/
theorem findInUnits_rel {α : Type} {find : SourceFile → Option α} {units units' : List SourceFile}
    (hperm : units.Perm units')
    (hunique : ∀ file ∈ units, ∀ other ∈ units, (find file).isSome → (find other).isSome → file = other) :
    Option.Rel (SameFound units units') (findInUnits find units) (findInUnits find units') := by
  cases hfirst : findInUnits find units with
  | none =>
      have hnone : findInUnits find units' = none :=
        findInUnits_eq_none_iff.mpr fun file hfile =>
          findInUnits_eq_none_iff.mp hfirst file (hperm.mem_iff.mpr hfile)
      rw [hnone]
      exact .none
  | some found =>
      obtain ⟨file, hfile, hfind⟩ := getElem?_of_findInUnits hfirst
      cases hsecond : findInUnits find units' with
      | none =>
          have hnone := findInUnits_eq_none_iff.mp hsecond file
            (hperm.mem_iff.mp (List.mem_of_getElem? hfile))
          rw [hnone] at hfind
          cases hfind
      | some found' =>
          obtain ⟨file', hfile', hfind'⟩ := getElem?_of_findInUnits hsecond
          have heq : file = file' :=
            hunique file (List.mem_of_getElem? hfile) file'
              (hperm.mem_iff.mpr (List.mem_of_getElem? hfile')) (by rw [hfind]; rfl)
              (by rw [hfind']; rfl)
          subst heq
          refine .some ⟨?_, hfile.trans hfile'.symm⟩
          rw [hfind] at hfind'
          exact Option.some.inj hfind'

theorem eq_of_disjoint {names : SourceFile → List String} {units : List SourceFile}
    (hdisjoint : units.Pairwise fun file other => (names file).Disjoint (names other))
    {file other : SourceFile} (hfile : file ∈ units) (hother : other ∈ units) {name : String}
    (hname : name ∈ names file) (hname' : name ∈ names other) : file = other := by
  have : Std.Symm fun file other => (names file).Disjoint (names other) :=
    ⟨fun _ _ => List.disjoint_symm⟩
  by_contra hne
  exact hdisjoint.forall hfile hother hne hname hname'

/-- The packages have the same files, of which no two declare one type or one constant. -/
structure Rearranged (first second : Package) : Prop where
  path : first.path = second.path
  name : first.name = second.name
  units : first.units.Perm second.units
  types : first.units.Pairwise fun file other => file.typeNames.Disjoint other.typeNames
  constants : first.units.Pairwise fun file other => file.constNames.Disjoint other.constNames

namespace Rearranged

variable {first second : Package} (h : first.Rearranged second)

include h

theorem ref_eq : first.ref = second.ref := by
  rw [ref, ref, h.path, h.name]

theorem findType_rel (name : String) :
    Option.Rel (SameFound first.units second.units) (first.findType name) (second.findType name) := by
  refine findInUnits_rel h.units fun file hfile other hother hfound hfound' => ?_
  obtain ⟨spec, hspec⟩ := Option.isSome_iff_exists.mp hfound
  obtain ⟨spec', hspec'⟩ := Option.isSome_iff_exists.mp hfound'
  exact eq_of_disjoint h.types hfile hother (SourceFile.mem_typeNames_of_find? hspec)
    (SourceFile.mem_typeNames_of_find? hspec')

theorem findConst_rel (name : String) :
    Option.Rel (SameFound first.units second.units) (first.findConst name)
      (second.findConst name) := by
  refine findInUnits_rel h.units fun file hfile other hother hfound hfound' => ?_
  obtain ⟨spec, hspec⟩ := Option.isSome_iff_exists.mp hfound
  obtain ⟨spec', hspec'⟩ := Option.isSome_iff_exists.mp hfound'
  exact eq_of_disjoint h.constants hfile hother (SourceFile.mem_constNames_of_find? hspec)
    (SourceFile.mem_constNames_of_find? hspec')

theorem isSome_findType (name : String) :
    (first.findType name).isSome = (second.findType name).isSome := by
  have hfound := h.findType_rel name
  generalize first.findType name = found at hfound
  generalize second.findType name = found' at hfound
  cases hfound <;> rfl

theorem fileName_eq {unit unit' : Nat} (hunit : first.units[unit]? = second.units[unit']?) :
    first.fileName unit = second.fileName unit' := by
  rw [fileName, fileName, hunit, h.path]

end Rearranged

end Package

/-! ## Loaders -/

/-- Loaders that know the same packages, each with its files in an order of its own. -/
structure Loader.Rearranged (first second : Loader) : Prop where
  steady : first.Steady
  steady' : second.Steady
  locate : first.locate = second.locate
  parsed : ∀ path, Resolution.Matches Package.Rearranged (first.parsed path) (second.parsed path)

/-- One package over two loaders. -/
structure Package.Shared (loader other : Loader) (first second : Package) : Prop where
  rearranged : first.Rearranged second
  holds : loader.Holds first
  holds' : other.Holds second

/-- The scope of one file over two loaders. -/
structure Scope.Shared (loader other : Loader) (first second : Scope) : Prop where
  package : first.package.Shared loader other second.package
  unit : first.package.units[first.unit]? = second.package.units[second.unit]?
  imports : first.imports = second.imports

theorem Loader.Rearranged.tableOf_eq {loader other : Loader} (h : loader.Rearranged other)
    {first second : Package} {unit unit' : Nat} (hunit : first.units[unit]? = second.units[unit']?) :
    loader.tableOf first unit = other.tableOf second unit' := by
  have hnames : loader.namesOf = other.namesOf := by
    funext paths
    rw [namesOf, namesOf, NameSearch.among_eq, NameSearch.among_eq, NameSearch.ofAsked,
      NameSearch.ofAsked, h.locate]
  rw [tableOf, tableOf, ImportTable.resolve, ImportTable.resolve, hnames, hunit]

namespace Resolution

variable {loader other : Loader} (h : loader.Rearranged other)

section

include h

theorem package_matched (path : String) :
    Matched loader other (Package.Shared loader other) (package loader path) (package other path) := by
  refine .of_settles (package_settles h.steady path) (package_settles h.steady' path) ?_
  have hparsed := h.parsed path
  generalize hfirst : loader.parsed path = first at hparsed
  generalize hsecond : other.parsed path = second at hparsed
  cases hparsed with
  | ok hrearranged =>
      exact .ok ⟨hrearranged, h.steady.holds_of_parsed hfirst, h.steady'.holds_of_parsed hsecond⟩
  | error failure => exact .error failure

theorem importTable_matched {first second : Package} (hpackage : first.Shared loader other second)
    {unit unit' : Nat} (hunit : first.units[unit]? = second.units[unit']?) :
    Matched loader other Eq (importTable loader first unit) (importTable other second unit') := by
  refine .of_settles (importTable_settles hpackage.holds unit)
    (importTable_settles hpackage.holds' unit') ?_
  rw [h.tableOf_eq hunit]
  cases other.tableOf second unit' with
  | ok table => exact .ok rfl
  | error failure => exact .error failure

end

theorem packagePath_matched {scope scope' : Scope} (hscope : scope.Shared loader other scope')
    (aliasName : String) :
    Matched loader other Eq (packagePath scope aliasName) (packagePath scope' aliasName) := by
  have hfile : scope.fileName = scope'.fileName :=
    hscope.package.rearranged.fileName_eq hscope.unit
  rw [packagePath, packagePath, hscope.imports, hfile]
  cases scope'.imports.pathOf aliasName with
  | none => exact .fail _
  | some path => exact .pure rfl

/-! ## Constants and array lengths -/

include h

theorem constantUpTo_matched (bound : Nat) {first second : Package}
    (hpackage : first.Shared loader other second) (name : String) :
    Matched loader other Eq (constantUpTo loader bound first name)
      (constantUpTo other bound second name) := by
  induction bound generalizing first second name with
  | zero => exact .fail _
  | succ bound ih =>
      have hfound := hpackage.rearranged.findConst_rel name
      rw [constantUpTo, constantUpTo]
      generalize first.findConst name = found at hfound
      generalize second.findConst name = found' at hfound
      cases hfound with
      | none =>
          rw [hpackage.rearranged.path]
          exact .fail _
      | @some found found' hsame =>
          obtain ⟨unit, spec⟩ := found
          obtain ⟨unit', spec'⟩ := found'
          obtain ⟨rfl, hunit⟩ : spec = spec' ∧ first.units[unit]? = second.units[unit']? := hsame
          dsimp only
          cases spec.valueOf name with
          | none => exact .fail _
          | some text =>
              dsimp only
              cases Literal.readInt (Constant.stripParens text.toList) with
              | value n => exact .pure rfl
              | splitCharacter => exact .throw _
              | notInteger =>
                  dsimp only
                  cases Constant.reference? (Constant.stripParens text.toList) with
                  | none => exact .fail _
                  | some target =>
                      cases target with
                      | own target => exact ih hpackage target
                      | imported aliasName target =>
                          refine (importTable_matched h hpackage hunit).bind fun imports _ heq => ?_
                          subst heq
                          have hscope : Scope.Shared loader other ⟨first, unit, imports⟩
                              ⟨second, unit', imports⟩ := ⟨hpackage, hunit, rfl⟩
                          refine (packagePath_matched hscope aliasName).bind fun path _ heq => ?_
                          subst heq
                          exact (package_matched h path).bind fun _ _ hforeign => ih hforeign target

theorem arrayLength_matched {scope scope' : Scope} (hscope : scope.Shared loader other scope')
    (length : ArrayLength) :
    Matched loader other Eq (arrayLength loader scope length) (arrayLength other scope' length) := by
  unfold arrayLength
  split
  · exact .pure rfl
  · exact .fail _
  · exact .fail _
  · exact constantUpTo_matched h _ hscope.package _
  · refine (packagePath_matched hscope _).bind fun path _ heq => ?_
    subst heq
    exact (package_matched h path).bind fun _ _ hforeign => constantUpTo_matched h _ hforeign _

/-! ## Types and methods -/

omit h in
theorem namedType_matched {scope scope' : Scope} (hscope : scope.Shared loader other scope')
    (package : Option String) (name : String) :
    Matched loader other Eq (namedType scope package name) (namedType scope' package name) := by
  have hfile : scope.fileName = scope'.fileName :=
    hscope.package.rearranged.fileName_eq hscope.unit
  unfold namedType
  rw [hscope.imports, hfile, hscope.package.rearranged.ref_eq]
  cases package with
  | none => exact .pure rfl
  | some aliasName =>
      dsimp only
      cases scope'.imports.pathOf aliasName with
      | none => exact .fail _
      | some path => exact .pure rfl

set_option linter.unusedSectionVars false in
mutual

theorem type_matched {scope scope' : Scope} (hscope : scope.Shared loader other scope') :
    (expr : TypeExpr) → Matched loader other Eq (type loader scope expr) (type other scope' expr)
  | .name package name args => by
      unfold type
      split
      · exact namedType_matched hscope _ _
      · exact .fail _
  | .pointer target => by
      unfold type
      exact (type_matched hscope target).bind_eq fun _ => .pure rfl
  | .slice element => by
      unfold type
      exact (type_matched hscope element).bind_eq fun _ => .pure rfl
  | .array length element => by
      unfold type
      exact (arrayLength_matched h hscope length).bind_eq fun _ =>
        (type_matched hscope element).bind_eq fun _ => .pure rfl
  | .map key value => by
      unfold type
      exact (type_matched hscope key).bind_eq fun _ =>
        (type_matched hscope value).bind_eq fun _ => .pure rfl
  | .chan direction element => by
      unfold type
      exact (type_matched hscope element).bind_eq fun _ => .pure rfl
  | .func ⟨params, results⟩ => by
      unfold type
      exact (parameters_matched hscope params).bind_eq fun _ =>
        (parameters_matched hscope results).bind_eq fun _ => .pure rfl
  | .interface [] => by
      unfold type
      exact .pure rfl
  | .interface (_ :: _) => by
      unfold type
      exact .fail _
  | .struct [] => by
      unfold type
      exact .pure rfl
  | .struct (_ :: _) => by
      unfold type
      exact .fail _
  | .paren inner => by
      unfold type
      exact type_matched hscope inner
  | .ellipsis element => by
      unfold type
      exact (type_matched hscope element).bind_eq fun _ => .pure rfl

theorem parameters_matched {scope scope' : Scope} (hscope : scope.Shared loader other scope') :
    (fields : List Field) →
      Matched loader other Eq (parameters loader scope fields) (parameters other scope' fields)
  | [] => by
      unfold parameters
      exact .pure rfl
  | ⟨names, fieldType, _, _⟩ :: rest => by
      unfold parameters
      exact (type_matched hscope fieldType).bind_eq fun _ =>
        (parameters_matched hscope rest).bind_eq fun _ => .pure rfl

end

theorem method_matched {scope scope' : Scope} (hscope : scope.Shared loader other scope')
    (name : String) (signature : Signature) :
    Matched loader other Eq (method loader scope name signature)
      (method other scope' name signature) := by
  unfold method
  exact (parameters_matched h hscope _).bind_eq fun _ =>
    (parameters_matched h hscope _).bind_eq fun _ => .pure rfl

/-! ## Interfaces -/

variable {resolve resolve' : String → String → Resolution Interface}
  (hresolve : ∀ path name, Matched loader other Eq (resolve path name) (resolve' path name))

include hresolve

omit h in
theorem embeddedInterface_matched (path name interface : String) :
    Matched loader other Eq (embeddedInterface resolve path name interface)
      (embeddedInterface resolve' path name interface) := by
  unfold embeddedInterface
  refine .tryCatch (hresolve path name) fun failure => ?_
  split
  · exact .fail _
  · exact .throw _

theorem embed_matched {scope scope' : Scope} (hscope : scope.Shared loader other scope')
    (interface : String) (element : TypeExpr) :
    Matched loader other Eq (embed loader resolve scope interface element)
      (embed other resolve' scope' interface element) := by
  unfold embed
  split
  · rw [hscope.package.rearranged.isSome_findType, hscope.package.rearranged.path]
    split
    · exact embeddedInterface_matched hresolve _ _ _
    · split
      · exact .pure rfl
      · split
        · exact .fail _
        · exact .fail _
  · refine (packagePath_matched hscope _).bind_eq fun path => ?_
    refine (package_matched h path).bind fun foreign foreign' hforeign => ?_
    rw [← Option.not_isSome, ← Option.not_isSome, hforeign.rearranged.isSome_findType]
    split
    · exact .fail _
    · exact embeddedInterface_matched hresolve _ _ _
  · exact .fail _
  · exact .fail _
  · exact .fail _

theorem addElement_matched {scope scope' : Scope} (hscope : scope.Shared loader other scope')
    (interface : String) (methods : MethodSet) (element : Element) :
    Matched loader other Eq (addElement loader resolve scope interface methods element)
      (addElement other resolve' scope' interface methods element) := by
  unfold addElement
  split
  · exact (method_matched h hscope _ _).bind_eq fun _ => .pure rfl
  · exact (embed_matched h hresolve hscope _ _).bind_eq fun _ => .pure rfl
  · exact .fail _
  · exact .fail _

theorem members_matched {scope scope' : Scope} (hscope : scope.Shared loader other scope')
    (interface : String) (elements : List Element) :
    Matched loader other Eq (members loader resolve scope interface elements)
      (members other resolve' scope' interface elements) := by
  unfold members
  generalize Roster.empty = methods
  induction elements generalizing methods with
  | nil => exact .pure rfl
  | cons element rest ih =>
      rw [List.foldlM_cons, List.foldlM_cons]
      exact (addElement_matched h hresolve hscope _ _ _).bind_eq ih

omit h in
theorem referenced_matched {scope scope' : Scope} (hscope : scope.Shared loader other scope')
    (declared : String) (package : Option String) (name : String) (args : List TypeExpr) :
    Matched loader other Eq (referenced resolve scope declared package name args)
      (referenced resolve' scope' declared package name args) := by
  unfold referenced
  split
  · exact .fail _
  · split
    · exact (packagePath_matched hscope _).bind_eq fun _ => hresolve _ _
    · rw [hscope.package.rearranged.isSome_findType, hscope.package.rearranged.path]
      split
      · exact hresolve _ _
      · split
        · exact .pure rfl
        · exact .fail _

theorem declaredInterface_matched (path name : String) :
    Matched loader other Eq (declaredInterface loader resolve path name)
      (declaredInterface other resolve' path name) := by
  unfold declaredInterface
  refine (package_matched h path).bind fun package package' hpackage => ?_
  have hfound := hpackage.rearranged.findType_rel name
  have href := hpackage.rearranged.ref_eq
  rw [href, hpackage.rearranged.name]
  generalize package.findType name = found at hfound
  generalize package'.findType name = found' at hfound
  cases hfound with
  | none => exact .fail _
  | @some found found' hsame =>
      obtain ⟨unit, spec⟩ := found
      obtain ⟨unit', spec'⟩ := found'
      obtain ⟨rfl, hunit⟩ : spec = spec' ∧ package.units[unit]? = package'.units[unit']? := hsame
      dsimp only
      split
      · exact .fail _
      · refine (importTable_matched h hpackage hunit).bind_eq fun imports => ?_
        have hscope : Scope.Shared loader other ⟨package, unit, imports⟩ ⟨package', unit', imports⟩ :=
          ⟨hpackage, hunit, rfl⟩
        split
        · exact (members_matched h hresolve hscope _ _).bind_eq fun _ => .pure rfl
        · exact (referenced_matched hresolve hscope _ _ _ _).bind_eq fun _ => .pure rfl
        · exact .fail _

omit hresolve in
theorem interfaceUpTo_matched (bound : Nat) (path name : String) :
    Matched loader other Eq (interfaceUpTo loader bound path name)
      (interfaceUpTo other bound path name) := by
  induction bound generalizing path name with
  | zero => exact .throw _
  | succ bound ih =>
      unfold interfaceUpTo
      refine Matched.get.bind fun first second hs => ?_
      dsimp only
      rw [hs.interfaces, hs.resolving]
      split
      · exact .pure rfl
      · split
        · exact .fail _
        · refine (declaredInterface_matched h ih path name).whileResolving _ |>.bind_eq fun found => ?_
          refine Matched.bind (.modify fun hs => ?_) fun _ _ _ => .pure rfl
          exact ⟨⟨hs.coherent.packages, hs.coherent.names, hs.coherent.tables⟩,
            ⟨hs.coherent'.packages, hs.coherent'.names, hs.coherent'.tables⟩,
            congrArg (((path, name), found) :: ·) hs.interfaces, hs.resolving⟩

end Resolution

end GoTrace
