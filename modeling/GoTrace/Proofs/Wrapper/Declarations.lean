import Mathlib.Data.List.Nodup
import GoTrace.Proofs.Wrapper.ParameterNames
import GoTrace.Proofs.Wrapper.ReadBack

/-!
# What a generated file declares

Behind its imports a generated file is a sequence of texts: for each interface a struct, the function that
makes one, and its methods. The names that they declare are taken from the interfaces, whose own names are
different, and fields make way for methods. So nothing is declared twice, and who reads the file finds
these declarations and no others.
-/

namespace GoTrace

/-- A declaration in a generated file, with the names that it declares. -/
inductive TopLevel where
  | struct (name : String) (fields : List String)
  | function (name : String)
  | method (receiver name : String)
deriving DecidableEq, Repr

namespace TopLevel

/-- The name that a declaration gives to a type or a function. -/
def name? : TopLevel → Option String
  | struct name _ => some name
  | function name => some name
  | method _ _ => none

def method? : TopLevel → Option (String × String)
  | method receiver name => some (receiver, name)
  | _ => none

/-- What a declaration that is read declares, if it is one of these. -/
def ofDeclaration : Declaration → Option TopLevel
  | .type ⟨name, _, _, .struct fields, _⟩ =>
      some (.struct name.name (fields.flatMap fun field => field.names.map Ident.name))
  | .func ⟨none, name, _, _, _, _⟩ => some (.function name.name)
  | .func ⟨some [⟨_, .pointer (.name none receiver []), _, _⟩], name, _, _, _, _⟩ =>
      some (.method receiver name.name)
  | _ => none

/-- No name is declared twice: neither for types and functions, nor for the fields and methods of one
type. -/
structure Distinct (decls : List TopLevel) : Prop where
  names : (decls.filterMap name?).Nodup
  methods : (decls.filterMap method?).Nodup
  fields : ∀ name fields, .struct name fields ∈ decls → fields.Nodup
  free : ∀ name fields, .struct name fields ∈ decls → ∀ field ∈ fields,
    (name, field) ∉ decls.filterMap method?

end TopLevel

namespace WrapperFields

theorem next_not_mem (methods : MethodSet) : (ofMethods methods).next ∉ methods.keys :=
  firstFree_not_mem (fun _ _ => underscoredBy_injective) 0

theorem tracer_not_mem (methods : MethodSet) : (ofMethods methods).tracer ∉ methods.keys :=
  firstFree_not_mem (fun _ _ => underscoredBy_injective) 0

theorem next_ne_tracer (methods : MethodSet) :
    (ofMethods methods).next ≠ (ofMethods methods).tracer := by
  obtain ⟨m, hnext, -⟩ := exists_eq_firstFree methods.keys (underscoredBy "next") 0
  obtain ⟨n, htracer, -⟩ := exists_eq_firstFree methods.keys (underscoredBy "tracer") 0
  intro heq
  replace heq : underscoredBy "next" m = underscoredBy "tracer" n := by
    rw [← hnext, ← htracer]
    exact heq
  have hfirst := congrArg (fun name => name.toList.head?) heq
  simp [underscoredBy] at hfirst

example : ofMethods ((Roster.empty.replace ⟨"next", [], []⟩).replace ⟨"next_", [], []⟩) =
    ⟨"next__", "tracer"⟩ := by
  decide +kernel

end WrapperFields

namespace WrapperFile

open TopLevel

def declarations (interface : Interface) : List TopLevel :=
  let fields := WrapperFields.ofMethods interface.methods
  .struct ("Traced" ++ interface.name) [fields.next, fields.tracer] ::
    .function ("NewTraced" ++ interface.name) ::
      interface.methods.keys.map (.method ("Traced" ++ interface.name))

variable {backend : Backend} {imports : FileImports} {interface : Interface}
  {interfaces : List Interface}

/-! ## How they are written and read -/

def declarationTexts (backend : Backend) (imports : FileImports) (interface : Interface) :
    List String :=
  structText backend imports interface :: constructorText backend imports interface ::
    interface.methods.items.map
      (methodText backend imports interface (WrapperFields.ofMethods interface.methods))

theorem join_declarationTexts : String.join (declarationTexts backend imports interface) =
    wrapperText backend imports interface := by
  rw [declarationTexts, String.join_cons, String.join_cons, wrapperText_eq, String.append_assoc]

theorem IsWrapperStruct.ofDeclaration {decl : Declaration} (h : IsWrapperStruct interface decl) :
    TopLevel.ofDeclaration decl = some (.struct ("Traced" ++ interface.name)
      [(WrapperFields.ofMethods interface.methods).next,
        (WrapperFields.ofMethods interface.methods).tracer]) := by
  obtain ⟨⟨name, typeParams, isAlias, type, span⟩, rfl, hname, -, -, fields, htype, hfields⟩ := h
  obtain rfl : type = .struct fields := htype
  obtain ⟨next, tracer, rfl, hnext, htracer⟩ : ∃ next tracer, fields = [next, tracer] ∧
      next.names.map Ident.name = [(WrapperFields.ofMethods interface.methods).next] ∧
      tracer.names.map Ident.name = [(WrapperFields.ofMethods interface.methods).tracer] := by
    cases hfields with
    | cons hnext hrest =>
        cases hrest with
        | cons htracer hnil =>
            cases hnil
            exact ⟨_, _, rfl, hnext, htracer⟩
  simp only [TopLevel.ofDeclaration, List.flatMap_cons, List.flatMap_nil, hnext, htracer]
  exact congrArg (fun name => some (TopLevel.struct name _)) hname

theorem IsWrapperConstructor.ofDeclaration {decl : Declaration}
    (h : IsWrapperConstructor interface decl) :
    TopLevel.ofDeclaration decl = some (.function ("NewTraced" ++ interface.name)) := by
  obtain ⟨⟨receiver, name, typeParams, signature, hasBody, span⟩, rfl, hreceiver, hname⟩ := h
  obtain rfl : receiver = none := hreceiver
  exact congrArg (fun name => some (TopLevel.function name)) hname

theorem IsWrapperMethod.ofDeclaration {method : Method} {decl : Declaration}
    (h : IsWrapperMethod imports interface method decl) :
    TopLevel.ofDeclaration decl = some (.method ("Traced" ++ interface.name) method.name) := by
  obtain ⟨⟨receiver, name, typeParams, signature, hasBody, span⟩, ⟨names, type, tag, place⟩, rfl,
    hreceiver, htype, hname, -⟩ := h
  obtain rfl : receiver = _ := hreceiver
  obtain rfl : type = _ := htype
  exact congrArg (fun name => some (TopLevel.method _ name)) hname

theorem map_ofDeclaration {decls : List Declaration}
    (h : Parser.Meets (wrapperAccepts imports interface) decls) :
    decls.map ofDeclaration = (declarations interface).map some := by
  cases h with
  | cons hstruct h =>
      cases h with
      | cons hconstructor hmethods =>
          rw [List.map_cons, List.map_cons, hstruct.ofDeclaration, hconstructor.ofDeclaration,
            declarations, Roster.keys, List.map_map, List.map_cons, List.map_cons, List.map_map]
          refine congrArg (fun rest => _ :: _ :: rest) (Parser.Meets.map_eq ?_)
          rw [List.map_map]
          unfold Parser.Meets
          rw [List.forall₂_map_left_iff] at hmethods ⊢
          exact hmethods.imp fun _ _ hmethod => hmethod.ofDeclaration

theorem map_ofDeclaration_flatMap {decls : List Declaration}
    (h : Parser.Meets (interfaces.flatMap (wrapperAccepts imports)) decls) :
    decls.map ofDeclaration = (interfaces.flatMap declarations).map some := by
  induction interfaces generalizing decls with
  | nil =>
      cases h
      rfl
  | cons interface rest ih =>
      have hfirst := List.forall₂_take_append _ _ _ h.flip
      have hrest := List.forall₂_drop_append _ _ _ h.flip
      rw [List.flatMap_cons, List.map_append, ← ih hrest.flip, ← map_ofDeclaration hfirst.flip,
        ← List.map_append, List.take_append_drop]

/-! ## Which names they declare -/

theorem traced_ne_newTraced (first second : String) : "Traced" ++ first ≠ "NewTraced" ++ second := by
  intro heq
  have hletter := congrArg (fun name => name.toList.head?) heq
  simp at hletter

theorem filterMap_name? : (declarations interface).filterMap name? =
    ["Traced" ++ interface.name, "NewTraced" ++ interface.name] := by
  simp [declarations, name?, Function.comp_def]

theorem filterMap_method? : (declarations interface).filterMap method? =
    interface.methods.keys.map (Prod.mk ("Traced" ++ interface.name)) := by
  rw [declarations, List.filterMap_cons_none rfl, List.filterMap_cons_none rfl, List.filterMap_map]
  exact congrFun List.filterMap_eq_map _

theorem mem_filterMap_method? {receiver name : String} :
    (receiver, name) ∈ (interfaces.flatMap declarations).filterMap method? ↔
      ∃ interface ∈ interfaces, "Traced" ++ interface.name = receiver ∧
        name ∈ interface.methods.keys := by
  simp only [List.filterMap_flatMap, filterMap_method?, List.mem_flatMap, List.mem_map,
    Prod.mk.injEq]
  refine exists_congr fun interface => and_congr_right fun _ => ?_
  constructor
  · rintro ⟨_, hkey, hreceiver, rfl⟩
    exact ⟨hreceiver, hkey⟩
  · rintro ⟨hreceiver, hkey⟩
    exact ⟨name, hkey, hreceiver, rfl⟩

theorem struct_mem {name : String} {fields : List String}
    (h : .struct name fields ∈ interfaces.flatMap declarations) :
    ∃ interface ∈ interfaces, name = "Traced" ++ interface.name ∧
      fields = [(WrapperFields.ofMethods interface.methods).next,
        (WrapperFields.ofMethods interface.methods).tracer] := by
  obtain ⟨interface, hinterface, hdecl⟩ := List.mem_flatMap.mp h
  refine ⟨interface, hinterface, ?_⟩
  simpa [declarations] using hdecl

theorem distinct_declarations (h : (interfaces.map Interface.name).Nodup) :
    Distinct (interfaces.flatMap declarations) where
  names := by
    simp only [List.filterMap_flatMap, filterMap_name?]
    refine List.nodup_flatMap.mpr ⟨fun interface _ => ?_, ?_⟩
    · simp
    · refine (List.pairwise_map.mp h).imp fun {first second} hne => ?_
      change List.Disjoint ["Traced" ++ first.name, "NewTraced" ++ first.name]
        ["Traced" ++ second.name, "NewTraced" ++ second.name]
      simp [hne.symm, traced_ne_newTraced, (traced_ne_newTraced _ _).symm]
  methods := by
    simp only [List.filterMap_flatMap, filterMap_method?]
    refine List.nodup_flatMap.mpr ⟨fun interface _ => ?_, ?_⟩
    · exact interface.methods.nodup.map fun _ _ heq => congrArg Prod.snd heq
    · refine (List.pairwise_map.mp h).imp fun {first second} hne => ?_
      refine List.disjoint_left.mpr fun _ hfirst hsecond => ?_
      obtain ⟨name, -, rfl⟩ := List.mem_map.mp hfirst
      obtain ⟨name', -, heq⟩ := List.mem_map.mp hsecond
      exact hne ((String.append_right_inj "Traced").mp (congrArg Prod.fst heq).symm)
  fields name fields hstruct := by
    obtain ⟨interface, -, -, rfl⟩ := struct_mem hstruct
    simpa using WrapperFields.next_ne_tracer interface.methods
  free name fields hstruct field hfield hmethod := by
    obtain ⟨interface, hinterface, rfl, rfl⟩ := struct_mem hstruct
    obtain ⟨other, hother, hreceiver, hkey⟩ := mem_filterMap_method?.mp hmethod
    have hname : other.name = interface.name := (String.append_right_inj _).mp hreceiver
    obtain rfl := List.inj_on_of_nodup_map h hother hinterface hname
    rcases List.mem_cons.mp hfield with rfl | hfield
    · exact WrapperFields.next_not_mem _ hkey
    · obtain rfl := List.mem_singleton.mp hfield
      exact WrapperFields.tracer_not_mem _ hkey

theorem join_wrapperTexts :
    String.join (interfaces.map (wrapperText backend imports)) =
      String.join (interfaces.flatMap (declarationTexts backend imports)) := by
  induction interfaces with
  | nil => rfl
  | cons interface rest ih =>
      rw [List.map_cons, String.join_cons, ih, List.flatMap_cons, String.join_append,
        join_declarationTexts]

/-- What stands in a file in front of its declarations. -/
def head (file : WrapperFile) : String :=
  let imports := importsOf file.output file.backend file.interfaces.items
  header ++ "\n\n" ++ ("package " ++ file.output.name ++ "\n") ++
    if imports.aliases.isEmpty then "" else "\n" ++ imports.render

/-- Behind its head a file is the declarations of its wrappers, and nothing else. -/
theorem text_eq_declarations (file : WrapperFile) :
    file.text = file.head ++ String.join (file.interfaces.items.flatMap (declarationTexts file.backend
      (importsOf file.output file.backend file.interfaces.items))) := by
  rw [← join_wrapperTexts]
  rfl

end WrapperFile

end GoTrace
