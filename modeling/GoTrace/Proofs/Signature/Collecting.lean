import GoTrace.Proofs.Collection.PathMap
import GoTrace.Proofs.Wrapper.Parts

/-!
# Collecting the packages of a type

The packages of a type are collected apart from writing it. Both visit the same references in the same
order: a rendering that notes each package it asks its qualifier for notes what is collected, and nothing
but its answers for these packages has a say in the text.
-/

namespace GoTrace

namespace Descriptor

/-- The package is referred to somewhere in the type, at any depth. -/
inductive Contains (package : PackageRef) : Descriptor → Prop
  | named {name : String} : Contains package (.named (some package) name)
  | pointer {target : Descriptor} : Contains package target → Contains package (.pointer target)
  | sequence {length : Option Nat} {element : Descriptor} :
      Contains package element → Contains package (.sequence length element)
  | key {key value : Descriptor} : Contains package key → Contains package (.map key value)
  | value {key value : Descriptor} : Contains package value → Contains package (.map key value)
  | channel {direction : Direction} {element : Descriptor} :
      Contains package element → Contains package (.channel direction element)
  | param {params results : List Parameter} {slot : Parameter} :
      slot ∈ params → Contains package slot.type → Contains package (.function params results)
  | result {params results : List Parameter} {slot : Parameter} :
      slot ∈ results → Contains package slot.type → Contains package (.function params results)
  | variadic {element : Descriptor} : Contains package element → Contains package (.variadic element)

/-! ## Rendering with notes -/

/-- The answer of the qualifier, with a note of the package that it is asked for. -/
def ask (qualify : Qualifier) (package : PackageRef) : StateM (List PackageRef) (Option String) := do
  modify (· ++ [package])
  return qualify package

mutual

/-- The type as source text, written from left to right, with a note of each package for which the
qualifier is asked. -/
def renderNoting (qualify : Qualifier) : Descriptor → StateM (List PackageRef) String
  | .named none name => return name
  | .named (some package) name => do
      match ← ask qualify package with
      | some aliasName => return aliasName ++ "." ++ name
      | none => return name
  | .pointer target => return "*" ++ (← target.renderNoting qualify)
  | .sequence none element => return "[]" ++ (← element.renderNoting qualify)
  | .sequence (some length) element =>
      return "[" ++ toString length ++ "]" ++ (← element.renderNoting qualify)
  | .map key value =>
      return "map[" ++ (← key.renderNoting qualify) ++ "]" ++ (← value.renderNoting qualify)
  | .channel .send element => return "chan<- " ++ (← element.renderNoting qualify)
  | .channel .receive element => return "<-chan " ++ (← element.renderNoting qualify)
  | .channel .both element => do
      let text ← element.renderNoting qualify
      return if element.isReceive then "chan (" ++ text ++ ")" else "chan " ++ text
  | .function params results =>
      return "func(" ++ ", ".intercalate (← renderAllNoting qualify params) ++ ")" ++
        resultsText (← renderAllNoting qualify results)
  | .variadic element => return "..." ++ (← element.renderNoting qualify)
  | .emptyInterface => return "interface\x7b\x7d"
  | .emptyStruct => return "struct\x7b\x7d"

/-- The types of parameters or results as source text, with a note of each package asked for. -/
def renderAllNoting (qualify : Qualifier) : List Parameter → StateM (List PackageRef) (List String)
  | [] => return []
  | ⟨_, type⟩ :: rest => return (← type.renderNoting qualify) :: (← renderAllNoting qualify rest)

end

theorem render_both (qualify : Qualifier) (element : Descriptor) :
    (Descriptor.channel .both element).render qualify =
      if element.isReceive then "chan (" ++ element.render qualify ++ ")"
      else "chan " ++ element.render qualify := by
  rw [← String.toList_inj]
  split
  · rename_i hreceive
    simp [toList_render_both_receive hreceive]
  · rename_i hreceive
    simp [toList_render_both (Bool.eq_false_iff.mpr hreceive)]

section

variable (qualify : Qualifier)

mutual

theorem run_renderNoting (type : Descriptor) (notes : List PackageRef) :
    ((type.renderNoting qualify).run notes).run =
      (type.render qualify, notes ++ type.references) := by
  match type with
  | .named none name => simp [renderNoting, render, references]
  | .named (some package) name =>
      cases hanswer : qualify package <;>
        simp [renderNoting, render, references, ask, hanswer]
  | .pointer target => simp [renderNoting, render, references, run_renderNoting target]
  | .sequence none element => simp [renderNoting, render, references, run_renderNoting element]
  | .sequence (some length) element =>
      simp [renderNoting, render, references, run_renderNoting element]
  | .map key value =>
      simp [renderNoting, render, references, run_renderNoting key, run_renderNoting value]
  | .channel .send element => simp [renderNoting, render, references, run_renderNoting element]
  | .channel .receive element => simp [renderNoting, render, references, run_renderNoting element]
  | .channel .both element =>
      simp [renderNoting, render_both, references, run_renderNoting element]
  | .function params results =>
      simp [renderNoting, render, references, run_renderAllNoting params, run_renderAllNoting results]
  | .variadic element => simp [renderNoting, render, references, run_renderNoting element]
  | .emptyInterface => simp [renderNoting, render, references]
  | .emptyStruct => simp [renderNoting, render, references]

theorem run_renderAllNoting (slots : List Parameter) (notes : List PackageRef) :
    ((renderAllNoting qualify slots).run notes).run =
      (renderAll qualify slots, notes ++ referencesOfAll slots) := by
  match slots with
  | [] => simp [renderAllNoting, renderAll, referencesOfAll]
  | ⟨_, type⟩ :: rest =>
      simp [renderAllNoting, renderAll, referencesOfAll, run_renderNoting type,
        run_renderAllNoting rest]

end

theorem run_mapM_renderNoting (types : List Descriptor) (notes : List PackageRef) :
    ((types.mapM (renderNoting qualify)).run notes).run =
      (types.map (render qualify), notes ++ types.flatMap references) := by
  induction types generalizing notes with
  | nil => simp
  | cons type rest ih => simp [run_renderNoting, ih]

end

/-! ## What is collected -/

mutual

theorem mem_references_iff {package : PackageRef} (type : Descriptor) :
    package ∈ type.references ↔ type.Contains package := by
  match type with
  | .named package' name =>
      constructor
      · intro h
        obtain rfl := Option.mem_toList.mp h
        exact .named
      · rintro ⟨⟩
        exact List.mem_singleton_self _
  | .pointer target => exact (mem_references_iff target).trans ⟨.pointer, fun | .pointer h => h⟩
  | .sequence _ element =>
      exact (mem_references_iff element).trans ⟨.sequence, fun | .sequence h => h⟩
  | .map key value =>
      rw [references, List.mem_append, mem_references_iff key, mem_references_iff value]
      exact ⟨fun h => h.elim .key .value, fun | .key h => .inl h | .value h => .inr h⟩
  | .channel _ element => exact (mem_references_iff element).trans ⟨.channel, fun | .channel h => h⟩
  | .function params results =>
      rw [references, List.mem_append, mem_referencesOfAll_iff params, mem_referencesOfAll_iff results]
      constructor
      · rintro (⟨slot, hslot, h⟩ | ⟨slot, hslot, h⟩)
        · exact .param hslot h
        · exact .result hslot h
      · rintro (_ | _)
        · exact .inl ⟨_, ‹_›, ‹_›⟩
        · exact .inr ⟨_, ‹_›, ‹_›⟩
  | .variadic element =>
      exact (mem_references_iff element).trans ⟨.variadic, fun | .variadic h => h⟩
  | .emptyInterface => exact ⟨nofun, nofun⟩
  | .emptyStruct => exact ⟨nofun, nofun⟩

theorem mem_referencesOfAll_iff {package : PackageRef} (slots : List Parameter) :
    package ∈ referencesOfAll slots ↔ ∃ slot ∈ slots, slot.type.Contains package := by
  match slots with
  | [] => exact ⟨nofun, nofun⟩
  | ⟨_, type⟩ :: rest =>
      rw [referencesOfAll, List.mem_append, mem_references_iff type, mem_referencesOfAll_iff rest]
      simp

end

theorem render_congr {qualify qualify' : Qualifier} {type : Descriptor}
    (h : ∀ package, type.Contains package → qualify package = qualify' package) :
    type.render qualify = type.render qualify' := by
  rw [← writeAll_parts, ← writeAll_parts, Fragment.writeAll, Fragment.writeAll]
  congr 1
  refine List.map_congr_left fun part hpart => ?_
  cases part with
  | plain text => rfl
  | name package name =>
      cases package with
      | none => rfl
      | some package =>
          have hmem : (some package, name) ∈ Fragment.names type.parts :=
            List.mem_filterMap.mpr ⟨_, hpart, rfl⟩
          have hcontains : type.Contains package := by
            rw [← mem_references_iff, references_eq, ← names_parts]
            exact List.mem_filterMap.mpr ⟨_, hmem, rfl⟩
          simp only [Fragment.write, render, Option.bind_some, h package hcontains]

end Descriptor

def Method.signature (method : Method) : Descriptor := .function method.params method.results

/-- The map holds what the types refer to, and the types are written with no other packages. -/
structure PathMap.CollectedFrom (map : PathMap) (types : List Descriptor) : Prop where
  /-- The paths of the map are those of the packages in the types. -/
  paths : ∀ path, path ∈ map.paths ↔
    ∃ type ∈ types, ∃ package, type.Contains package ∧ package.path = path
  /-- Writing the types in order asks for packages, and the first of a path gives the alias. -/
  first : ∀ qualify, ∃ notes : List PackageRef,
    ((types.mapM (Descriptor.renderNoting qualify)).run []).run =
        (types.map (Descriptor.render qualify), notes) ∧
      ∀ path, map.get? path =
        (notes.find? fun package => package.path = path).map (·.aliasName)
  /-- The text depends on the qualifier for the packages in the types only. -/
  texts : ∀ qualify qualify' : Qualifier,
    (∀ type ∈ types, ∀ package, type.Contains package → qualify package = qualify' package) →
      types.map (Descriptor.render qualify) = types.map (Descriptor.render qualify')

theorem PathMap.collectedFrom (types : List Descriptor) :
    (PathMap.empty.addPackages (types.flatMap Descriptor.references)).CollectedFrom types where
  paths path := by
    rw [mem_paths_addPackages]
    simp only [List.mem_flatMap, Descriptor.mem_references_iff]
    constructor
    · rintro (hempty | ⟨package, ⟨type, htype, hcontains⟩, hpath⟩)
      · cases hempty
      · exact ⟨type, htype, package, hcontains, hpath⟩
    · rintro ⟨type, htype, package, hcontains, hpath⟩
      exact .inr ⟨package, ⟨type, htype, hcontains⟩, hpath⟩
  first qualify := by
    refine ⟨_, Descriptor.run_mapM_renderNoting qualify types [], fun path => ?_⟩
    rw [get?_addPackages, List.nil_append]
    exact Option.none_or
  texts qualify qualify' h :=
    List.map_congr_left fun type htype => Descriptor.render_congr (h type htype)

/-- The packages of a type, a method and an interface are collected as they are written: a type as it
stands, a method as its parameters and results, an interface as its methods in order. -/
theorem packages_collectedFrom (type : Descriptor) (method : Method) (interface : Interface) :
    (PathMap.empty.addPackages type.references).CollectedFrom [type] ∧
      (PathMap.empty.addPackages method.references).CollectedFrom [method.signature] ∧
      interface.imports.CollectedFrom (interface.methods.items.map Method.signature) := by
  refine ⟨?type, ?method, ?interface⟩
  case type =>
    rw [← List.flatMap_singleton Descriptor.references type]
    exact PathMap.collectedFrom [type]
  case method =>
    have hsignature : method.references = method.signature.references := rfl
    rw [hsignature, ← List.flatMap_singleton Descriptor.references method.signature]
    exact PathMap.collectedFrom [method.signature]
  case interface =>
    have himports : interface.imports = PathMap.empty.addPackages
        ((interface.methods.items.map Method.signature).flatMap Descriptor.references) := by
      rw [interface.collected, List.flatMap_map]
      rfl
    rw [himports]
    exact PathMap.collectedFrom _

end GoTrace
