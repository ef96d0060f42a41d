import GoTrace.Proofs.Collection.FirstUse
import GoTrace.Proofs.Wrapper.Declarations

/-!
# Files that interfaces are added to

A file is made by adding one interface after the other. An interface is refused when one of its name is
held that comes from another package, and then the file stays what it was. Whatever is added, in
whatever order, the file holds each name once, in the order of the first calls that succeeded, and
declares nothing twice.
-/

namespace GoTrace

open Lexeme

namespace WrapperFile

variable {file : WrapperFile} {interface : Interface}

/-! ## One call -/

/-- What adding an interface can come to, with the item of its name that is held. -/
inductive Adds (file : WrapperFile) (interface : Interface) :
    Except GenerateError Unit × WrapperFile → Prop
  | new {later : WrapperFile} : interface.name ∉ file.interfaces.keys →
      later.output = file.output → later.backend = file.backend →
      later.interfaces.items = file.interfaces.items ++ [interface] →
      Adds file interface (.ok (), later)
  | again {held : Interface} : held ∈ file.interfaces.items → held.name = interface.name →
      held.package.path = interface.package.path → Adds file interface (.ok (), file)
  | clash {held : Interface} : held ∈ file.interfaces.items → held.name = interface.name →
      held.package.path ≠ interface.package.path →
      Adds file interface (.error (.duplicateInterface interface.name
        (held.package.path ++ "." ++ held.name)
        (interface.package.path ++ "." ++ interface.name)), file)

theorem adds_add (file : WrapperFile) (interface : Interface) :
    Adds file interface (file.add interface) := by
  unfold add
  cases hheld : file.interfaces.get? interface.name with
  | none =>
      have hcontains : file.interfaces.contains interface.name = false := by
        rw [← Roster.isSome_get?, hheld, Option.isSome_none]
      refine .new ?_ rfl rfl ?_
      · rw [← Roster.contains_eq_true_iff, hcontains]
        exact Bool.false_ne_true
      · rw [Roster.items_addIfAbsent, hcontains]
        rfl
  | some held =>
      obtain ⟨hmem, hname⟩ := Roster.get?_eq_some_iff.mp hheld
      dsimp only
      split
      · exact .again hmem hname ‹_›
      · exact .clash hmem hname ‹_›

theorem name_mem_keys {held : Interface} (hmem : held ∈ file.interfaces.items)
    (hname : held.name = interface.name) : interface.name ∈ file.interfaces.keys :=
  hname ▸ List.mem_map_of_mem hmem

/-- A call fails just where the name is taken by an interface of another package. -/
theorem add_eq_error_iff {failure : GenerateError} :
    (file.add interface).1 = .error failure ↔
      ∃ held ∈ file.interfaces.items, held.name = interface.name ∧
        held.package.path ≠ interface.package.path ∧
        failure = .duplicateInterface interface.name (held.package.path ++ "." ++ held.name)
          (interface.package.path ++ "." ++ interface.name) := by
  have hadds := adds_add file interface
  generalize file.add interface = outcome at hadds
  constructor
  · rintro h
    cases hadds with
    | new => cases h
    | again => cases h
    | clash hmem hname hpath =>
        cases h
        exact ⟨_, hmem, hname, hpath, rfl⟩
  · rintro ⟨held, hmem, hname, hpath, rfl⟩
    cases hadds with
    | new hnew => exact absurd (name_mem_keys hmem hname) hnew
    | @again held' hmem' hname' hpath' =>
        obtain rfl := List.inj_on_of_nodup_map file.interfaces.nodup hmem hmem' (hname.trans hname'.symm)
        exact absurd hpath' hpath
    | @clash held' hmem' hname' =>
        obtain rfl := List.inj_on_of_nodup_map file.interfaces.nodup hmem hmem' (hname.trans hname'.symm)
        rfl

theorem add_of_mem (h : interface.name ∈ file.interfaces.keys) : (file.add interface).2 = file := by
  have hadds := adds_add file interface
  generalize file.add interface = outcome at hadds
  cases hadds with
  | new hnew => exact absurd h hnew
  | again => rfl
  | clash => rfl

theorem add_of_error {failure : GenerateError} (h : (file.add interface).1 = .error failure) :
    (file.add interface).2 = file := by
  obtain ⟨held, hmem, hname, -⟩ := add_eq_error_iff.mp h
  exact add_of_mem (name_mem_keys hmem hname)

theorem mem_keys_add {name : String} :
    name ∈ (file.add interface).2.interfaces.keys ↔
      name ∈ file.interfaces.keys ∨ name = interface.name := by
  by_cases hheld : interface.name ∈ file.interfaces.keys
  · rw [add_of_mem hheld]
    exact (or_iff_left_of_imp fun heq => heq ▸ hheld).symm
  · have hadds := adds_add file interface
    generalize file.add interface = outcome at hadds
    cases hadds with
    | new _ _ _ hitems => simp [Roster.keys, hitems]
    | again hmem hname => exact absurd (name_mem_keys hmem hname) hheld
    | clash hmem hname => exact absurd (name_mem_keys hmem hname) hheld

theorem add_output_backend :
    (file.add interface).2.output = file.output ∧ (file.add interface).2.backend = file.backend := by
  have hadds := adds_add file interface
  generalize file.add interface = outcome at hadds
  cases hadds with
  | new _ houtput hbackend => exact ⟨houtput, hbackend⟩
  | again => exact ⟨rfl, rfl⟩
  | clash => exact ⟨rfl, rfl⟩

/-! ## Any sequence of calls -/

/-- The file that calls which add interfaces leave behind, with those that fail among them. -/
def afterCalls (file : WrapperFile) (calls : List Interface) : WrapperFile :=
  calls.foldl (fun file interface => (file.add interface).2) file

def succeeding : WrapperFile → List Interface → List Interface
  | _, [] => []
  | file, interface :: rest =>
      match file.add interface with
      | (.ok (), later) => interface :: succeeding later rest
      | (.error _, later) => succeeding later rest

theorem mem_keys_afterCalls {calls : List Interface} {name : String} :
    name ∈ (file.afterCalls calls).interfaces.keys ↔
      name ∈ file.interfaces.keys ∨ name ∈ calls.map Interface.name := by
  induction calls generalizing file with
  | nil => simp [afterCalls]
  | cons interface rest ih =>
      change name ∈ ((file.add interface).2.afterCalls rest).interfaces.keys ↔ _
      rw [ih, mem_keys_add, List.map_cons, List.mem_cons, or_assoc]

/-- The file holds the first of the given interfaces with each name, in the order in which they are
given. -/
structure HoldsFirst (file : WrapperFile) (given : List Interface) : Prop where
  names : ListsUses (given.map Interface.name) file.interfaces.keys
  first : ∀ interface ∈ file.interfaces.items,
    given.find? (fun other => other.name = interface.name) = some interface

theorem holdsFirst_empty (output : OutputPackage) (backend : Backend) :
    (empty output backend).HoldsFirst [] :=
  ⟨.nil, nofun⟩

theorem HoldsFirst.add {given : List Interface} (h : file.HoldsFirst given) {later : WrapperFile}
    (hadd : file.add interface = (.ok (), later)) : later.HoldsFirst (given ++ [interface]) := by
  have hadds := adds_add file interface
  rw [hadd] at hadds
  have hfirst : ∀ item ∈ file.interfaces.items,
      (given ++ [interface]).find? (fun other => other.name = item.name) = some item := by
    intro item hitem
    rw [List.find?_append, h.first item hitem, Option.some_or]
  cases hadds with
  | new hnew _ _ hitems =>
      have hunused : interface.name ∉ given.map Interface.name := mt (h.names.mem_iff _).mpr hnew
      constructor
      · rw [Roster.keys, hitems, List.map_append, List.map_append]
        exact h.names.concat_of_notMem hunused
      · intro item hitem
        rw [hitems] at hitem
        rcases List.mem_append.mp hitem with hitem | hitem
        · exact hfirst item hitem
        · obtain rfl := List.mem_singleton.mp hitem
          have hnone : given.find? (fun other => other.name = item.name) = none := by
            rw [List.find?_eq_none]
            intro other hother
            simpa using fun heq : other.name = item.name => hunused (heq ▸ List.mem_map_of_mem hother)
          rw [List.find?_append, hnone, Option.none_or]
          simp
  | again hmem hname =>
      have hused : interface.name ∈ given.map Interface.name :=
        (h.names.mem_iff _).mp (name_mem_keys hmem hname)
      refine ⟨?_, hfirst⟩
      rw [List.map_append]
      exact h.names.concat_of_mem hused

theorem HoldsFirst.afterCalls {given : List Interface} (h : file.HoldsFirst given)
    (calls : List Interface) :
    (file.afterCalls calls).HoldsFirst (given ++ succeeding file calls) := by
  induction calls generalizing file given with
  | nil =>
      rw [succeeding, List.append_nil]
      exact h
  | cons interface rest ih =>
      change ((file.add interface).2.afterCalls rest).HoldsFirst _
      unfold succeeding
      split
      · rename_i later hadd
        rw [hadd, List.append_cons]
        exact ih (h.add hadd)
      · rename_i failure later hadd
        have hlater : later = file := by
          have hleft := add_of_error (congrArg Prod.fst hadd)
          rwa [hadd] at hleft
        rw [hadd, hlater]
        exact ih h

/-- What calls that add interfaces make of a file without wrappers. -/
structure Accumulates (output : OutputPackage) (backend : Backend) (calls : List Interface)
    (file : WrapperFile) : Prop where
  output_eq : file.output = output
  backend_eq : file.backend = backend
  /-- Each name is held once, in the order of the first calls that succeeded, with what they gave. -/
  held : file.HoldsFirst (succeeding (empty output backend) calls)
  /-- A further call fails just where the name is taken by an interface of another package. -/
  refused : ∀ interface failure, (file.add interface).1 = .error failure ↔
    ∃ held ∈ file.interfaces.items, held.name = interface.name ∧
      held.package.path ≠ interface.package.path ∧
      failure = .duplicateInterface interface.name (held.package.path ++ "." ++ held.name)
        (interface.package.path ++ "." ++ interface.name)
  /-- The file that a further call leaves has the same text when the call fails. -/
  failed : ∀ interface failure, (file.add interface).1 = .error failure →
    (file.add interface).2.text = file.text
  /-- So it has when a call before was given the same path and name, whether that succeeded or not. -/
  repeated : ∀ interface, ∀ earlier ∈ calls, earlier.package.path = interface.package.path →
    earlier.name = interface.name → (file.add interface).2.text = file.text
  /-- Behind its head the text is that of a struct, a function and methods for every interface. -/
  text : file.text = file.head ++ String.join (file.interfaces.items.flatMap
    (declarationTexts backend (importsOf output backend file.interfaces.items)))
  distinct : TopLevel.Distinct (file.interfaces.items.flatMap declarations)
  /-- Who reads the text finds them in this order, and no other declarations. -/
  read : IsIdentifier output.name → (∀ interface ∈ file.interfaces.items,
    interface.Legible ∧ interface.Named ∧ interface.Writable output.path) → ∀ sourceName,
      ∃ parsed, SourceFile.parse file.text sourceName = .ok parsed ∧
        parsed.declarations.map TopLevel.ofDeclaration =
          (file.interfaces.items.flatMap declarations).map some

theorem afterCalls_output_backend (calls : List Interface) :
    (file.afterCalls calls).output = file.output ∧
      (file.afterCalls calls).backend = file.backend := by
  induction calls generalizing file with
  | nil => exact ⟨rfl, rfl⟩
  | cons interface rest ih =>
      obtain ⟨houtput, hbackend⟩ := @ih (file.add interface).2
      exact ⟨houtput.trans add_output_backend.1, hbackend.trans add_output_backend.2⟩

/-- Every sequence of calls, with those that fail among them, makes such a file. -/
theorem accumulates_afterCalls (output : OutputPackage) (backend : Backend) (calls : List Interface) :
    Accumulates output backend calls ((empty output backend).afterCalls calls) := by
  obtain ⟨houtput, hbackend⟩ := @afterCalls_output_backend (empty output backend) calls
  refine {
    output_eq := houtput
    backend_eq := hbackend
    held := (holdsFirst_empty output backend).afterCalls calls
    refused := fun _ _ => add_eq_error_iff
    failed := fun interface failure h => by rw [add_of_error h]
    repeated := fun interface earlier hearlier _ hname => ?_
    text := ?_
    distinct := distinct_declarations (Roster.nodup _)
    read := fun hname h sourceName => ?_ }
  · have hheld : interface.name ∈ ((empty output backend).afterCalls calls).interfaces.keys :=
      mem_keys_afterCalls.mpr (.inr (hname ▸ List.mem_map_of_mem hearlier))
    rw [add_of_mem hheld]
  · rw [text_eq_declarations, houtput, hbackend]
    rfl
  · obtain ⟨parsed, hparsed, hread, -⟩ := parse_render hname
      (fun interface hmem => (h interface hmem).1) (fun interface hmem => (h interface hmem).2.1)
      (fun interface hmem => (h interface hmem).2.2) sourceName
    refine ⟨parsed, ?_, map_ofDeclaration_flatMap hread.declarations⟩
    rw [WrapperFile.text, houtput, hbackend]
    exact hparsed

end WrapperFile

end GoTrace
