import GoTrace.Proofs.Collection.Roster
import GoTrace.Signature.Interface
import Mathlib.Data.List.Basic
import Mathlib.Data.List.Induction

/-!
# The closed form of a flattened interface

Each element of an interface brings methods: its own, or those of the interface it embeds. Going
through the elements in order gives a method set in which every name is decided by one element: the
last that declares the name, or else the first that embeds it. The methods stand in the order of the
elements that decide them.
-/

namespace GoTrace

/-- What one element of an interface brings. -/
inductive Contribution where
  | own (method : Method)
  | embedded (interface : Interface)

namespace Contribution

def methods : Contribution → List Method
  | own method => [method]
  | embedded interface => interface.methods.items

def declares (name : String) : Contribution → Bool
  | own method => method.name = name
  | embedded _ => false

/-- Whether the element embeds an interface with a method of this name. -/
def embeds (name : String) : Contribution → Bool
  | own _ => false
  | embedded interface => interface.methods.contains name

/-- Adds what an element brings to the methods of the elements before it. -/
def addTo (methods : MethodSet) : Contribution → MethodSet
  | own method => methods.replace method
  | embedded interface => interface.methods.items.foldl Roster.addIfAbsent methods

def flatten (parts : List Contribution) : MethodSet :=
  parts.foldl addTo Roster.empty

/-- The place of the last element that declares a name. -/
def lastDeclaring (parts : List Contribution) (name : String) : Option Nat :=
  (parts.reverse.findIdx? (declares name)).map fun index => parts.length - 1 - index

/-- The place of the element that decides a name: the last that declares it, or else the first that
embeds it. -/
def decider (parts : List Contribution) (name : String) : Option Nat :=
  (lastDeclaring parts name).or (parts.findIdx? (embeds name))

/-- The methods that the element at `index` decides, in its own order. -/
def decided (parts : List Contribution) (index : Nat) (part : Contribution) : List Method :=
  part.methods.filter fun method => decider parts method.name = some index

/-! ## One more element -/

theorem lastDeclaring_concat (parts : List Contribution) (part : Contribution) (name : String) :
    lastDeclaring (parts ++ [part]) name =
      if part.declares name then some parts.length else lastDeclaring parts name := by
  unfold lastDeclaring
  rw [List.reverse_concat, List.findIdx?_cons]
  split
  · simp
  · simp only [Option.map_map, List.length_append, List.length_singleton]
    congr 1
    funext index
    simp only [Function.comp]
    omega

theorem decider_concat_own (parts : List Contribution) (method : Method) (name : String) :
    decider (parts ++ [own method]) name =
      if method.name = name then some parts.length else decider parts name := by
  unfold decider
  rw [lastDeclaring_concat, List.findIdx?_append]
  simp only [declares, decide_eq_true_eq]
  split
  · rfl
  · simp [List.findIdx?_cons, embeds]

theorem decider_concat_embedded (parts : List Contribution) (interface : Interface)
    (name : String) :
    decider (parts ++ [embedded interface]) name =
      (decider parts name).or
        (if interface.methods.contains name then some parts.length else none) := by
  unfold decider
  rw [lastDeclaring_concat, List.findIdx?_append]
  simp only [declares, Bool.false_eq_true, if_false, Option.or_assoc]
  congr 2
  rw [List.findIdx?_singleton, embeds]
  cases interface.methods.contains name <;> simp

theorem lt_length_of_decider {parts : List Contribution} {name : String} {index : Nat}
    (h : decider parts name = some index) : index < parts.length := by
  induction parts using List.reverseRecOn generalizing index with
  | nil => simp [decider, lastDeclaring] at h
  | append_singleton parts part ih =>
      rw [List.length_append, List.length_singleton]
      cases part with
      | own method =>
          rw [decider_concat_own] at h
          split at h
          · cases h
            omega
          · exact Nat.lt_succ_of_lt (ih h)
      | embedded interface =>
          rw [decider_concat_embedded] at h
          cases hdecider : decider parts name with
          | some found =>
              rw [hdecider] at h
              exact Nat.lt_succ_of_lt (ih (hdecider.trans h))
          | none =>
              rw [hdecider, Option.none_or] at h
              split at h
              · cases h
                omega
              · cases h

def closedForm (parts : List Contribution) : List Method :=
  parts.zipIdx.flatMap fun entry => decided parts entry.2 entry.1

theorem closedForm_concat (parts : List Contribution) (part : Contribution) :
    closedForm (parts ++ [part]) =
      (parts.zipIdx.flatMap fun entry => decided (parts ++ [part]) entry.2 entry.1) ++
        decided (parts ++ [part]) parts.length part := by
  simp [closedForm, List.zipIdx_append]

theorem decided_concat_own {parts : List Contribution} {index : Nat} (h : index < parts.length)
    (method : Method) (part : Contribution) :
    decided (parts ++ [own method]) index part =
      (decided parts index part).filter fun other => other.name ≠ method.name := by
  unfold decided
  rw [List.filter_filter]
  refine List.filter_congr fun other _ => ?_
  rw [decider_concat_own]
  by_cases heq : method.name = other.name
  · have hne : parts.length ≠ index := by omega
    simp [heq, hne]
  · have hne : other.name ≠ method.name := fun h => heq h.symm
    simp [heq, hne]

theorem decided_concat_embedded {parts : List Contribution} {index : Nat}
    (h : index < parts.length) (interface : Interface) (part : Contribution) :
    decided (parts ++ [embedded interface]) index part = decided parts index part := by
  unfold decided
  refine List.filter_congr fun other _ => ?_
  rw [decider_concat_embedded]
  cases decider parts other.name with
  | some found => rfl
  | none =>
      rw [Option.none_or]
      split
      · have hne : parts.length ≠ index := by omega
        simp [hne]
      · rfl

theorem flatten_concat (parts : List Contribution) (part : Contribution) :
    flatten (parts ++ [part]) = part.addTo (flatten parts) := by
  simp [flatten]

theorem contains_flatten (parts : List Contribution) (name : String) :
    (flatten parts).contains name = (decider parts name).isSome := by
  induction parts using List.reverseRecOn with
  | nil => rfl
  | append_singleton parts part ih =>
      rw [flatten_concat]
      cases part with
      | own method =>
          rw [addTo, Roster.contains_replace, ih, decider_concat_own]
          by_cases heq : method.name = name <;> simp [heq]
      | embedded interface =>
          rw [addTo, Roster.contains_foldl_addIfAbsent, ih, decider_concat_embedded,
            ← Roster.contains]
          cases decider parts name with
          | some found => rfl
          | none => cases interface.methods.contains name <;> rfl

theorem closedForm_concat_own (parts : List Contribution) (method : Method) :
    closedForm (parts ++ [own method]) =
      ((closedForm parts).filter fun other => other.name ≠ method.name) ++ [method] := by
  rw [closedForm_concat, closedForm, List.filter_flatMap]
  congr 1
  · refine List.flatMap_congr fun entry hentry => ?_
    exact decided_concat_own (List.snd_lt_of_mem_zipIdx hentry) method entry.1
  · simp [decided, methods, decider_concat_own]

theorem closedForm_concat_embedded (parts : List Contribution) (interface : Interface) :
    closedForm (parts ++ [embedded interface]) =
      closedForm parts ++
        interface.methods.items.filter fun method => (decider parts method.name).isNone := by
  rw [closedForm_concat, closedForm]
  congr 1
  · refine List.flatMap_congr fun entry hentry => ?_
    exact decided_concat_embedded (List.snd_lt_of_mem_zipIdx hentry) interface entry.1
  · refine List.filter_congr fun method hmethod => ?_
    have hcontains : interface.methods.contains method.name = true :=
      Roster.contains_eq_true_iff.mpr (List.mem_map.mpr ⟨method, hmethod, rfl⟩)
    rw [decider_concat_embedded, hcontains]
    cases hdecider : decider parts method.name with
    | none => simp
    | some found =>
        have hne : found ≠ parts.length := Nat.ne_of_lt (lt_length_of_decider hdecider)
        simp [hne]

theorem items_flatten (parts : List Contribution) :
    (flatten parts).items = closedForm parts := by
  induction parts using List.reverseRecOn with
  | nil => rfl
  | append_singleton parts part ih =>
      rw [flatten_concat]
      cases part with
      | own method => rw [addTo, Roster.items_replace, ih, closedForm_concat_own]
      | embedded interface =>
          rw [addTo, Roster.items_foldl_addIfAbsent _ interface.methods.nodup, ih,
            closedForm_concat_embedded]
          congr 1
          refine List.filter_congr fun method _ => ?_
          rw [contains_flatten]
          cases decider parts method.name <;> rfl

/-! ## What decides a name -/

theorem declares_eq_true_iff {part : Contribution} {name : String} :
    part.declares name = true ↔ ∃ method, part = own method ∧ method.name = name := by
  cases part <;> simp [declares]

theorem embeds_eq_true_iff {part : Contribution} {name : String} :
    part.embeds name = true ↔
      ∃ interface, part = embedded interface ∧ name ∈ interface.methods.keys := by
  cases part <;> simp [embeds, Roster.contains_eq_true_iff]

theorem lastDeclaring_eq_some {parts : List Contribution} {index : Nat} {method : Method}
    (h : parts[index]? = some (own method))
    (hlast : ∀ later other, index < later → parts[later]? = some (own other) →
      other.name ≠ method.name) :
    lastDeclaring parts method.name = some index := by
  induction parts using List.reverseRecOn with
  | nil => simp at h
  | append_singleton parts part ih =>
      rw [lastDeclaring_concat]
      rcases Nat.lt_trichotomy index parts.length with hlt | heq | hgt
      · rw [List.getElem?_append_left hlt] at h
        have hpart : part.declares method.name = false := by
          cases hdeclares : part.declares method.name with
          | false => rfl
          | true =>
              obtain ⟨other, rfl, hname⟩ := declares_eq_true_iff.mp hdeclares
              exact absurd hname (hlast parts.length other hlt (by simp))
        rw [hpart]
        refine ih h fun later other hlater hother => hlast later other hlater ?_
        obtain ⟨hbound, -⟩ := List.getElem?_eq_some_iff.mp hother
        rwa [List.getElem?_append_left hbound]
      · subst heq
        simp only [List.getElem?_concat_length, Option.some.injEq] at h
        subst h
        simp [declares]
      · rw [List.getElem?_eq_none (by simp; omega)] at h
        cases h

theorem lastDeclaring_eq_none {parts : List Contribution} {name : String}
    (h : ∀ method, own method ∈ parts → method.name ≠ name) :
    lastDeclaring parts name = none := by
  unfold lastDeclaring
  rw [Option.map_eq_none_iff, List.findIdx?_eq_none_iff]
  intro part hmem
  cases hdeclares : part.declares name with
  | false => rfl
  | true =>
      obtain ⟨method, rfl, hname⟩ := declares_eq_true_iff.mp hdeclares
      exact absurd hname (h method (List.mem_reverse.mp hmem))

theorem findIdx?_embeds_eq_some {parts : List Contribution} {index : Nat} {interface : Interface}
    {name : String} (h : parts[index]? = some (embedded interface))
    (hname : name ∈ interface.methods.keys)
    (hfirst : ∀ earlier other, earlier < index → parts[earlier]? = some (embedded other) →
      name ∉ other.methods.keys) :
    parts.findIdx? (embeds name) = some index := by
  obtain ⟨hbound, hpart⟩ := List.getElem?_eq_some_iff.mp h
  rw [List.findIdx?_eq_some_iff_getElem]
  refine ⟨hbound, embeds_eq_true_iff.mpr ⟨interface, hpart, hname⟩, fun earlier hlt hembeds => ?_⟩
  obtain ⟨other, hother, hmem⟩ := embeds_eq_true_iff.mp hembeds
  refine hfirst earlier other hlt ?_ hmem
  rw [List.getElem?_eq_some_iff]
  exact ⟨Nat.lt_trans hlt hbound, hother⟩

theorem mem_closedForm {parts : List Contribution} {index : Nat} {part : Contribution}
    {method : Method} (h : parts[index]? = some part) (hmethod : method ∈ part.methods)
    (hdecider : decider parts method.name = some index) : method ∈ closedForm parts := by
  refine List.mem_flatMap.mpr ⟨(part, index), List.mk_mem_zipIdx_iff_getElem?.mpr h, ?_⟩
  exact List.mem_filter.mpr ⟨hmethod, by simp [hdecider]⟩

theorem decider_isSome (parts : List Contribution) (name : String) :
    (decider parts name).isSome =
      (parts.any (declares name) || parts.any (embeds name)) := by
  rw [decider, Option.isSome_or, lastDeclaring, Option.isSome_map, List.findIdx?_isSome,
    List.any_reverse, List.findIdx?_isSome]

end Contribution

open Contribution

/-- How the methods of an interface come from the elements of its declaration. -/
structure Flattening (parts : List Contribution) (methods : MethodSet) : Prop where
  distinct : (methods.items.map Method.name).Nodup
  /-- A name is there when an element declares it or embeds an interface that has it. -/
  mem_iff : ∀ name, name ∈ methods.keys ↔
    (∃ method, own method ∈ parts ∧ method.name = name) ∨
      ∃ interface, embedded interface ∈ parts ∧ name ∈ interface.methods.keys
  /-- The last declaration of a name counts, wherever embedded interfaces stand. -/
  own_wins : ∀ {index : Nat} {method : Method}, parts[index]? = some (own method) →
    (∀ (later : Nat) (other : Method), index < later → parts[later]? = some (own other) →
      other.name ≠ method.name) →
    methods.get? method.name = some method
  /-- For a name that is not declared, the first embedded interface counts that has it. -/
  first_wins : ∀ {index : Nat} {interface : Interface} {method : Method},
    parts[index]? = some (embedded interface) → method ∈ interface.methods.items →
    (∀ other, own other ∈ parts → other.name ≠ method.name) →
    (∀ (earlier : Nat) (other : Interface), earlier < index →
      parts[earlier]? = some (embedded other) → method.name ∉ other.methods.keys) →
    methods.get? method.name = some method
  /-- The methods stand in the order of the elements that decide them, and those that one embedded
  interface decides in its order. -/
  order : methods.items = parts.zipIdx.flatMap fun entry =>
    entry.1.methods.filter fun method => decider parts method.name = some entry.2

namespace Contribution

theorem mem_keys_flatten (parts : List Contribution) (name : String) :
    name ∈ (flatten parts).keys ↔
      (∃ method, own method ∈ parts ∧ method.name = name) ∨
        ∃ interface, embedded interface ∈ parts ∧ name ∈ interface.methods.keys := by
  rw [← Roster.contains_eq_true_iff, contains_flatten, decider_isSome, Bool.or_eq_true,
    List.any_eq_true, List.any_eq_true]
  simp only [declares_eq_true_iff, embeds_eq_true_iff]
  refine or_congr ?_ ?_
  · constructor
    · rintro ⟨_, hmem, method, rfl, hname⟩
      exact ⟨method, hmem, hname⟩
    · rintro ⟨method, hmem, hname⟩
      exact ⟨_, hmem, method, rfl, hname⟩
  · constructor
    · rintro ⟨_, hmem, interface, rfl, hname⟩
      exact ⟨interface, hmem, hname⟩
    · rintro ⟨interface, hmem, hname⟩
      exact ⟨_, hmem, interface, rfl, hname⟩

theorem flattening_flatten (parts : List Contribution) : Flattening parts (flatten parts) where
  distinct := (flatten parts).nodup
  mem_iff := mem_keys_flatten parts
  own_wins {index method} h hlast := by
    refine Roster.get?_eq_some ?_
    rw [items_flatten]
    refine mem_closedForm h (by simp [methods]) ?_
    rw [decider, lastDeclaring_eq_some h hlast, Option.some_or]
  first_wins {index interface method} h hmethod hown hfirst := by
    refine Roster.get?_eq_some ?_
    rw [items_flatten]
    refine mem_closedForm h hmethod ?_
    have hname : method.name ∈ interface.methods.keys := List.mem_map.mpr ⟨method, hmethod, rfl⟩
    rw [decider, lastDeclaring_eq_none hown, Option.none_or,
      findIdx?_embeds_eq_some h hname hfirst]
  order := items_flatten parts

end Contribution

end GoTrace
