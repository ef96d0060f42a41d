/-!
# Rosters

Items in the order in which they were added, no two of them with the same key. The invariant is part
of the type; every operation below is described by what it does to the list of items.
-/

namespace GoTrace

/-- Items with distinct keys, in the order in which they were added. -/
structure Roster {α : Type} (key : α → String) where
  items : List α
  nodup : (items.map key).Nodup

namespace Roster

variable {α : Type} {key : α → String}

@[ext]
theorem ext {first second : Roster key} (h : first.items = second.items) : first = second := by
  cases first
  cases second
  cases h
  rfl

instance [DecidableEq α] : DecidableEq (Roster key) := fun first second =>
  decidable_of_iff (first.items = second.items) ⟨Roster.ext, fun h => h ▸ rfl⟩

def empty : Roster key := ⟨[], by simp⟩

instance : Inhabited (Roster key) := ⟨empty⟩

def keys (roster : Roster key) : List String := roster.items.map key

def size (roster : Roster key) : Nat := roster.items.length

def isEmpty (roster : Roster key) : Bool := roster.items.isEmpty

def get? (roster : Roster key) (name : String) : Option α :=
  roster.items.find? fun item => key item = name

def contains (roster : Roster key) (name : String) : Bool :=
  roster.items.any fun item => key item = name

theorem contains_eq_true_iff {roster : Roster key} {name : String} :
    roster.contains name = true ↔ name ∈ roster.keys := by
  simp [contains, keys]

def erase (roster : Roster key) (name : String) : Roster key :=
  ⟨roster.items.filter fun item => key item ≠ name,
    (List.filter_sublist.map key).nodup roster.nodup⟩

theorem not_mem_keys_erase (roster : Roster key) (name : String) :
    name ∉ (roster.erase name).keys := by
  simp only [keys, erase, List.mem_map, List.mem_filter, decide_eq_true_eq, not_exists, not_and,
    and_imp]
  exact fun _ _ hne heq => hne heq

def push (roster : Roster key) (item : α) (new : key item ∉ roster.keys) : Roster key :=
  ⟨roster.items ++ [item], by
    rw [List.map_append, List.nodup_append]
    refine ⟨roster.nodup, by simp, ?_⟩
    intro a ha b hb hab
    simp only [List.map_cons, List.map_nil, List.mem_singleton] at hb
    exact new (hb ▸ hab ▸ ha)⟩

/-- With `item` at the end, in place of any item with its key. -/
def replace (roster : Roster key) (item : α) : Roster key :=
  (roster.erase (key item)).push item (roster.not_mem_keys_erase (key item))

def addIfAbsent (roster : Roster key) (item : α) : Roster key :=
  if h : roster.contains (key item) = true then roster
  else roster.push item fun mem => h (contains_eq_true_iff.mpr mem)

def mapItems (roster : Roster key) (f : α → α) (keeps : ∀ item, key (f item) = key item) :
    Roster key :=
  ⟨roster.items.map f, by
    have h : (roster.items.map f).map key = roster.items.map key := by
      simp [List.map_map, Function.comp_def, keeps]
    exact h ▸ roster.nodup⟩

end Roster

end GoTrace
