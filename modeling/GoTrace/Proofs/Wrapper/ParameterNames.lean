import Mathlib.Data.List.ReduceOption
import GoTrace.Proofs.Wrapper.Names

/-!
# Names of parameters

The parameters of a generated method keep the names that they are declared with, as long as these hide
nothing that the method refers to. Every other parameter is called `a` and its place, with underscores
behind that for as long as the name is taken, by a name that is kept or by one that was chosen before.
-/

namespace GoTrace

/-! ## Underscores -/

def underscoredBy (base : String) (count : Nat) : String :=
  base ++ String.ofList (List.replicate count '_')

/-- The name is `base` with as few underscores behind it as make it differ from all that is taken. -/
def FewestUnderscores (taken : String → Prop) (base name : String) : Prop :=
  ∃ count, name = underscoredBy base count ∧ ¬ taken name ∧
    ∀ fewer < count, taken (underscoredBy base fewer)

theorem FewestUnderscores.congr {taken taken' : String → Prop} {base name : String}
    (h : FewestUnderscores taken base name)
    (hsame : ∀ count, taken (underscoredBy base count) ↔ taken' (underscoredBy base count)) :
    FewestUnderscores taken' base name := by
  obtain ⟨count, rfl, hfree, hbefore⟩ := h
  exact ⟨count, rfl, mt (hsame count).mpr hfree, fun fewer hlt => (hsame _).mp (hbefore fewer hlt)⟩

theorem FewestUnderscores.unique {taken : String → Prop} {base name other : String}
    (h : FewestUnderscores taken base name) (h' : FewestUnderscores taken base other) :
    name = other := by
  obtain ⟨count, rfl, hfree, hbefore⟩ := h
  obtain ⟨count', rfl, hfree', hbefore'⟩ := h'
  rcases Nat.lt_trichotomy count count' with hlt | rfl | hlt
  · exact absurd (hbefore' count hlt) hfree
  · rfl
  · exact absurd (hbefore count' hlt) hfree'

theorem underscoredBy_injective {base : String} {m n : Nat}
    (h : underscoredBy base m = underscoredBy base n) : m = n := by
  have hsuffix := String.ofList_injective ((String.append_right_inj base).mp h)
  simpa using congrArg List.length hsuffix

theorem fewestUnderscores_underscored (taken : List String) (base : String) :
    FewestUnderscores (· ∈ taken) base (underscored taken base) := by
  obtain ⟨count, heq, hbefore⟩ := exists_eq_firstFree taken (underscoredBy base) 0
  refine ⟨count, heq, ?_, fun fewer hlt => hbefore fewer (Nat.zero_le _) hlt⟩
  exact firstFree_not_mem (fun _ _ => underscoredBy_injective) 0

/-! ## One name after the other -/

section

variable {index : Nat} {used : List String} {names : List (Option String)}

theorem getElem?_fillNames_some {place : Nat} {name : String}
    (h : names[place]? = some (some name)) :
    (fillNames index used names)[place]? = some name := by
  induction names generalizing index used place with
  | nil => cases h
  | cons first rest ih =>
      cases place with
      | zero =>
          cases h
          rfl
      | succ place =>
          cases first with
          | some kept => exact ih h
          | none => exact ih h

theorem some_mem_or_notMem_of_mem_fillNames {name : String}
    (h : name ∈ fillNames index used names) : some name ∈ names ∨ name ∉ used := by
  induction names generalizing index used with
  | nil => cases h
  | cons first rest ih =>
      cases first with
      | some kept =>
          rcases List.mem_cons.mp h with rfl | h
          · exact .inl List.mem_cons_self
          · exact (ih h).imp_left (List.mem_cons_of_mem _)
      | none =>
          rcases List.mem_cons.mp h with rfl | h
          · obtain ⟨-, -, hfree, -⟩ := fewestUnderscores_underscored used ("a" ++ toString index)
            exact .inr hfree
          · exact (ih h).imp (List.mem_cons_of_mem _) fun hnew hmem =>
              hnew (List.mem_cons_of_mem _ hmem)

theorem nodup_fillNames (hnodup : (names.filterMap id).Nodup)
    (hused : ∀ name, some name ∈ names → name ∈ used) : (fillNames index used names).Nodup := by
  induction names generalizing index used with
  | nil => exact List.nodup_nil
  | cons first rest ih =>
      have hrest : ∀ name, some name ∈ rest → name ∈ used :=
        fun name hmem => hused name (List.mem_cons_of_mem _ hmem)
      cases first with
      | some kept =>
          obtain ⟨hfirst, hnodup⟩ : kept ∉ rest.filterMap id ∧ (rest.filterMap id).Nodup :=
            List.nodup_cons.mp hnodup
          refine List.nodup_cons.mpr ⟨fun hmem => ?_, ih hnodup hrest⟩
          rcases some_mem_or_notMem_of_mem_fillNames hmem with hkept | hnew
          · exact hfirst (List.reduceOption_mem_iff.mpr hkept)
          · exact hnew (hused kept List.mem_cons_self)
      | none =>
          obtain ⟨-, -, hfree, -⟩ := fewestUnderscores_underscored used ("a" ++ toString index)
          refine List.nodup_cons.mpr ⟨fun hmem => ?_, ih hnodup fun name hmem =>
            List.mem_cons_of_mem _ (hrest name hmem)⟩
          rcases some_mem_or_notMem_of_mem_fillNames hmem with hkept | hnew
          · exact hfree (hrest _ hkept)
          · exact hnew List.mem_cons_self

/-- A name that is chosen has as few underscores as make it differ from what was used at first and from
the names before it. -/
theorem exists_getElem?_fillNames_none (index : Nat)
    (hused : ∀ name, some name ∈ names → name ∈ used) {place : Nat} (h : names[place]? = some none) :
    ∃ name, (fillNames index used names)[place]? = some name ∧
      FewestUnderscores (fun other => other ∈ used ∨ other ∈ (fillNames index used names).take place)
        ("a" ++ toString (index + place)) name := by
  induction names generalizing index used place with
  | nil => cases h
  | cons first rest ih =>
      have hrest : ∀ name, some name ∈ rest → name ∈ used :=
        fun name hmem => hused name (List.mem_cons_of_mem _ hmem)
      cases place with
      | zero =>
          cases h
          refine ⟨_, rfl, (fewestUnderscores_underscored used _).congr fun count => ?_⟩
          simp
      | succ place =>
          rw [show index + (place + 1) = index + 1 + place by omega]
          cases first with
          | some kept =>
              obtain ⟨name, hname, hfewest⟩ := ih (index + 1) hrest h
              refine ⟨name, hname, hfewest.congr fun count => ?_⟩
              have hkept : kept ∈ used := hused kept List.mem_cons_self
              rw [fillNames, List.take_succ_cons, List.mem_cons]
              refine ⟨fun hmem => hmem.imp_right .inr, ?_⟩
              rintro (hmem | rfl | hmem)
              · exact .inl hmem
              · exact .inl hkept
              · exact .inr hmem
          | none =>
              have hmore : ∀ name, some name ∈ rest →
                  name ∈ underscored used ("a" ++ toString index) :: used :=
                fun name hmem => List.mem_cons_of_mem _ (hrest name hmem)
              obtain ⟨name, hname, hfewest⟩ := ih (index + 1) hmore h
              refine ⟨name, hname, hfewest.congr fun count => ?_⟩
              rw [fillNames, List.take_succ_cons, List.mem_cons, List.mem_cons]
              tauto

end

/-! ## The parameters of a method -/

namespace FileImports

/-- The name hides nothing that a generated method refers to. -/
def Keepable (imports : FileImports) (name : String) : Prop :=
  name ∉ ["_", "t", "span", "next", "tracer"] ∧ ∀ entry ∈ imports.aliases, entry.2 ≠ name

theorem keepsName_iff {imports : FileImports} {name : String} :
    imports.keepsName name = true ↔ imports.Keepable name := by
  simp [keepsName, Keepable, containsAlias, reservedNames, and_assoc]

end FileImports

namespace Method

variable (method : Method) (imports : FileImports)

/-- The parameter at `place` is declared with a name that it can keep. -/
def KeepsAt (place : Nat) (name : String) : Prop :=
  ∃ param, method.params[place]? = some param ∧ param.name = some name ∧ imports.Keepable name

/-- The parameter at `place` has no name that it can keep. -/
def RenamesAt (place : Nat) : Prop :=
  place < method.params.length ∧ ∀ name, ¬ method.KeepsAt imports place name

/-- For every parameter its declared name, if it can keep it. -/
def keptNames : List (Option String) :=
  method.params.map fun param => param.name.filter imports.keepsName

end Method

/-- What the names of the parameters of a generated method have to be. -/
structure UsableNames (method : Method) (imports : FileImports) (names : List String) : Prop where
  length : names.length = method.params.length
  nodup : names.Nodup
  free : ∀ name ∈ names, name ∉ ["_", "t", "span", "next", "tracer"]
  kept : ∀ place name, method.KeepsAt imports place name → names[place]? = some name
  chosen : ∀ place, method.RenamesAt imports place → ∃ name, names[place]? = some name ∧
    FewestUnderscores
      (fun other => (∃ holder, method.KeepsAt imports holder other) ∨ other ∈ names.take place)
      ("a" ++ toString place) name

section

variable {method : Method} {imports : FileImports} {place : Nat} {name : String}

theorem parameterNames_eq (method : Method) (imports : FileImports) :
    parameterNames method imports =
      fillNames 0 ((method.keptNames imports).filterMap id) (method.keptNames imports) :=
  rfl

theorem getElem?_keptNames :
    (method.keptNames imports)[place]? = some (some name) ↔ method.KeepsAt imports place name := by
  simp [Method.keptNames, Method.KeepsAt, Option.filter_eq_some_iff, FileImports.keepsName_iff]

theorem getElem?_keptNames_of_renamesAt (h : method.RenamesAt imports place) :
    (method.keptNames imports)[place]? = some none := by
  obtain ⟨hlt, hrenames⟩ := h
  have hlt : place < (method.keptNames imports).length := by
    rwa [Method.keptNames, List.length_map]
  cases hname : (method.keptNames imports)[place] with
  | none => rw [List.getElem?_eq_getElem hlt, hname]
  | some name =>
      refine absurd (getElem?_keptNames.mp ?_) (hrenames name)
      rw [List.getElem?_eq_getElem hlt, hname]

theorem mem_filterMap_keptNames :
    name ∈ (method.keptNames imports).filterMap id ↔
      ∃ holder, method.KeepsAt imports holder name := by
  rw [← List.reduceOption, List.reduceOption_mem_iff, List.mem_iff_getElem?]
  exact exists_congr fun _ => getElem?_keptNames

theorem nodup_filterMap_keptNames
    (h : ((method.params.filterMap (·.name)).filter (· ≠ "_")).Nodup) :
    ((method.keptNames imports).filterMap id).Nodup := by
  have hkept : (method.keptNames imports).filterMap id =
      (method.params.filterMap (·.name)).filter imports.keepsName := by
    rw [Method.keptNames, List.filterMap_map, List.filter_filterMap]
    rfl
  rw [hkept]
  refine h.sublist (List.monotone_filter_right _ fun name hkeeps => ?_)
  have hfree := (FileImports.keepsName_iff.mp hkeeps).1
  exact decide_eq_true fun hblank => hfree (hblank ▸ List.mem_cons_self)

theorem keepsAt_or_renamesAt (h : place < method.params.length) :
    (∃ name, method.KeepsAt imports place name) ∨ method.RenamesAt imports place := by
  by_cases hkeeps : ∃ name, method.KeepsAt imports place name
  · exact .inl hkeeps
  · exact .inr ⟨h, not_exists.mp hkeeps⟩

theorem Method.KeepsAt.getElem?_parameterNames (h : method.KeepsAt imports place name) :
    (parameterNames method imports)[place]? = some name := by
  rw [parameterNames_eq]
  exact getElem?_fillNames_some (getElem?_keptNames.mpr h)

theorem Method.RenamesAt.exists_getElem?_parameterNames (h : method.RenamesAt imports place) :
    ∃ name, (parameterNames method imports)[place]? = some name ∧
      FewestUnderscores (fun other => (∃ holder, method.KeepsAt imports holder other) ∨
        other ∈ (parameterNames method imports).take place) ("a" ++ toString place) name := by
  obtain ⟨name, hname, hfewest⟩ := exists_getElem?_fillNames_none 0
    (fun _ => List.reduceOption_mem_iff.mpr) (getElem?_keptNames_of_renamesAt h)
  rw [Nat.zero_add] at hfewest
  exact ⟨name, hname, hfewest.congr fun _ => or_congr_left mem_filterMap_keptNames⟩

theorem keepsAt_or_renamesAt_of_getElem? (h : (parameterNames method imports)[place]? = some name) :
    method.KeepsAt imports place name ∨ method.RenamesAt imports place := by
  have hlt : place < method.params.length := by
    rw [← length_parameterNames method imports]
    exact (List.getElem?_eq_some_iff.mp h).1
  refine (keepsAt_or_renamesAt hlt).imp_left fun ⟨kept, hkept⟩ => ?_
  obtain rfl := Option.some.inj (h.symm.trans hkept.getElem?_parameterNames)
  exact hkept

theorem nodup_parameterNames
    (h : ((method.params.filterMap (·.name)).filter (· ≠ "_")).Nodup) :
    (parameterNames method imports).Nodup := by
  rw [parameterNames_eq]
  exact nodup_fillNames (nodup_filterMap_keptNames h) fun _ => List.reduceOption_mem_iff.mpr

theorem toList_underscoredBy (place count : Nat) :
    (underscoredBy ("a" ++ toString place) count).toList =
      'a' :: (Nat.toDigits 10 place ++ List.replicate count '_') := by
  simp [underscoredBy]

/-- A name that is chosen begins with an `a`, which no name does that it must not be. -/
theorem underscoredBy_notMem (place count : Nat) :
    underscoredBy ("a" ++ toString place) count ∉ ["_", "t", "span", "next", "tracer"] := by
  intro hmem
  have hhead : (underscoredBy ("a" ++ toString place) count).toList.head? = some 'a' := by
    rw [toList_underscoredBy, List.head?_cons]
  have hnone : ∀ name ∈ ["_", "t", "span", "next", "tracer"], name.toList.head? ≠ some 'a' := by
    decide
  exact hnone _ hmem hhead

theorem notMem_of_mem_parameterNames (h : name ∈ parameterNames method imports) :
    name ∉ ["_", "t", "span", "next", "tracer"] := by
  obtain ⟨place, hname⟩ := List.mem_iff_getElem?.mp h
  rcases keepsAt_or_renamesAt_of_getElem? hname with hkept | hrenamed
  · obtain ⟨-, -, -, hfree, -⟩ := hkept
    exact hfree
  · obtain ⟨chosen, hchosen, count, heq, -⟩ := hrenamed.exists_getElem?_parameterNames
    obtain rfl := Option.some.inj (hname.symm.trans hchosen)
    rw [heq]
    exact underscoredBy_notMem place count

/-- The parameters of a generated method have usable names when no two are declared with one name. -/
theorem parameterNames_usable
    (h : ((method.params.filterMap (·.name)).filter (· ≠ "_")).Nodup) :
    UsableNames method imports (parameterNames method imports) where
  length := length_parameterNames method imports
  nodup := nodup_parameterNames h
  free := fun _ => notMem_of_mem_parameterNames
  kept := fun _ _ => Method.KeepsAt.getElem?_parameterNames
  chosen := fun _ => Method.RenamesAt.exists_getElem?_parameterNames

end

/-- A method of which some parameters are called as others would be. -/
def Method.crowded : Method where
  name := "M"
  params := [none, some "a0", some "_", some "context", some "a2", some "a2_", some "tracer"].map
    fun name => ⟨name, .named none "int"⟩
  results := []

/-- Names that are kept make the chosen ones longer, before and behind them. -/
theorem parameterNames_usable_crowded :
    ((Method.crowded.params.filterMap (·.name)).filter (· ≠ "_")).Nodup ∧
      UsableNames Method.crowded ⟨"e/out", [("context", "context")]⟩
        ["a0_", "a0", "a2__", "a3", "a2", "a2_", "a6"] := by
  have hnodup : ((Method.crowded.params.filterMap (·.name)).filter (· ≠ "_")).Nodup := by decide
  have hnames : parameterNames Method.crowded ⟨"e/out", [("context", "context")]⟩ =
      ["a0_", "a0", "a2__", "a3", "a2", "a2_", "a6"] := by
    decide +kernel
  exact ⟨hnodup, hnames ▸ parameterNames_usable hnodup⟩

end GoTrace
