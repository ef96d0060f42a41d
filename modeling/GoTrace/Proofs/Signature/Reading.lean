import GoTrace.Signature.Descriptor

/-!
# Reading types back

A type expression is read as a descriptor once it is known what its names stand for. What is read
back from a written type is the type without the names of its parameters.
-/

namespace GoTrace

/-- What a name with or without a qualifier stands for: a name of some package, or a name without a
package, or nothing. -/
abbrev Naming := Option String → String → Option (Option PackageRef)

mutual

/-- The descriptor that a type expression stands for when its array lengths are numbers. -/
def TypeExpr.read (names : Naming) : TypeExpr → Option Descriptor
  | .name package name [] => (names package name).map fun package => .named package name
  | .name _ _ (_ :: _) => none
  | .pointer target => do some (.pointer (← target.read names))
  | .slice element => do some (.sequence none (← element.read names))
  | .array (.literal length) element => do some (.sequence (some length) (← element.read names))
  | .array _ _ => none
  | .map key value => do some (.map (← key.read names) (← value.read names))
  | .chan direction element => do some (.channel direction (← element.read names))
  | .func ⟨params, results⟩ => do
      some (.function (← readFields names params) (← readFields names results))
  | .interface [] => some .emptyInterface
  | .interface (_ :: _) => none
  | .struct [] => some .emptyStruct
  | .struct (_ :: _) => none
  | .paren inner => inner.read names
  | .ellipsis element => do some (.variadic (← element.read names))

def readFields (names : Naming) : List Field → Option (List Parameter)
  | [] => some []
  | ⟨[], type, _, _⟩ :: rest => do
      some (⟨none, ← type.read names⟩ :: (← readFields names rest))
  | ⟨_ :: _, _, _, _⟩ :: _ => none

end

@[simp] theorem TypeExpr.read_paren (names : Naming) (inner : TypeExpr) :
    (TypeExpr.paren inner).read names = inner.read names := by
  rw [read]

namespace Descriptor

mutual

/-- The type without the names of parameters, every package as `change` refers to it. -/
def normal (change : PackageRef → PackageRef) : Descriptor → Descriptor
  | .named package name => .named (package.map change) name
  | .pointer target => .pointer (target.normal change)
  | .sequence length element => .sequence length (element.normal change)
  | .map key value => .map (key.normal change) (value.normal change)
  | .channel direction element => .channel direction (element.normal change)
  | .function params results => .function (normalAll change params) (normalAll change results)
  | .variadic element => .variadic (element.normal change)
  | .emptyInterface => .emptyInterface
  | .emptyStruct => .emptyStruct

def normalAll (change : PackageRef → PackageRef) : List Parameter → List Parameter
  | [] => []
  | ⟨_, type⟩ :: rest => ⟨none, type.normal change⟩ :: normalAll change rest

end

@[simp] theorem normal_named (change : PackageRef → PackageRef) (package : Option PackageRef)
    (name : String) : (named package name).normal change = .named (package.map change) name := by
  rw [normal]

def anonymous (type : Descriptor) : Descriptor := type.normal id

mutual

/-- A type that can be written: its names are right by `named`, its lengths have 64 bits, and only
parameters are variadic. -/
def Plain (named : Option PackageRef → String → Prop) (isParam : Bool) : Descriptor → Prop
  | .named package name => named package name
  | .pointer target => target.Plain named false
  | .sequence length element => (∀ n, length = some n → n < UInt64.size) ∧ element.Plain named false
  | .map key value => key.Plain named false ∧ value.Plain named false
  | .channel _ element => element.Plain named false
  | .function params results => PlainAll named true params ∧ PlainAll named false results
  | .variadic element => isParam = true ∧ element.Plain named false
  | .emptyInterface => True
  | .emptyStruct => True

def PlainAll (named : Option PackageRef → String → Prop) (areParams : Bool) :
    List Parameter → Prop
  | [] => True
  | ⟨_, type⟩ :: rest => type.Plain named areParams ∧ PlainAll named areParams rest

end

def undotted : Descriptor → Descriptor
  | .variadic element => element
  | type => type

variable {named named' : Option PackageRef → String → Prop}

theorem undotted_of_plain {type : Descriptor} (h : type.Plain named false) :
    type.undotted = type := by
  cases type with
  | variadic element => exact absurd h.1 (by decide)
  | _ => rfl

theorem Plain.undotted {type : Descriptor} {isParam : Bool} (h : type.Plain named isParam) :
    type.undotted.Plain named false := by
  cases type with
  | variadic element => exact h.2
  | _ => exact h

/-! ## Names and dots -/

mutual

/-- The names in a type with their packages, in the order in which they are written. -/
def names : Descriptor → List (Option PackageRef × String)
  | .named package name => [(package, name)]
  | .pointer target => target.names
  | .sequence _ element => element.names
  | .map key value => key.names ++ value.names
  | .channel _ element => element.names
  | .function params results => namesOfAll params ++ namesOfAll results
  | .variadic element => element.names
  | .emptyInterface => []
  | .emptyStruct => []

/-- The names in the types of parameters or results. -/
def namesOfAll : List Parameter → List (Option PackageRef × String)
  | [] => []
  | ⟨_, type⟩ :: rest => type.names ++ namesOfAll rest

end

mutual

/-- Whether only parameters of function types are variadic, and the type itself if `isParam`. -/
def dotsOnParams (isParam : Bool) : Descriptor → Bool
  | .named _ _ => true
  | .pointer target => target.dotsOnParams false
  | .sequence _ element => element.dotsOnParams false
  | .map key value => key.dotsOnParams false && value.dotsOnParams false
  | .channel _ element => element.dotsOnParams false
  | .function params results => dotsOnParamsOfAll true params && dotsOnParamsOfAll false results
  | .variadic element => isParam && element.dotsOnParams false
  | .emptyInterface => true
  | .emptyStruct => true

/-- Whether only parameters of function types are variadic in the types of parameters or results, and
these types themselves if `areParams`. -/
def dotsOnParamsOfAll (areParams : Bool) : List Parameter → Bool
  | [] => true
  | ⟨_, type⟩ :: rest => type.dotsOnParams areParams && dotsOnParamsOfAll areParams rest

end

mutual

/-- A type whose names are right by `named` and whose lengths have 64 bits. -/
def Legible (named : Option PackageRef → String → Prop) : Descriptor → Prop
  | .named package name => named package name
  | .pointer target => target.Legible named
  | .sequence length element => (∀ n, length = some n → n < UInt64.size) ∧ element.Legible named
  | .map key value => key.Legible named ∧ value.Legible named
  | .channel _ element => element.Legible named
  | .function params results => LegibleAll named params ∧ LegibleAll named results
  | .variadic element => element.Legible named
  | .emptyInterface => True
  | .emptyStruct => True

/-- Parameters or results whose types are legible. -/
def LegibleAll (named : Option PackageRef → String → Prop) : List Parameter → Prop
  | [] => True
  | ⟨_, type⟩ :: rest => type.Legible named ∧ LegibleAll named rest

end

mutual

theorem Legible.imp (himp : ∀ package name, named package name → named' package name) :
    (type : Descriptor) → type.Legible named → type.Legible named'
  | .named package name, h => himp package name h
  | .pointer target, h => Legible.imp himp target h
  | .sequence _ element, h => ⟨h.1, Legible.imp himp element h.2⟩
  | .map key value, h => ⟨Legible.imp himp key h.1, Legible.imp himp value h.2⟩
  | .channel _ element, h => Legible.imp himp element h
  | .function params results, h =>
      ⟨LegibleAll.imp himp params h.1, LegibleAll.imp himp results h.2⟩
  | .variadic element, h => Legible.imp himp element h
  | .emptyInterface, h => h
  | .emptyStruct, h => h

theorem LegibleAll.imp (himp : ∀ package name, named package name → named' package name) :
    (slots : List Parameter) → LegibleAll named slots → LegibleAll named' slots
  | [], h => h
  | ⟨_, type⟩ :: rest, h => ⟨Legible.imp himp type h.1, LegibleAll.imp himp rest h.2⟩

end

mutual

theorem Legible.of_mem_names : (type : Descriptor) → type.Legible named →
    ∀ entry ∈ type.names, named entry.1 entry.2
  | .named package name, h, entry, hmem => by
      obtain rfl := List.mem_singleton.mp hmem
      exact h
  | .pointer target, h, entry, hmem => Legible.of_mem_names target h entry hmem
  | .sequence _ element, h, entry, hmem => Legible.of_mem_names element h.2 entry hmem
  | .map key value, h, entry, hmem => by
      rcases List.mem_append.mp hmem with hmem | hmem
      · exact Legible.of_mem_names key h.1 entry hmem
      · exact Legible.of_mem_names value h.2 entry hmem
  | .channel _ element, h, entry, hmem => Legible.of_mem_names element h entry hmem
  | .function params results, h, entry, hmem => by
      rcases List.mem_append.mp hmem with hmem | hmem
      · exact LegibleAll.of_mem_names params h.1 entry hmem
      · exact LegibleAll.of_mem_names results h.2 entry hmem
  | .variadic element, h, entry, hmem => Legible.of_mem_names element h entry hmem
  | .emptyInterface, _, _, hmem => nomatch hmem
  | .emptyStruct, _, _, hmem => nomatch hmem

theorem LegibleAll.of_mem_names : (slots : List Parameter) → LegibleAll named slots →
    ∀ entry ∈ namesOfAll slots, named entry.1 entry.2
  | [], _, _, hmem => nomatch hmem
  | ⟨_, type⟩ :: rest, h, entry, hmem => by
      rcases List.mem_append.mp hmem with hmem | hmem
      · exact Legible.of_mem_names type h.1 entry hmem
      · exact LegibleAll.of_mem_names rest h.2 entry hmem

end

theorem legibleAll_append {first second : List Parameter} (h : LegibleAll named first)
    (h' : LegibleAll named second) : LegibleAll named (first ++ second) := by
  induction first with
  | nil => exact h'
  | cons slot rest ih => exact ⟨h.1, ih h.2⟩

theorem dotsOnParamsOfAll_append {areParams : Bool} {first second : List Parameter} :
    dotsOnParamsOfAll areParams (first ++ second) =
      (dotsOnParamsOfAll areParams first && dotsOnParamsOfAll areParams second) := by
  induction first with
  | nil => rfl
  | cons slot rest ih =>
      rw [List.cons_append, dotsOnParamsOfAll, dotsOnParamsOfAll, ih, Bool.and_assoc]

mutual

/-- A legible type is plain when only parameters are variadic in it and its names stay right. -/
theorem Legible.plain : (type : Descriptor) → type.Legible named → {isParam : Bool} →
    type.dotsOnParams isParam = true →
    (∀ entry ∈ type.names, named entry.1 entry.2 → named' entry.1 entry.2) →
      type.Plain named' isParam
  | .named package name, h, _, _, hnames => hnames (package, name) List.mem_cons_self h
  | .pointer target, h, _, hdots, hnames => Legible.plain target h hdots hnames
  | .sequence _ element, h, _, hdots, hnames => ⟨h.1, Legible.plain element h.2 hdots hnames⟩
  | .map key value, h, _, hdots, hnames => by
      have hboth := Bool.and_eq_true_iff.mp hdots
      refine ⟨Legible.plain key h.1 hboth.1 ?_, Legible.plain value h.2 hboth.2 ?_⟩
      · intro entry hmem
        exact hnames entry (List.mem_append_left _ hmem)
      · intro entry hmem
        exact hnames entry (List.mem_append_right _ hmem)
  | .channel _ element, h, _, hdots, hnames => Legible.plain element h hdots hnames
  | .function params results, h, _, hdots, hnames => by
      have hboth := Bool.and_eq_true_iff.mp hdots
      refine ⟨LegibleAll.plainAll params h.1 hboth.1 ?_, LegibleAll.plainAll results h.2 hboth.2 ?_⟩
      · intro entry hmem
        exact hnames entry (List.mem_append_left _ hmem)
      · intro entry hmem
        exact hnames entry (List.mem_append_right _ hmem)
  | .variadic element, h, _, hdots, hnames => by
      have hboth := Bool.and_eq_true_iff.mp hdots
      exact ⟨hboth.1, Legible.plain element h hboth.2 hnames⟩
  | .emptyInterface, h, _, _, _ => h
  | .emptyStruct, h, _, _, _ => h

theorem LegibleAll.plainAll : (slots : List Parameter) → LegibleAll named slots →
    {areParams : Bool} → dotsOnParamsOfAll areParams slots = true →
    (∀ entry ∈ namesOfAll slots, named entry.1 entry.2 → named' entry.1 entry.2) →
      PlainAll named' areParams slots
  | [], _, _, _, _ => trivial
  | ⟨_, type⟩ :: rest, h, _, hdots, hnames => by
      have hboth := Bool.and_eq_true_iff.mp hdots
      refine ⟨Legible.plain type h.1 hboth.1 ?_, LegibleAll.plainAll rest h.2 hboth.2 ?_⟩
      · intro entry hmem
        exact hnames entry (List.mem_append_left _ hmem)
      · intro entry hmem
        exact hnames entry (List.mem_append_right _ hmem)

end

mutual

theorem references_eq : (type : Descriptor) → type.references = type.names.filterMap (·.1)
  | .named package name => by cases package <;> rfl
  | .pointer target => references_eq target
  | .sequence _ element => references_eq element
  | .map key value => by
      rw [references, names, List.filterMap_append, references_eq key, references_eq value]
  | .channel _ element => references_eq element
  | .function params results => by
      rw [references, names, List.filterMap_append, referencesOfAll_eq params,
        referencesOfAll_eq results]
  | .variadic element => references_eq element
  | .emptyInterface => rfl
  | .emptyStruct => rfl

theorem referencesOfAll_eq : (slots : List Parameter) →
    referencesOfAll slots = (namesOfAll slots).filterMap (·.1)
  | [] => rfl
  | ⟨_, type⟩ :: rest => by
      rw [referencesOfAll, namesOfAll, List.filterMap_append, references_eq type,
        referencesOfAll_eq rest]

end

end Descriptor

end GoTrace
