import GoTrace.Proofs.Source.Marks
import GoTrace.Syntax.File

/-!
# Outlines

The outline of a piece of syntax shows where everything in it stands: a node for each identifier, field,
interface element, import, declaration and file, with the nodes inside it in the order of the source. An
outline is well placed in a text when each node is where its span says, inside of the node around it and
behind the node before it.
-/

namespace GoTrace

/-- A node of syntax: where it stands, its name if it is an identifier, and the nodes inside it. -/
inductive Outline where
  | node (span : Span) (name : Option String) (inside : List Outline)

namespace Outline

def span : Outline → Span
  | node span _ _ => span

mutual

/-- The span of the node cuts it out of the text, an identifier is the part that is cut out, and what is
inside the node is in order within its span. -/
def WellPlaced (text : String) : Outline → Prop
  | node span name inside =>
      (∃ part, span.CutsOut text part ∧ ∀ ident, name = some ident → part = ident) ∧
        InOrder text span.start inside span.stop

/-- The nodes are well placed, the first no earlier than `low`, each of them behind the one before it, and
the last ends no later than `high`. -/
def InOrder (text : String) (low : Nat) : List Outline → Nat → Prop
  | [], high => low ≤ high
  | first :: rest, high =>
      low ≤ first.span.start ∧ first.WellPlaced text ∧ InOrder text first.span.stop rest high

end

variable {text : String} {low middle high : Nat}

theorem WellPlaced.start_lt_stop {outline : Outline} (h : outline.WellPlaced text) :
    outline.span.start < outline.span.stop := by
  obtain ⟨span, name, inside⟩ := outline
  obtain ⟨⟨part, hcuts, -⟩, -⟩ := h
  exact hcuts.start_lt_stop

theorem InOrder.low_le_high {outlines : List Outline} (h : InOrder text low outlines high) :
    low ≤ high := by
  induction outlines generalizing low with
  | nil => exact h
  | cons first rest ih =>
      obtain ⟨hlow, hfirst, hrest⟩ := h
      exact Nat.le_trans hlow (Nat.le_trans (Nat.le_of_lt hfirst.start_lt_stop) (ih hrest))

theorem InOrder.append {first second : List Outline} (h : InOrder text low first middle)
    (h' : InOrder text middle second high) : InOrder text low (first ++ second) high := by
  induction first generalizing low with
  | nil =>
      cases second with
      | nil => exact Nat.le_trans h h'
      | cons next rest => exact ⟨Nat.le_trans h h'.1, h'.2⟩
  | cons next rest ih => exact ⟨h.1, h.2.1, ih h.2.2⟩

theorem InOrder.mono {outlines : List Outline} (h : InOrder text low outlines middle)
    (hle : middle ≤ high) : InOrder text low outlines high := by
  have hnone : InOrder text middle [] high := hle
  rw [← List.append_nil outlines]
  exact h.append hnone

theorem InOrder.within {outlines : List Outline} (h : InOrder text low outlines high) :
    ∀ outline ∈ outlines, low ≤ outline.span.start ∧ outline.span.stop ≤ high := by
  induction outlines generalizing low with
  | nil => nofun
  | cons first rest ih =>
      obtain ⟨hlow, hfirst, hrest⟩ := h
      refine List.forall_mem_cons.mpr ⟨⟨hlow, hrest.low_le_high⟩, fun outline hmem => ?_⟩
      obtain ⟨hstart, hstop⟩ := ih hrest outline hmem
      exact ⟨Nat.le_trans hlow (Nat.le_trans (Nat.le_of_lt hfirst.start_lt_stop) hstart), hstop⟩

theorem InOrder.pairwise {outlines : List Outline} (h : InOrder text low outlines high) :
    outlines.Pairwise fun first second => first.span.stop ≤ second.span.start := by
  induction outlines generalizing low with
  | nil => exact .nil
  | cons first rest ih =>
      obtain ⟨-, -, hrest⟩ := h
      exact .cons (fun outline hmem => (hrest.within outline hmem).1) (ih hrest)

end Outline

/-! ## The outlines of syntax -/

/-- Values with an outline: the nodes in them from left to right. -/
class Outlined (α : Type) where
  outline : α → List Outline

export Outlined (outline)

variable {α β τ : Type} [Outlined α] [Outlined β] [Outlined τ]

instance : Outlined Unit := ⟨fun _ => []⟩
instance : Outlined Bool := ⟨fun _ => []⟩
instance : Outlined String := ⟨fun _ => []⟩
instance : Outlined ArrayLength := ⟨fun _ => []⟩
instance : Outlined ImportName := ⟨fun _ => []⟩
instance : Outlined (Option α) := ⟨fun value? => value?.elim [] outline⟩
instance : Outlined (List α) := ⟨List.flatMap outline⟩
instance : Outlined (α × β) := ⟨fun pair => outline pair.1 ++ outline pair.2⟩
instance : Outlined (α ⊕ β) := ⟨Sum.elim outline outline⟩

@[simp] theorem outline_unit (value : Unit) : outline value = [] := rfl
@[simp] theorem outline_bool (value : Bool) : outline value = [] := rfl
@[simp] theorem outline_string (text : String) : outline text = [] := rfl
@[simp] theorem outline_arrayLength (length : ArrayLength) : outline length = [] := rfl
@[simp] theorem outline_importName (name : ImportName) : outline name = [] := rfl
@[simp] theorem outline_importName? (name? : Option ImportName) : outline name? = [] := by
  cases name? <;> rfl

@[simp] theorem outline_none : outline (none : Option α) = [] := rfl
@[simp] theorem outline_some (value : α) : outline (some value) = outline value := rfl
@[simp] theorem outline_nil : outline ([] : List α) = [] := rfl
@[simp] theorem outline_cons (value : α) (values : List α) :
    outline (value :: values) = outline value ++ outline values := rfl
@[simp] theorem outline_append (first second : List α) :
    outline (first ++ second) = outline first ++ outline second := List.flatMap_append
@[simp] theorem outline_pair (first : α) (second : β) :
    outline (first, second) = outline first ++ outline second := rfl
@[simp] theorem outline_inl (value : α) : outline (.inl value : α ⊕ β) = outline value := rfl
@[simp] theorem outline_inr (value : β) : outline (.inr value : α ⊕ β) = outline value := rfl

@[simp] theorem outline_getD (values : Option (List α)) : outline (values.getD []) = outline values := by
  cases values <;> rfl

@[simp] theorem outline_flatten (groups : List (List α)) : outline groups.flatten = outline groups := by
  induction groups with
  | nil => rfl
  | cons group rest ih => rw [List.flatten_cons, outline_append, outline_cons, ih]

@[simp] theorem outline_strings (texts : List String) : outline texts = [] :=
  List.flatMap_eq_nil_iff.mpr fun _ _ => rfl

theorem outline_map (wrap : α → β) (h : ∀ value, outline (wrap value) = outline value) (values : List α) :
    outline (values.map wrap) = outline values := by
  induction values with
  | nil => rfl
  | cons value rest ih => rw [List.map_cons, outline_cons, outline_cons, h, ih]

instance : Outlined Ident := ⟨fun ident => [.node ident.span (some ident.name) []]⟩

instance : Outlined (FieldOf τ) :=
  ⟨fun field => [.node field.span none (outline field.names ++ outline field.type)]⟩

instance : Outlined (SignatureOf τ) :=
  ⟨fun signature => outline signature.params ++ outline signature.results⟩

instance : Outlined (TermOf τ) := ⟨fun term => outline term.type⟩

instance : Outlined (ElementOf τ) where
  outline
    | .method name signature span => [.node span none (outline name ++ outline signature)]
    | .embed terms span => [.node span none (outline terms)]

mutual

/-- The nodes in a type: its fields and interface elements, and those of the types in it. -/
def TypeExpr.outline : TypeExpr → List Outline
  | .name _ _ args => outlineTypes args
  | .pointer target => target.outline
  | .slice element => element.outline
  | .array _ element => element.outline
  | .map key value => key.outline ++ value.outline
  | .chan _ element => element.outline
  | .func ⟨params, results⟩ => outlineFields params ++ outlineFields results
  | .interface elements => outlineElements elements
  | .struct fields => outlineFields fields
  | .paren inner => inner.outline
  | .ellipsis element => element.outline

def outlineTypes : List TypeExpr → List Outline
  | [] => []
  | type :: rest => type.outline ++ outlineTypes rest

def outlineFields : List Field → List Outline
  | [] => []
  | ⟨names, type, _, span⟩ :: rest =>
      .node span none (Outlined.outline names ++ type.outline) :: outlineFields rest

def outlineTerms : List TypeTerm → List Outline
  | [] => []
  | ⟨_, type⟩ :: rest => type.outline ++ outlineTerms rest

def outlineElements : List Element → List Outline
  | [] => []
  | .method name ⟨params, results⟩ span :: rest =>
      .node span none (Outlined.outline name ++ (outlineFields params ++ outlineFields results)) ::
        outlineElements rest
  | .embed terms span :: rest => .node span none (outlineTerms terms) :: outlineElements rest

end

instance : Outlined TypeExpr := ⟨TypeExpr.outline⟩

@[simp] theorem outlineTypes_eq (types : List TypeExpr) : outlineTypes types = outline types := by
  induction types with
  | nil => rfl
  | cons type rest ih =>
      rw [outlineTypes, ih]
      rfl

@[simp] theorem outlineFields_eq (fields : List Field) : outlineFields fields = outline fields := by
  induction fields with
  | nil => rfl
  | cons field rest ih =>
      rw [outlineFields, ih]
      rfl

@[simp] theorem outlineTerms_eq (terms : List TypeTerm) : outlineTerms terms = outline terms := by
  induction terms with
  | nil => rfl
  | cons term rest ih =>
      rw [outlineTerms, ih]
      rfl

@[simp] theorem outlineElements_eq (elements : List Element) :
    outlineElements elements = outline elements := by
  induction elements with
  | nil => rfl
  | cons element rest ih =>
      cases element with
      | method name signature span =>
          rw [outlineElements, ih, outlineFields_eq, outlineFields_eq]
          rfl
      | embed terms span =>
          rw [outlineElements, ih, outlineTerms_eq]
          rfl

theorem outline_typeName (package : Option String) (name : String) (args : List TypeExpr) :
    outline (TypeExpr.name package name args) = outline args :=
  outlineTypes_eq args

theorem outline_func (signature : Signature) :
    outline (TypeExpr.func signature) = outline signature := by
  obtain ⟨params, results⟩ := signature
  change outlineFields params ++ outlineFields results = _
  rw [outlineFields_eq, outlineFields_eq]
  rfl

theorem outline_interface (elements : List Element) :
    outline (TypeExpr.interface elements) = outline elements :=
  outlineElements_eq elements

theorem outline_struct (fields : List Field) : outline (TypeExpr.struct fields) = outline fields :=
  outlineFields_eq fields

instance : Outlined ImportSpec := ⟨fun spec => [.node spec.span none []]⟩

instance : Outlined TypeParam := ⟨fun param => outline param.names ++ outline param.constraint⟩

instance : Outlined TypeSpec :=
  ⟨fun spec => [.node spec.span none
    (outline spec.name ++ (outline spec.typeParams ++ outline spec.type))]⟩

instance : Outlined ConstSpec :=
  ⟨fun spec => [.node spec.span none (outline spec.names ++ outline spec.type)]⟩

instance : Outlined VarSpec := ⟨fun spec => [.node spec.span none []]⟩

instance : Outlined FuncDecl :=
  ⟨fun decl => [.node decl.span none (outline decl.receiver ++
    (outline decl.name ++ (outline decl.typeParams ++ outline decl.signature)))]⟩

instance : Outlined Declaration where
  outline
    | .type spec => outline spec
    | .const spec => outline spec
    | .var spec => outline spec
    | .func decl => outline decl

/-- The outline of a source file: its package name, imports and declarations in one node. -/
def SourceFile.outline (file : SourceFile) : Outline :=
  .node file.span none
    (Outlined.outline file.package ++ (Outlined.outline file.imports ++ Outlined.outline file.declarations))

end GoTrace
