import GoTrace.Syntax.File

/-!
# Syntax without positions

Two readings of one text at different places of a file differ in their spans only. Every kind of
syntax therefore has a bare form, in which all spans are the same.
-/

namespace GoTrace

/-- Values that may hold spans, with the form in which all spans are the same. -/
class Placed (α : Type) where
  bare : α → α

export Placed (bare)

variable {α β τ : Type} [Placed α] [Placed β] [Placed τ]

/-! ## Values without spans, and values made of others -/

instance : Placed Unit := ⟨id⟩
instance : Placed Bool := ⟨id⟩
instance : Placed Char := ⟨id⟩
instance : Placed String := ⟨id⟩
instance : Placed ArrayLength := ⟨id⟩
instance : Placed ImportName := ⟨id⟩
instance : Placed Span := ⟨fun _ => default⟩
instance : Placed (Option α) := ⟨Option.map bare⟩
instance : Placed (List α) := ⟨List.map bare⟩
instance : Placed (α × β) := ⟨Prod.map bare bare⟩
instance : Placed (α ⊕ β) := ⟨Sum.map bare bare⟩

@[simp] theorem bare_bool (value : Bool) : bare value = value := rfl
@[simp] theorem bare_char (c : Char) : bare c = c := rfl
@[simp] theorem bare_string (text : String) : bare text = text := rfl
@[simp] theorem bare_arrayLength (length : ArrayLength) : bare length = length := rfl
@[simp] theorem bare_importName (name : ImportName) : bare name = name := rfl
@[simp] theorem bare_span (span : Span) : bare span = default := rfl
@[simp] theorem bare_none : bare (none : Option α) = none := rfl
@[simp] theorem bare_some (value : α) : bare (some value) = some (bare value) := rfl
@[simp] theorem bare_nil : bare ([] : List α) = [] := rfl
@[simp] theorem bare_cons (value : α) (values : List α) :
    bare (value :: values) = bare value :: bare values := rfl
@[simp] theorem bare_pair (first : α) (second : β) :
    bare (first, second) = (bare first, bare second) := rfl
@[simp] theorem bare_inl (value : α) : bare (.inl value : α ⊕ β) = .inl (bare value) := rfl
@[simp] theorem bare_inr (value : β) : bare (.inr value : α ⊕ β) = .inr (bare value) := rfl

theorem bare_list (values : List α) : bare values = values.map bare := rfl

@[simp] theorem bare_chars (text : List Char) : bare text = text := List.map_id text

@[simp] theorem bare_optionString (text : Option String) : bare text = text := by
  cases text <;> rfl

@[simp] theorem bare_optionName (name : Option ImportName) : bare name = name := by
  cases name <;> rfl

theorem bare_pair_congr {first first' : α} {second second' : β} (h : bare first = bare first')
    (h' : bare second = bare second') : bare (first, second) = bare (first', second') := by
  rw [bare_pair, bare_pair, h, h']

theorem bare_cons_congr {value value' : α} {values values' : List α} (h : bare value = bare value')
    (h' : bare values = bare values') : bare (value :: values) = bare (value' :: values') := by
  rw [bare_cons, bare_cons, h, h']

theorem eq_of_bare_pair {first first' : α} {second second' : β}
    (h : bare (first, second) = bare (first', second')) :
    bare first = bare first' ∧ bare second = bare second' :=
  Prod.mk.inj h

@[simp] theorem bare_strings (texts : List String) : bare texts = texts := List.map_id texts

/-- Values that are alike stay so when all are changed in a way that keeps to what is bare. -/
theorem bare_map_congr (change : α → β) (hchange : ∀ value, bare (change value) = change (bare value))
    {values values' : List α} (h : bare values = bare values') :
    bare (values.map change) = bare (values'.map change) := by
  have hmap (values : List α) : bare (values.map change) = (bare values).map change := by
    rw [bare_list, bare_list, List.map_map, List.map_map]
    exact List.map_congr_left fun value _ => hchange value
  rw [hmap, hmap, h]

@[simp] theorem bare_append (first second : List α) :
    bare (first ++ second) = bare first ++ bare second := List.map_append

@[simp] theorem bare_flatten (groups : List (List α)) :
    bare groups.flatten = (bare groups).flatten := List.map_flatten

theorem bare_isSome {first second : Option α} (h : bare first = bare second) :
    first.isSome = second.isSome := by
  have hmap := congrArg Option.isSome h
  rwa [show bare first = first.map bare from rfl, show bare second = second.map bare from rfl,
    Option.isSome_map, Option.isSome_map] at hmap

theorem bare_getD {first second : Option (List α)} (h : bare first = bare second) :
    bare (first.getD []) = bare (second.getD []) := by
  cases first <;> cases second <;> simp_all

/-! ## Types -/

instance : Placed Ident := ⟨fun ident => ⟨ident.name, default⟩⟩

instance : Placed (FieldOf τ) :=
  ⟨fun field => ⟨bare field.names, bare field.type, field.tag, default⟩⟩

instance : Placed (SignatureOf τ) :=
  ⟨fun signature => ⟨bare signature.params, bare signature.results⟩⟩

instance : Placed (TermOf τ) := ⟨fun term => ⟨term.tilde, bare term.type⟩⟩

instance : Placed (ElementOf τ) where
  bare
    | .method name signature _ => .method (bare name) (bare signature) default
    | .embed terms _ => .embed (bare terms) default

theorem bare_field_congr {names names' : List Ident} {type type' : τ} {tag : Option String}
    {span span' : Span} (hnames : bare names = bare names') (htype : bare type = bare type') :
    bare (FieldOf.mk names type tag span) = bare (FieldOf.mk names' type' tag span') := by
  change FieldOf.mk (bare names) (bare type) tag default = _
  rw [hnames, htype]
  rfl

mutual

def TypeExpr.bare : TypeExpr → TypeExpr
  | .name package name args => .name package name (bareTypes args)
  | .pointer target => .pointer target.bare
  | .slice element => .slice element.bare
  | .array length element => .array length element.bare
  | .map key value => .map key.bare value.bare
  | .chan direction element => .chan direction element.bare
  | .func ⟨params, results⟩ => .func ⟨bareFields params, bareFields results⟩
  | .interface elements => .interface (bareElements elements)
  | .struct fields => .struct (bareFields fields)
  | .paren inner => .paren inner.bare
  | .ellipsis element => .ellipsis element.bare

def bareTypes : List TypeExpr → List TypeExpr
  | [] => []
  | type :: rest => type.bare :: bareTypes rest

def bareFields : List Field → List Field
  | [] => []
  | ⟨names, type, tag, _⟩ :: rest => ⟨Placed.bare names, type.bare, tag, default⟩ :: bareFields rest

def bareTerms : List TypeTerm → List TypeTerm
  | [] => []
  | ⟨tilde, type⟩ :: rest => ⟨tilde, type.bare⟩ :: bareTerms rest

def bareElements : List Element → List Element
  | [] => []
  | .method name ⟨params, results⟩ _ :: rest =>
      .method (Placed.bare name) ⟨bareFields params, bareFields results⟩ default :: bareElements rest
  | .embed terms _ :: rest => .embed (bareTerms terms) default :: bareElements rest

end

instance : Placed TypeExpr := ⟨TypeExpr.bare⟩

@[simp] theorem bareTypes_eq (types : List TypeExpr) : bareTypes types = bare types := by
  induction types with
  | nil => rfl
  | cons type rest ih =>
      rw [bareTypes, ih]
      rfl

@[simp] theorem bareFields_eq (fields : List Field) : bareFields fields = bare fields := by
  induction fields with
  | nil => rfl
  | cons field rest ih =>
      rw [bareFields, ih]
      rfl

@[simp] theorem bareTerms_eq (terms : List TypeTerm) : bareTerms terms = bare terms := by
  induction terms with
  | nil => rfl
  | cons term rest ih =>
      rw [bareTerms, ih]
      rfl

@[simp] theorem bareElements_eq (elements : List Element) : bareElements elements = bare elements := by
  induction elements with
  | nil => rfl
  | cons element rest ih =>
      cases element with
      | method name signature span =>
          rw [bareElements, ih, bareFields_eq, bareFields_eq]
          rfl
      | embed terms span =>
          rw [bareElements, ih, bareTerms_eq]
          rfl

theorem bare_typeName (package : Option String) (name : String) (args : List TypeExpr) :
    bare (TypeExpr.name package name args) = .name package name (bare args) :=
  congrArg (TypeExpr.name package name) (bareTypes_eq args)

theorem bare_func (signature : Signature) : bare (TypeExpr.func signature) = .func (bare signature) := by
  obtain ⟨params, results⟩ := signature
  change TypeExpr.func ⟨bareFields params, bareFields results⟩ = _
  rw [bareFields_eq, bareFields_eq]
  rfl

theorem bare_interface (elements : List Element) :
    bare (TypeExpr.interface elements) = .interface (bare elements) :=
  congrArg TypeExpr.interface (bareElements_eq elements)

theorem bare_struct (fields : List Field) : bare (TypeExpr.struct fields) = .struct (bare fields) :=
  congrArg TypeExpr.struct (bareFields_eq fields)

/-! ## Declarations -/

instance : Placed ImportSpec := ⟨fun spec => ⟨spec.name, spec.path, default⟩⟩

instance : Placed TypeParam := ⟨fun param => ⟨bare param.names, bare param.constraint⟩⟩

instance : Placed TypeSpec :=
  ⟨fun spec => ⟨bare spec.name, bare spec.typeParams, spec.isAlias, bare spec.type, default⟩⟩

instance : Placed ConstSpec := ⟨fun spec => ⟨bare spec.names, bare spec.type, spec.values, default⟩⟩

instance : Placed VarSpec := ⟨fun spec => ⟨spec.text, default⟩⟩

instance : Placed FuncDecl :=
  ⟨fun decl => ⟨bare decl.receiver, bare decl.name, bare decl.typeParams, bare decl.signature,
    decl.hasBody, default⟩⟩

instance : Placed Declaration where
  bare
    | .type spec => .type (bare spec)
    | .const spec => .const (bare spec)
    | .var spec => .var (bare spec)
    | .func decl => .func (bare decl)

instance : Placed SourceFile :=
  ⟨fun file => ⟨bare file.package, bare file.imports, bare file.declarations, file.sourceName,
    default⟩⟩

end GoTrace
