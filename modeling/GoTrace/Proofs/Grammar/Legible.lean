import GoTrace.Proofs.Grammar.Words
import GoTrace.Proofs.Literal.Decimal
import GoTrace.Proofs.Parser.Yields
import GoTrace.Syntax.Parse

/-!
# What the syntax of a file is made of

Every name of a type that is read is an identifier, and every length that is read as a number has 64
bits. So has every type inside it that resolution looks at.
-/

namespace GoTrace

open Lexeme

mutual

/-- The names of a type are identifiers, and its lengths have 64 bits. -/
def TypeExpr.Legible : TypeExpr → Prop
  | .name package name _ =>
      (∀ aliasName, package = some aliasName → IsIdentifier aliasName) ∧ IsIdentifier name
  | .pointer target => target.Legible
  | .slice element => element.Legible
  | .array length element => (∀ n, length = .literal n → n < UInt64.size) ∧ element.Legible
  | .map key value => key.Legible ∧ value.Legible
  | .chan _ element => element.Legible
  | .func ⟨params, results⟩ => LegibleFields params ∧ LegibleFields results
  | .interface elements => LegibleElements elements
  | .struct _ => True
  | .paren inner => inner.Legible
  | .ellipsis element => element.Legible

/-- Fields with identifiers for names, whose types are legible. -/
def LegibleFields : List Field → Prop
  | [] => True
  | ⟨names, type, _, _⟩ :: rest =>
      (∀ ident ∈ names, IsIdentifier ident.name) ∧ type.Legible ∧ LegibleFields rest

def LegibleElements : List Element → Prop
  | [] => True
  | .method name ⟨params, results⟩ _ :: rest =>
      IsIdentifier name.name ∧ (LegibleFields params ∧ LegibleFields results) ∧ LegibleElements rest
  | .embed _ _ :: rest => LegibleElements rest

end

/-- A signature whose parameters and results are legible. -/
def SignatureOf.Legible (signature : Signature) : Prop :=
  LegibleFields signature.params ∧ LegibleFields signature.results

/-- A field with identifiers for names, whose type is legible. -/
def FieldOf.Legible (field : Field) : Prop :=
  (∀ ident ∈ field.names, IsIdentifier ident.name) ∧ field.type.Legible

/-- An interface element whose method, if it is one, is legible. -/
def ElementOf.Legible : Element → Prop
  | .method name signature _ => IsIdentifier name.name ∧ signature.Legible
  | .embed _ _ => True

theorem legibleFields_iff {fields : List Field} :
    LegibleFields fields ↔ ∀ field ∈ fields, field.Legible := by
  induction fields with
  | nil => simp [LegibleFields]
  | cons field rest ih =>
      obtain ⟨names, type, tag, span⟩ := field
      rw [LegibleFields, List.forall_mem_cons, ih, FieldOf.Legible, and_assoc]

theorem TypeExpr.Legible.unparen {type : TypeExpr} (h : type.Legible) : type.unparen.Legible := by
  induction type using TypeExpr.unparen.induct with
  | case1 inner ih =>
      rw [TypeExpr.unparen]
      exact ih h
  | case2 type hne =>
      rw [TypeExpr.unparen]
      · exact h
      · exact hne

theorem legibleElements_iff {elements : List Element} :
    LegibleElements elements ↔ ∀ element ∈ elements, element.Legible := by
  induction elements with
  | nil => simp [LegibleElements]
  | cons element rest ih =>
      cases element with
      | method name signature span =>
          obtain ⟨params, results⟩ := signature
          simp only [LegibleElements, List.forall_mem_cons, ih, ElementOf.Legible,
            SignatureOf.Legible, and_assoc]
      | embed terms span => simp [LegibleElements, ih, ElementOf.Legible]

namespace Grammar

open GoTrace.Parser

variable {α : Type} {p : Parser α} {accept : α → Prop}

/-! ## Words and lists -/

theorem identifier_yields : Yields identifier fun ident => IsIdentifier ident.name := by
  intro mode cursor found h
  simp only [identifier, found_rule, found_bind, found_captured, found_take, found_pure,
    Option.bind_eq_some_iff, Option.map_eq_some_iff] at h
  obtain ⟨_, ⟨_, ⟨count, hcount, rfl⟩, rfl⟩, _, hvalue, rfl⟩ := h
  simp only [Option.some.injEq] at hvalue
  subst hvalue
  have htake : cursor.textTo (cursor.skip count) = cursor.rest.take count := by
    have hle := (identifier?_bounds hcount).2
    rw [Cursor.textTo, Cursor.skip, List.length_drop, Nat.sub_sub_self hle]
  change IsIdentifier (String.ofList (cursor.textTo (cursor.skip count)))
  rw [htake]
  exact isIdentifier_of_identifier? hcount

theorem repeated_yields (h : Yields p accept) :
    Yields (repeated p) fun values => ∀ value ∈ values, accept value := by
  refine .orElse (h.bind fun value hvalue => ?_) (.pure nofun)
  have hmany : Yields (many do gap; p) fun values => ∀ value ∈ values, accept value :=
    .many (.after fun _ => h)
  exact hmany.bind fun values hvalues => .pure (List.forall_mem_cons.mpr ⟨hvalue, hvalues⟩)

theorem identifierList_yields :
    Yields identifierList fun idents => ∀ ident ∈ idents, IsIdentifier ident.name := by
  refine .rule (identifier_yields.bind fun first hfirst => .after fun _ => ?_)
  have hnext : Yields (do mark ","; gap; identifier) fun ident => IsIdentifier ident.name :=
    .after fun _ => .after fun _ => identifier_yields
  exact (repeated_yields hnext).bind fun others hothers =>
    .pure (List.forall_mem_cons.mpr ⟨hfirst, hothers⟩)

theorem qualifiedIdent_yields :
    Yields qualifiedIdent fun value =>
      (∀ aliasName, value.1 = some aliasName → IsIdentifier aliasName) ∧ IsIdentifier value.2 := by
  refine .tight (.rule (identifier_yields.bind fun first hfirst => ?_))
  have hsecond : Yields (do mark "."; identifier) fun ident => IsIdentifier ident.name :=
    .after fun _ => identifier_yields
  refine hsecond.optional.bind fun second hsecond => ?_
  cases second with
  | none => exact .pure ⟨nofun, hfirst⟩
  | some name =>
      refine .pure ⟨fun aliasName heq => ?_, hsecond name rfl⟩
      cases heq
      exact hfirst

theorem block_yields (h : Yields p accept) (opening closing : String) :
    Yields (block opening closing p) fun values => ∀ value ∈ values, accept value := by
  refine .after fun _ => .after fun _ => .after fun _ => .after fun _ => ?_
  have hlist : Yields (do
      let first ← p
      gap
      let others ← repeated do
        separator
        gap
        p
      return first :: others) fun values => ∀ value ∈ values, accept value := by
    refine h.bind fun first hfirst => .after fun _ => ?_
    refine (repeated_yields (.after fun _ => .after fun _ => h)).bind fun others hothers => ?_
    exact .pure (List.forall_mem_cons.mpr ⟨hfirst, hothers⟩)
  refine hlist.optional.bind fun specs hspecs => .after fun _ => .after fun _ => .after fun _ =>
    .after fun _ => .pure ?_
  cases specs with
  | none => exact nofun
  | some specs => exact hspecs specs rfl

theorem specs_yields (h : Yields p accept) (decl word : Rule) (text : String) :
    Yields (specs decl word text p) fun values => ∀ value ∈ values, accept value := by
  refine .rule (.after fun _ => .after fun _ => .orElse (block_yields h "(" ")") ?_)
  exact h.bind fun value hvalue => .pure (by simpa using hvalue)

/-! ## Types -/

theorem lengthOfText_yields (text : List Char) :
    Yields (lengthOfText text) fun length => ∀ n, length = .literal n → n < UInt64.size := by
  unfold lengthOfText
  dsimp only
  split
  · rename_i n hread
    refine .pure fun m heq => ?_
    cases heq
    exact Literal.lt_of_readInt hread
  · exact .pure (by simp)
  · exact .after fun _ => .pure (by simp)

theorem arrayLength_yields :
    Yields arrayLength fun length => ∀ n, length = .literal n → n < UInt64.size := by
  refine .rule (.orElse (.after fun _ => .pure nofun) (.orElse ?_ ?_))
  · exact .after fun _ => .after fun _ => .after fun _ => .pure nofun
  · exact .after fun value => lengthOfText_yields value.1

section

variable {type : Parser TypeExpr} (h : Yields type TypeExpr.Legible)

include h

theorem parameterDecl_yields : Yields (parameterDecl type) FieldOf.Legible := by
  refine Yields.node (fun value => (∀ ident ∈ value.1, IsIdentifier ident.name) ∧
    value.2.2.Legible) ?_ ?_
  · refine .orElse ?_ ?_
    · refine identifierList_yields.bind fun names hnames => .after fun _ => .after fun _ =>
        .after fun _ => h.bind fun type htype => .pure ⟨hnames, htype⟩
    · exact .after fun _ => .after fun _ => h.bind fun type htype => .pure ⟨nofun, htype⟩
  · rintro ⟨names, dots, type⟩ span hvalue
    refine .pure ⟨hvalue.1, ?_⟩
    cases dots with
    | true => exact hvalue.2
    | false => exact hvalue.2

theorem parameters_yields :
    Yields (parameters type) fun fields => ∀ field ∈ fields, field.Legible := by
  have hdecl := parameterDecl_yields h
  refine .rule (.after fun _ => .after fun _ => .after fun _ => .after fun _ => ?_)
  have hlist : Yields (do
      let first ← parameterDecl type
      gap
      let others ← repeated do
        mark ","
        gap
        let _ ← optional newlines
        gap
        parameterDecl type
      gap
      let _ ← optional (mark ",")
      return first :: others) fun fields => ∀ field ∈ fields, field.Legible := by
    refine hdecl.bind fun first hfirst => .after fun _ => ?_
    refine (repeated_yields (.after fun _ => .after fun _ => .after fun _ => .after fun _ =>
      hdecl)).bind fun others hothers => .after fun _ => .after fun _ => ?_
    exact .pure (List.forall_mem_cons.mpr ⟨hfirst, hothers⟩)
  refine hlist.optional.bind fun fields hfields => .after fun _ => .after fun _ => .after fun _ =>
    .after fun _ => .pure ?_
  cases fields with
  | none => exact nofun
  | some fields => exact hfields fields rfl

theorem results_yields : Yields (results type) fun fields => ∀ field ∈ fields, field.Legible := by
  refine .rule (.orElse (parameters_yields h) (h.spanned.bind fun value hvalue => .pure ?_))
  intro field hmem
  obtain rfl := List.mem_singleton.mp hmem
  exact ⟨nofun, hvalue⟩

theorem signature_yields : Yields (signature type) SignatureOf.Legible := by
  refine .rule ((parameters_yields h).bind fun params hparams => .after fun _ => ?_)
  refine (results_yields h).optional.bind fun fields hfields => .pure ⟨?_, ?_⟩
  · exact legibleFields_iff.mpr hparams
  · refine legibleFields_iff.mpr ?_
    cases fields with
    | none => exact nofun
    | some fields => exact hfields fields rfl

theorem interfaceElement_yields : Yields (interfaceElement type) ElementOf.Legible := by
  refine Yields.node (fun value => ∀ name signature, value = Sum.inl (name, signature) →
    IsIdentifier name.name ∧ signature.Legible) ?_ ?_
  · refine .orElse (.rule ?_) (.after fun terms => .pure nofun)
    refine identifier_yields.bind fun name hname => .after fun _ => ?_
    refine (signature_yields h).bind fun signature hsignature => .pure fun _ _ heq => ?_
    cases heq
    exact ⟨hname, hsignature⟩
  · intro element span hvalue
    cases element with
    | inl part => exact .pure (hvalue part.1 part.2 rfl)
    | inr terms => exact .pure trivial

theorem typeWith_yields : Yields (typeWith type) TypeExpr.Legible := by
  refine .rule (.orElse ?pointer (.orElse ?slice (.orElse ?array (.orElse ?map (.orElse ?chan
    (.orElse ?func (.orElse ?interface (.orElse ?struct (.orElse ?paren ?name)))))))))
  case pointer =>
    exact .rule (.after fun _ => .after fun _ => h.bind fun _ htarget => .pure htarget)
  case slice =>
    exact .rule (.after fun _ => .after fun _ => .after fun _ => .after fun _ =>
      h.bind fun _ helement => .pure helement)
  case array =>
    refine .rule (.after fun _ => .after fun _ => arrayLength_yields.bind fun _ hlength => ?_)
    exact .after fun _ => .after fun _ => .after fun _ =>
      h.bind fun _ helement => .pure ⟨hlength, helement⟩
  case map =>
    refine .rule (.after fun _ => .after fun _ => .after fun _ => .after fun _ => ?_)
    refine h.bind fun _ hkey => .after fun _ => .after fun _ => .after fun _ => ?_
    exact h.bind fun _ hvalue => .pure ⟨hkey, hvalue⟩
  case chan =>
    refine .rule (.orElse (.rule ?_) (.orElse (.rule ?_) (.rule ?_)))
    · exact .after fun _ => .after fun _ => .after fun _ => .after fun _ =>
        h.bind fun _ helement => .pure helement
    · exact .after fun _ => .after fun _ => .after fun _ => .after fun _ =>
        h.bind fun _ helement => .pure helement
    · exact .after fun _ => .after fun _ => h.bind fun _ helement => .pure helement
  case func =>
    exact .rule (.after fun _ => .after fun _ => (signature_yields h).bind fun _ hsignature =>
      .pure hsignature)
  case interface =>
    refine .rule (.after fun _ => .after fun _ => ?_)
    exact (block_yields (interfaceElement_yields h) _ _).bind fun _ helements =>
      .pure (legibleElements_iff.mpr helements)
  case struct => exact .rule (.after fun _ => .after fun _ => .after fun _ => .pure trivial)
  case paren =>
    exact .rule (.after fun _ => .after fun _ => h.bind fun _ hinner => .after fun _ =>
      .after fun _ => .pure hinner)
  case name =>
    refine .rule (qualifiedIdent_yields.bind fun value hvalue => ?_)
    exact .after fun _ => .after fun _ => .pure hvalue

end

theorem typeUpTo_yields (depth : Nat) : Yields (typeUpTo depth) TypeExpr.Legible := by
  induction depth with
  | zero => exact fun _ _ _ hfound => nomatch hfound
  | succ depth ih => exact typeWith_yields ih

/-- The rule for types finds the type at some place of some text. -/
def IsRead (expr : TypeExpr) : Prop :=
  ∃ depth mode cursor found, (typeUpTo depth mode cursor).found = some found ∧ found.value = expr

theorem IsRead.legible {expr : TypeExpr} (h : IsRead expr) : expr.Legible := by
  obtain ⟨depth, mode, cursor, found, hfound, rfl⟩ := h
  exact typeUpTo_yields depth hfound

theorem typeExpr_isRead : Yields typeExpr IsRead :=
  fun mode cursor _ hfound => ⟨_, mode, cursor, _, hfound, rfl⟩

theorem typeExpr_yields : Yields typeExpr TypeExpr.Legible :=
  fun _ _ _ hfound => typeUpTo_yields _ hfound

end Grammar

open Grammar GoTrace.Parser

theorem Parser.Yields.of_run {α : Type} {p : Parser α} {accept : α → Prop} (h : Yields p accept)
    {name text : String} {value : α} (hvalue : p.run name text = .ok value) : accept value := by
  unfold run at hvalue
  dsimp only at hvalue
  split at hvalue <;> cases hvalue
  rename_i hreply
  exact h (congrArg Reply.found hreply)

theorem TypeExpr.isRead_of_parse {text : String} {expr : TypeExpr}
    (h : TypeExpr.parse text = .ok expr) : IsRead expr := by
  have hlone : Yields loneType IsRead :=
    .rule (.after fun _ => typeExpr_isRead.bind fun _ hread => .after fun _ => .after fun _ =>
      .pure hread)
  exact hlone.of_run h

end GoTrace
