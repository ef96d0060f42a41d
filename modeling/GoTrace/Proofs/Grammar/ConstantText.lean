import GoTrace.Proofs.Grammar.Progress
import GoTrace.Proofs.Literal.Decimal
import GoTrace.Proofs.Parser.Draws
import GoTrace.Proofs.Parser.Finds

/-!
# Initialisers are drawn from the text

The initialisers that a file gives for its constants have no characters but those of its text.
-/

namespace GoTrace

/-- All initialisers of the line are made of allowed characters. -/
def ConstSpec.HasText (allowed : Char → Prop) (spec : ConstSpec) : Prop :=
  ∀ text ∈ spec.values, ∀ c ∈ text.toList, allowed c

namespace Grammar

open GoTrace.Parser

variable {α : Type} {allowed : Char → Prop}

theorem repeated_draws {p : Parser α} [Advances p] {accept : α → Prop}
    (h : Draws allowed p accept) :
    Draws allowed (repeated p) fun values => ∀ value ∈ values, accept value := by
  refine .orElse (h.bind fun value hvalue => ?_) (.pure nofun)
  refine (Draws.many (.after fun _ => h)).bind fun values hvalues => .pure ?_
  exact List.forall_mem_cons.mpr ⟨hvalue, hvalues⟩

theorem block_draws {spec : Parser α} [Advances spec] {accept : α → Prop} {opening closing : String}
    (h : Draws allowed spec accept) :
    Draws allowed (block opening closing spec) fun values => ∀ value ∈ values, accept value := by
  refine .after fun _ => .after fun _ => .after fun _ => .after fun _ => ?_
  have hspecs : Draws allowed (do
      let first ← spec
      gap
      let others ← repeated do
        separator
        gap
        spec
      return first :: others) fun values => ∀ value ∈ values, accept value := by
    refine h.bind fun first hfirst => .after fun _ => ?_
    have hothers := repeated_draws (p := do separator; gap; spec)
      (.after fun _ => .after fun _ => h)
    exact hothers.bind fun others hvalues =>
      .pure (List.forall_mem_cons.mpr ⟨hfirst, hvalues⟩)
  refine hspecs.optional.bind fun values? hvalues? => .after fun _ => .after fun _ =>
    .after fun _ => .after fun _ => .pure ?_
  cases values? with
  | none => nofun
  | some values => exact hvalues? values rfl

theorem specs_draws {decl word : Rule} {text : String} {spec : Parser α} [Advances spec]
    {accept : α → Prop} (h : Draws allowed spec accept) :
    Draws allowed (specs decl word text spec) fun values => ∀ value ∈ values, accept value :=
  .rule <| .after fun _ => .after fun _ => (block_draws h).orElse <|
    h.bind fun _ hvalue => .pure <| List.forall_mem_singleton.mpr hvalue

theorem constValue_draws : Draws allowed constValue fun text => ∀ c ∈ text.toList, allowed c := by
  have htext : Draws allowed (rule .constValue <| textOf <|
      enclosed <|> plainExcept [';', ',', ')', ']', '}']) fun value => ∀ c ∈ value.1, allowed c :=
    .rule (.hidden (.captured _))
  refine htext.bind fun value hvalue => .pure fun c hc => ?_
  rw [String.toList_ofList] at hc
  exact hvalue c (Text.mem_of_mem_trim hc)

theorem constSpec_draws : Draws allowed constSpec (·.HasText allowed) := by
  refine Draws.node (fun value => ∀ rest, value.2 = some rest →
    ∀ text ∈ rest.2, ∀ c ∈ text.toList, allowed c) ?_ ?_
  · refine .after fun names => .after fun _ => ?_
    refine (Draws.optional ?_).bind fun rest hrest => .pure hrest
    refine .after fun type => .after fun _ => .after fun _ => .after fun _ => ?_
    refine constValue_draws.bind fun first hfirst => .after fun _ => ?_
    have hother : Draws allowed (do mark ","; gap; constValue)
        fun text => ∀ c ∈ text.toList, allowed c := .after fun _ => .after fun _ => constValue_draws
    have hothers := repeated_draws hother
    exact hothers.bind fun others htexts => .pure (List.forall_mem_cons.mpr ⟨hfirst, htexts⟩)
  · rintro ⟨names, rest⟩ span hvalue
    refine .pure ?_
    cases rest with
    | none => nofun
    | some rest => exact hvalue rest rfl

theorem topLevelDecl_draws :
    Draws allowed topLevelDecl fun decls => ∀ spec, .const spec ∈ decls → spec.HasText allowed := by
  refine (Draws.after fun specs => .pure fun spec hmem => ?_).orElse <| .orElse ?_ <|
    (Draws.after fun specs => .pure fun spec hmem => ?_).orElse <|
    .after fun decl => .pure fun spec hmem => ?_
  · obtain ⟨_, -, heq⟩ := List.mem_map.mp hmem
    cases heq
  · refine (specs_draws constSpec_draws).bind fun specs hspecs => .pure fun spec hmem => ?_
    obtain ⟨other, hother, heq⟩ := List.mem_map.mp hmem
    cases heq
    exact hspecs spec hother
  · obtain ⟨_, -, heq⟩ := List.mem_map.mp hmem
    cases heq
  · cases List.mem_singleton.mp hmem

theorem sourceFile_draws (sourceName : Option String) :
    Draws allowed (sourceFile sourceName) fun file => ∀ spec ∈ file.constSpecs, spec.HasText allowed := by
  refine Draws.node (fun value => ∀ spec, .const spec ∈ value.2.2 → spec.HasText allowed) ?_ ?_
  · refine .after fun _ => .after fun _ => .after fun _ => .after fun package =>
      .after fun _ => .after fun imports => .after fun _ => ?_
    have hdecl : Draws allowed (do separator; gap; topLevelDecl)
        fun decls => ∀ spec, .const spec ∈ decls → spec.HasText allowed :=
      .after fun _ => .after fun _ => topLevelDecl_draws
    have hdecls := repeated_draws hdecl
    refine hdecls.bind fun groups hgroups => .after fun _ => .after fun _ => .after fun _ =>
      .after fun _ => .pure fun spec hspec => ?_
    obtain ⟨decls, hdecls, hspec⟩ := List.mem_flatten.mp hspec
    exact hgroups decls hdecls spec hspec
  · rintro ⟨package, imports, declarations⟩ span hvalue
    refine .pure fun spec hspec => hvalue spec ?_
    obtain ⟨decl, hdecl, heq⟩ := List.mem_filterMap.mp hspec
    cases decl with
    | const other =>
        cases heq
        exact hdecl
    | type other => cases heq
    | var other => cases heq
    | func other => cases heq

end Grammar

open Grammar GoTrace.Parser

theorem SourceFile.hasText_of_parse {text : String} {sourceName : Option String} {file : SourceFile}
    (h : SourceFile.parse text sourceName = .ok file) :
    ∀ spec ∈ file.constSpecs, spec.HasText (· ∈ text.toList) := by
  obtain ⟨next, hfinds⟩ := finds_of_run h
  exact (sourceFile_draws sourceName (fun _ => id) hfinds).1

end GoTrace
