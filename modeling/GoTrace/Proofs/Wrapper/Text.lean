import GoTrace.Proofs.Grammar.FileText
import GoTrace.Proofs.Grammar.MethodText
import GoTrace.Proofs.Wrapper.Body
import GoTrace.Proofs.Wrapper.Imports

/-!
# Where wrappers are read

The pieces of a generated file as chunks of its grammar: the lines of the import declaration, the
struct of a wrapper, the function that makes one, and its methods.
-/

namespace GoTrace

open Lexeme Grammar Descriptor GoTrace.Parser

/-! ## Imports -/

namespace FileImports

/-- What the line for an import is read as: a name, if it is not left out, and a path. -/
def lineRead (entry : String × String) : Option ImportName × String :=
  (if lastSegment entry.1 = entry.2 then none else some (writtenName entry.2), entry.1)

def specRead (spec : ImportSpec) : Option ImportName × String := (spec.name, spec.path)

theorem exists_importText {entry : String × String}
    (h : lastSegment entry.1 = entry.2 ∨ IsIdentifier entry.2) :
    ∃ line, (importLine entry).toList = '\t' :: (line ++ ['\n']) ∧
      ImportText entry.1 line (lineRead entry).1 := by
  obtain ⟨path, aliasName⟩ := entry
  unfold lineRead
  by_cases hlast : lastSegment path = aliasName
  · refine ⟨(Text.quote path).toList, by simp [importLine, hlast], ?_⟩
    rw [if_pos hlast]
    exact .alone
  · refine ⟨aliasName.toList ++ ' ' :: (Text.quote path).toList, by simp [importLine, hlast], ?_⟩
    rw [if_neg hlast]
    exact .named (h.resolve_left hlast)

theorem chunk_importLine {entry : String × String} {value : String}
    (h : lastSegment entry.1 = entry.2 ∨ IsIdentifier entry.2)
    (hvalue : Literal.unquote? (Text.quote entry.1).toList = some value) :
    Chunk importSpec (importLine entry).toList (specRead · = ((lineRead entry).1, value)) := by
  obtain ⟨line, htext, hline⟩ := exists_importText h
  rw [htext]
  exact (hline.chunk hvalue).weaken fun spec hspec => Prod.ext hspec.1 hspec.2

theorem toList_render_behindLine {imports : FileImports} (hne : imports.aliases ≠ []) :
    ("\n" ++ imports.render).toList = '\n' :: (("import".toList ++ ' ' :: '(' :: '\n' ::
      ((imports.aliases.map fun entry => (importLine entry).toList).flatten ++ [')'])) ++
        ['\n']) := by
  rw [render, if_neg (by simpa using hne)]
  simp [String.toList_join, List.flatMap, Function.comp_def]

/-- The import declaration lists the imports in order, each with what the literal of its path stands
for. -/
theorem chunk_render {imports : FileImports} (hne : imports.aliases ≠ [])
    (h : ∀ entry ∈ imports.aliases, lastSegment entry.1 = entry.2 ∨ IsIdentifier entry.2)
    (value : String → String) (hvalues : ∀ entry ∈ imports.aliases,
      Literal.unquote? (Text.quote entry.1).toList = some (value entry.1)) :
    Chunk importDecl ("\n" ++ imports.render).toList fun specs => specs.map specRead =
      imports.aliases.map fun entry => ((lineRead entry).1, value entry.1) := by
  have hlines : List.Forall₂ (Chunk importSpec) (imports.aliases.map fun entry =>
      (importLine entry).toList) (imports.aliases.map fun entry =>
        (specRead · = ((lineRead entry).1, value entry.1))) := by
    rw [List.forall₂_map_left_iff, List.forall₂_map_right_iff, List.forall₂_same]
    intro entry hentry
    exact chunk_importLine (h entry hentry) (hvalues entry hentry)
  rw [toList_render_behindLine hne]
  refine chunk_behindLine (fun rest => ?_) fun rest => ?_
  · exact lineStart_cons (by decide) (by decide) _
  · have hdecl := reads_importDecl hlines (by simpa using hne) ('\n' :: rest)
    simp only [List.append_assoc, List.cons_append]
    refine hdecl.weaken fun specs hspecs => Meets.map_eq ?_
    rwa [List.map_map]

/-- The import declaration is not read if no import starts on its first line. -/
theorem refuses_render {imports : FileImports} {entry : String × String}
    {others : List (String × String)} (haliases : imports.aliases = entry :: others) {c : Char}
    {line : List Char} (hline : (importLine entry).toList = '\t' :: c :: line)
    (h : startsNoImport c = true) (hc : c ∉ [')', ';', '\n', '\r']) (rest : List Char) :
    ∃ text, behindBreaks (("\n" ++ imports.render).toList ++ rest) = "import".toList ++ ' ' :: text ∧
      Refuses importDecl .spaced ("import".toList ++ ' ' :: text) := by
  have hstart (text : List Char) : LineStart (c :: text) :=
    lineStart_cons (Bool.and_eq_true_iff.mp h).1 (List.not_mem_of_not_mem_cons hc) text
  have himport (text : List Char) : LineStart ("import".toList ++ ' ' :: text) :=
    lineStart_cons (by decide) (by decide) _
  have hne : imports.aliases ≠ [] := by
    rw [haliases]
    exact List.cons_ne_nil _ _
  obtain ⟨tail, htail⟩ : ∃ tail, ("\n" ++ imports.render).toList ++ rest =
      '\n' :: ("import".toList ++ ' ' :: '(' :: '\n' :: '\t' :: c :: tail) := by
    rw [toList_render_behindLine hne, haliases, List.map_cons, List.flatten_cons, hline]
    simp
  have hfirst : behindBreaks ('\n' :: '\t' :: c :: tail) = c :: tail := by
    rw [behindBreaks_break (by decide), ← behindBreaks_skipBlanks, skipBlanks_tab,
      behindBreaks_skipBlanks, (hstart tail).behindBreaks_eq]
  refine ⟨_, ?_, refuses_importDecl_block h hc hfirst⟩
  rw [htail, behindBreaks_break (by decide), (himport _).behindBreaks_eq]

end FileImports

namespace WrapperFile

variable {backend : Backend} {imports : FileImports} {interface : Interface}

/-! ## Structs and functions -/

def fieldLine (width : Nat) (name type : String) : String :=
  "\t" ++ padded width name ++ " " ++ type ++ "\n"

def structText (backend : Backend) (imports : FileImports) (interface : Interface) : String :=
  let wrapper := "Traced" ++ interface.name
  let wrapped := interface.type.render imports.qualifier
  let tracer := backend.tracerType.render imports.qualifier
  let fields := WrapperFields.ofMethods interface.methods
  ("\n// " ++ wrapper ++ " wraps " ++ wrapped ++ " and records a span around every call.\n") ++
    ("type " ++ wrapper ++ " struct \x7b\n") ++
    fieldLine fields.width fields.next wrapped ++
    fieldLine fields.width fields.tracer tracer ++
    "\x7d\n"

def constructorText (backend : Backend) (imports : FileImports) (interface : Interface) : String :=
  let wrapper := "Traced" ++ interface.name
  let wrapped := interface.type.render imports.qualifier
  let tracer := backend.tracerType.render imports.qualifier
  let fields := WrapperFields.ofMethods interface.methods
  ("\n// New" ++ wrapper ++ " returns a " ++ wrapper ++ " delegating to next.\n") ++
    ("func New" ++ wrapper ++ "(next " ++ wrapped ++ ", tracer " ++ tracer ++ ") *" ++ wrapper ++
      " \x7b\n") ++
    ("\treturn &" ++ wrapper ++ "\x7b" ++ fields.next ++ ": next, " ++ fields.tracer ++
      ": tracer\x7d\n") ++
    "\x7d\n"

theorem append_grouped (first a b c d last : String) :
    first ++ a ++ b ++ c ++ d ++ last = first ++ (a ++ b ++ c ++ d) ++ last := by
  simp only [String.append_assoc]

theorem wrapperText_eq : wrapperText backend imports interface =
    structText backend imports interface ++ constructorText backend imports interface ++
      String.join (interface.methods.items.map
        (methodText backend imports interface (WrapperFields.ofMethods interface.methods))) :=
  append_grouped _ _ _ _ _ _

theorem isIdentifier_traced (h : IsIdentifier interface.name) :
    IsIdentifier ("Traced" ++ interface.name) := by
  have htraced : IsIdentifier "Traced" := by decide
  exact htraced.append h.all_isIdentChar ⟨'T', by simp, by decide⟩

theorem chunk_fieldLine {qualify : Qualifier} {names : Naming} {change : PackageRef → PackageRef}
    {name : String} (hname : IsIdentifier name) {type : Descriptor}
    (htype : type.Plain (NameWritten qualify names change) false) (width : Nat) {depth : Nat}
    (hdepth : (fieldLine width name (type.render qualify)).toList.length ≤ depth) :
    Chunk (fieldDecl (typeUpTo depth)) (fieldLine width name (type.render qualify)).toList
      fun field => field.names.map Ident.name = [name] := by
  have hline : (fieldLine width name (type.render qualify)).toList =
      '\t' :: ((name.toList ++ (List.replicate (width - name.length) ' ' ++ ' ' ::
        (type.render qualify).toList)) ++ ['\n']) := by
    simp [fieldLine, padded]
  have htext (rest : List Char) : (name.toList ++ (List.replicate (width - name.length) ' ' ++ ' ' ::
      (type.render qualify).toList)) ++ rest = name.toList ++
        (List.replicate (width - name.length) ' ' ++ ' ' ::
          ((type.render qualify).toList ++ rest)) := by
    simp
  have hinner : (type.render qualify).toList.length < depth := by
    rw [hline] at hdepth
    simp at hdepth
    omega
  obtain ⟨depth, rfl⟩ := Nat.exists_eq_succ_of_ne_zero (Nat.ne_of_gt (Nat.zero_lt_of_lt hinner))
  rw [hline]
  refine chunk_line (fun rest => ?_) fun rest => ?_
  · rw [htext]
    exact isIdentifier_lineStart hname _
  · rw [htext]
    exact reads_fieldDecl hname htype _
      (readsBack_typeUpTo htype (Nat.le_of_lt_succ hinner) (closes_cons (by decide) rest))

theorem staysOnLine_render {package : PackageRef} {name : String} (himports : imports.Legible)
    (hpackage : IsIdentifier package.aliasName) (hname : IsIdentifier name) :
    ((Descriptor.named (some package) name).render imports.qualifier).toList.all
      (!isLineEnd ·) = true := by
  cases hqualifier : imports.qualifier package with
  | none =>
      have hbare : (some package).bind imports.qualifier = none := hqualifier
      rw [toList_render_named_bare name hbare]
      exact hname.staysOnLine
  | some aliasName =>
      have hdotted : (some package).bind imports.qualifier = some aliasName := hqualifier
      rw [toList_render_named_dotted name hdotted, List.all_append, List.all_cons,
        (himports.isIdentifier_qualifier hpackage hqualifier).staysOnLine, hname.staysOnLine]
      decide

def IsWrapperStruct (interface : Interface) (decl : Declaration) : Prop :=
  ∃ spec, decl = .type spec ∧ IsStruct ("Traced" ++ interface.name)
    [(·.names.map Ident.name = [(WrapperFields.ofMethods interface.methods).next]),
      (·.names.map Ident.name = [(WrapperFields.ofMethods interface.methods).tracer])] spec

theorem chunk_structText (himports : imports.Legible) (h : interface.Legible)
    (hpackage : IsIdentifier interface.package.aliasName) :
    Chunk topLevelDecl (structText backend imports interface).toList
      (Alone (IsWrapperStruct interface)) := by
  have hwrapper := isIdentifier_traced h.name
  have hwrapped := staysOnLine_render himports hpackage h.name
  have htype : interface.type.Plain (NameWritten imports.qualifier _ _) false :=
    himports.nameWritten hpackage h.name
  have htracer : backend.tracerType.Plain (NameWritten imports.qualifier _ _) false :=
    himports.nameWritten (show IsIdentifier backend.package.aliasName by cases backend <;> decide)
      (show IsIdentifier "Tracer" by decide)
  unfold structText
  generalize hwrapperName : "Traced" ++ interface.name = wrapper at hwrapper
  generalize hfields : WrapperFields.ofMethods interface.methods = fields
  have hnext : IsIdentifier fields.next := hfields ▸ WrapperFields.isIdentifier_next _
  have htracerName : IsIdentifier fields.tracer := hfields ▸ WrapperFields.isIdentifier_tracer _
  generalize hlines : [(fieldLine fields.width fields.next
      (interface.type.render imports.qualifier)).toList, (fieldLine fields.width fields.tracer
        (backend.tracerType.render imports.qualifier)).toList] = lines
  have hline {line : List Char} {depth : Nat} (hline : line ∈ lines)
      (hdepth : lines.flatten.length ≤ depth) : line.length ≤ depth :=
    Nat.le_trans (List.sublist_flatten_of_mem hline).length_le hdepth
  have hchunks (depth : Nat) (hdepth : lines.flatten.length ≤ depth) :
      List.Forall₂ (Chunk (fieldDecl (typeUpTo depth))) lines
        [(·.names.map Ident.name = [fields.next]), (·.names.map Ident.name = [fields.tracer])] := by
    rw [← hlines] at hline ⊢
    rw [← hlines] at hdepth
    refine .cons (chunk_fieldLine hnext htype _ (hline ?_ hdepth)) (.cons ?_ .nil)
    · simp
    · exact chunk_fieldLine htracerName htracer _ (hline (by simp) hdepth)
  have htext : (("\n// " ++ wrapper ++ " wraps " ++ interface.type.render imports.qualifier ++
      " and records a span around every call.\n") ++ ("type " ++ wrapper ++ " struct \x7b\n") ++
      fieldLine fields.width fields.next (interface.type.render imports.qualifier) ++
      fieldLine fields.width fields.tracer (backend.tracerType.render imports.qualifier) ++
      "\x7d\n").toList = '\n' :: '/' :: '/' :: ((" " ++ wrapper ++ " wraps " ++
        interface.type.render imports.qualifier ++
          " and records a span around every call.").toList ++ '\n' :: (("type".toList ++ ' ' ::
            (wrapper.toList ++ ' ' :: ("struct".toList ++ ' ' :: '\x7b' :: '\n' ::
              (lines.flatten ++ ['\x7d'])))) ++ ['\n'])) := by
    rw [← hlines]
    simp
  rw [htext]
  refine chunk_behindComment ?_ (fun rest => ?_) fun rest => ?_
  · simp only [String.toList_append, List.all_append, Bool.and_eq_true]
    exact ⟨⟨⟨⟨by decide, hwrapper.staysOnLine⟩, by decide⟩, hwrapped⟩, by decide⟩
  · exact lineStart_cons (by decide) (by decide) _
  · have hspec := reads_typeSpec hwrapper hchunks (by simp [← hlines]) ('\n' :: rest)
    have hdecl := reads_topLevelType hspec (isIdentifier_lineStart hwrapper _).solid
      (hwrapper.head?_append_ne (by decide) _)
    simp only [List.append_assoc, List.cons_append, List.nil_append]
    refine hdecl.weaken fun decls hdecls => ?_
    obtain ⟨spec, rfl, hspec⟩ := hdecls
    subst hwrapperName hfields
    exact ⟨_, rfl, spec, rfl, hspec⟩

/-- What the function that makes a wrapper is read as. -/
def IsWrapperConstructor (interface : Interface) (decl : Declaration) : Prop :=
  ∃ func, decl = .func func ∧ func.receiver = none ∧
    func.name.name = "NewTraced" ++ interface.name

theorem chunk_constructorText (himports : imports.Legible) (h : interface.Legible)
    (hpackage : IsIdentifier interface.package.aliasName) :
    Chunk topLevelDecl (constructorText backend imports interface).toList
      (Alone (IsWrapperConstructor interface)) := by
  have hwrapper := isIdentifier_traced h.name
  have htype : interface.type.Plain (NameWritten imports.qualifier _ _) false :=
    himports.nameWritten hpackage h.name
  have htracer : backend.tracerType.Plain (NameWritten imports.qualifier _ _) false :=
    himports.nameWritten (show IsIdentifier backend.package.aliasName by cases backend <;> decide)
      (show IsIdentifier "Tracer" by decide)
  have hmaker : "NewTraced" ++ interface.name = "New" ++ ("Traced" ++ interface.name) := by
    rw [← String.append_assoc]
    rfl
  unfold constructorText
  generalize hwrapperName : "Traced" ++ interface.name = wrapper at hwrapper
  have hname : IsIdentifier ("New" ++ wrapper) := by
    have hnew : IsIdentifier "New" := by decide
    exact hnew.append hwrapper.all_isIdentChar ⟨'N', by simp, by decide⟩
  have hresult : (Descriptor.pointer (.named none wrapper)).Plain
      (NameWritten imports.qualifier (fun _ _ => some none) id) false :=
    ⟨hwrapper, nofun, rfl⟩
  generalize hfields : WrapperFields.ofMethods interface.methods = fields
  have hnext : IsIdentifier fields.next := hfields ▸ WrapperFields.isIdentifier_next _
  have htracerName : IsIdentifier fields.tracer := hfields ▸ WrapperFields.isIdentifier_tracer _
  have hbody : Balanced ("\n\treturn &" ++ wrapper ++ "\x7b" ++ fields.next ++ ": next, " ++
      fields.tracer ++ ": tracer\x7d\n").toList := by
    have hinside : Balanced (String.join [fields.next, ": next, ", fields.tracer,
        ": tracer"]).toList := by
      refine .join ?_
      simp only [List.forall_mem_cons]
      exact ⟨hnext.balanced, .of_all (by decide), htracerName.balanced, .of_all (by decide), nofun⟩
    have hopening : Balanced ("\n\treturn &" ++ wrapper).toList :=
      .append_string (.of_all (by decide)) hwrapper.balanced
    have hline := (hopening.append hinside.braces).append (.of_all (by decide) : Balanced ['\n'])
    simpa [String.join] using hline
  have htext : (("\n// New" ++ wrapper ++ " returns a " ++ wrapper ++ " delegating to next.\n") ++
      ("func New" ++ wrapper ++ "(next " ++ interface.type.render imports.qualifier ++ ", tracer " ++
        backend.tracerType.render imports.qualifier ++ ") *" ++ wrapper ++ " \x7b\n") ++
      ("\treturn &" ++ wrapper ++ "\x7b" ++ fields.next ++ ": next, " ++ fields.tracer ++
        ": tracer\x7d\n") ++
      "\x7d\n").toList = '\n' :: '/' :: '/' :: ((" New" ++ wrapper ++ " returns a " ++ wrapper ++
        " delegating to next.").toList ++ '\n' :: (("func".toList ++ ' ' ::
          functionText imports.qualifier ("New" ++ wrapper) ["next", "tracer"]
            [⟨none, interface.type⟩, ⟨none, backend.tracerType⟩]
            [⟨none, .pointer (.named none wrapper)⟩] ("\n\treturn &" ++ wrapper ++ "\x7b" ++
              fields.next ++ ": next, " ++ fields.tracer ++ ": tracer\x7d\n").toList []) ++
                ['\n'])) := by
    simp [functionText, namedTexts, listText, listTail, resultsText, renderAll, Descriptor.render]
  rw [htext]
  refine chunk_behindComment ?_ (fun rest => ?_) fun rest => ?_
  · simp only [String.toList_append, List.all_append, Bool.and_eq_true]
    exact ⟨⟨⟨⟨by decide, hwrapper.staysOnLine⟩, by decide⟩, hwrapper.staysOnLine⟩, by decide⟩
  · exact lineStart_cons (by decide) (by decide) _
  · have hreceiver (more : List Char) : Reads (optional (rule .receiver (parameters typeExpr)))
        .spaced (("New" ++ wrapper).toList ++ more) _ (· = none) :=
      .optional_none (refuses_parameters (hname.head?_append_ne (by decide) _)).rule
    have hskips (more : List Char) := (isIdentifier_lineStart hname more).solid
    have hidents : ∀ ident ∈ ["next", "tracer"], IsIdentifier ident := by decide
    have hparams : PlainAll (NameWritten imports.qualifier _ _) true
        [⟨none, interface.type⟩, ⟨none, backend.tracerType⟩] := ⟨htype, htracer, trivial⟩
    have hresults : PlainAll (NameWritten imports.qualifier _ _) false
        [⟨none, .pointer (.named none wrapper)⟩] := ⟨hresult, trivial⟩
    have hdecl := reads_function hname hbody (hskips _) (hreceiver _) hidents rfl hparams hresults
      ('\n' :: rest) (hskips _)
    rw [List.append_assoc, List.cons_append, functionText_append]
    refine hdecl.weaken fun decls hdecls => ?_
    obtain ⟨func, rfl, hnone, hmade, -⟩ := hdecls
    subst hwrapperName
    exact ⟨_, rfl, func, rfl, hnone, hmade.trans hmaker.symm⟩

/-! ## Methods -/

variable {fields : WrapperFields} {method : Method}

def callText (imports : FileImports) (fields : WrapperFields) (method : Method) : String :=
  "t." ++ fields.next ++ "." ++ method.name ++ "(" ++ (", ".intercalate
    (parameterNames method imports) ++ (if method.isVariadic then "..." else "")) ++ ")"

def spanParent (imports : FileImports) (method : Method) : SpanParent :=
  match method.contextParam with
  | some index => .context ((parameterNames method imports)[index]?.getD "")
  | none => .root (imports.alias? contextPath)

def bodyText (backend : Backend) (imports : FileImports) (interface : Interface)
    (fields : WrapperFields) (method : Method) : String :=
  let package := (imports.qualifier backend.package).getD backend.package.aliasName
  let start := backend.startSpan package ("t." ++ fields.tracer)
    (interface.name ++ "." ++ method.name) (spanParent imports method)
  let call := callText imports fields method
  "\n" ++ ("\t" ++ start ++ "\n\t" ++ backend.finishSpan ++ "\n\n") ++
    (if method.results.isEmpty then "\t" ++ call ++ "\n" else "\treturn " ++ call ++ "\n")

theorem append_body (receiver name params results start finish call : String) :
    s!"\nfunc (t *Traced{receiver}) {name}({params}){results} \x7b\n" ++
        s!"\t{start}\n\t{finish}\n\n" ++ call ++ "\x7d\n" =
      "\nfunc (t *Traced" ++ receiver ++ ") " ++ name ++ "(" ++ params ++ ")" ++ results ++ " \x7b" ++
        ("\n" ++ ("\t" ++ start ++ "\n\t" ++ finish ++ "\n\n") ++ call) ++ "\x7d\n" := by
  have hopening : " \x7b\n" = " \x7b" ++ "\n" := rfl
  change "\nfunc (t *Traced" ++ receiver ++ ") " ++ name ++ "(" ++ params ++ ")" ++ results ++
    " \x7b\n" ++ ("\t" ++ start ++ "\n\t" ++ finish ++ "\n\n") ++ call ++ "\x7d\n" = _
  rw [hopening]
  simp only [String.append_assoc]

theorem methodText_eq : methodText backend imports interface fields method =
    "\nfunc (t *Traced" ++ interface.name ++ ") " ++ method.name ++ "(" ++
      ", ".intercalate ((parameterNames method imports).zipWith
        (fun name type => name ++ " " ++ type)
        (Descriptor.renderAll imports.qualifier method.params)) ++ ")" ++
      resultsText (Descriptor.renderAll imports.qualifier method.results) ++ " \x7b" ++
      bodyText backend imports interface fields method ++ "\x7d\n" :=
  append_body _ _ _ _ _ _ _

theorem balanced_callText (hnames : ∀ name ∈ parameterNames method imports, IsIdentifier name)
    (hnext : IsIdentifier fields.next) (hmethod : IsIdentifier method.name) :
    Balanced (callText imports fields method).toList := by
  have hdots : Balanced (if method.isVariadic then "..." else "").toList := by
    split
    · exact .of_all (by decide)
    · exact .nil
  have hargs : Balanced (", ".intercalate (parameterNames method imports)).toList :=
    .intercalate fun name hname => (hnames name hname).balanced
  have hcallee : Balanced ("t." ++ fields.next ++ "." ++ method.name).toList := by
    refine .append_string (.append_string (.append_string ?_ hnext.balanced) ?_) hmethod.balanced
    · exact .of_all (by decide)
    · exact .of_all (by decide)
  exact .call hcallee (.append_string hargs hdots)

theorem balanced_bodyText (himports : imports.Legible)
    (hnames : ∀ name ∈ parameterNames method imports, IsIdentifier name)
    (hnext : IsIdentifier fields.next) (htracer : IsIdentifier fields.tracer)
    (hmethod : IsIdentifier method.name) :
    Balanced (bodyText backend imports interface fields method).toList := by
  have hpackage : Balanced
      ((imports.qualifier backend.package).getD backend.package.aliasName).toList := by
    have halias : IsIdentifier backend.package.aliasName := by cases backend <;> decide
    cases hqualifier : imports.qualifier backend.package with
    | none => exact halias.balanced
    | some aliasName => exact (himports.isIdentifier_qualifier halias hqualifier).balanced
  have htracerText : Balanced ("t." ++ fields.tracer).toList :=
    .append_string (.of_all (by decide)) htracer.balanced
  have hcontext (name : String) (hname : spanParent imports method = .context name) :
      Balanced name.toList := by
    unfold spanParent at hname
    split at hname
    · rename_i index _
      cases hname
      cases hget : (parameterNames method imports)[index]? with
      | none => exact .nil
      | some name => exact (hnames name (List.mem_of_getElem? hget)).balanced
    · cases hname
  have hroot (background : Option String) (h : spanParent imports method = .root background) :
      Balanced (background.getD contextPath).toList := by
    unfold spanParent at h
    split at h
    · cases h
    · cases h
      cases halias : imports.alias? contextPath with
      | none => exact .of_all (by decide)
      | some aliasName => exact (himports.isIdentifier_alias halias).balanced
  have hstart := Backend.balanced_startSpan (interface.name ++ "." ++ method.name) hpackage
    htracerText backend hcontext hroot
  have hfinish := Backend.balanced_finishSpan backend
  have hcall := balanced_callText hnames hnext hmethod
  have hline (indent : String) (h : indent.toList.all isLoose = true) :
      Balanced (indent ++ callText imports fields method ++ "\n").toList :=
    .append_string (.append_string (.of_all h) hcall) (.of_all (by decide))
  unfold bodyText
  refine .append_string (.append_string (.of_all (by decide)) ?_) ?_
  · have hopening : Balanced "\t".toList := .of_all (by decide)
    have hbetween : Balanced "\n\t".toList := .of_all (by decide)
    have hbehind : Balanced "\n\n".toList := .of_all (by decide)
    exact (((hopening.append_string hstart).append_string hbetween).append_string
      hfinish).append_string hbehind
  · split
    · exact hline "\t" (by decide)
    · exact hline "\treturn " (by decide)

def IsWrapperMethod (imports : FileImports) (interface : Interface) (method : Method)
    (decl : Declaration) : Prop :=
  ∃ func receiver, decl = .func func ∧ func.receiver = some [receiver] ∧
    receiver.type = .pointer (.name none ("Traced" ++ interface.name) []) ∧
    func.name.name = method.name ∧
    readTypes imports.naming func.signature.params =
      some (method.params.map fun slot => slot.type.normal PackageRef.unaliased) ∧
    readTypes imports.naming func.signature.results =
      some (method.results.map fun slot => slot.type.normal PackageRef.unaliased)

theorem namedTexts_eq {qualify : Qualifier} (names : List String) (slots : List Parameter) :
    (names.zipWith (fun name type => name ++ " " ++ type)
      (Descriptor.renderAll qualify slots)).map String.toList = namedTexts qualify names slots := by
  induction slots generalizing names with
  | nil => cases names <;> rfl
  | cons slot rest ih =>
      cases names with
      | nil => rfl
      | cons name names =>
          have hothers := ih names
          simp [namedTexts, Descriptor.renderAll] at hothers ⊢
          exact hothers

theorem chunk_methodText (himports : imports.Legible) (hname : IsIdentifier interface.name)
    (h : method.Legible)
    (hparams : PlainAll (NameWritten imports.qualifier imports.naming PackageRef.unaliased) true
      method.params)
    (hresults : PlainAll (NameWritten imports.qualifier imports.naming PackageRef.unaliased) false
      method.results) :
    Chunk topLevelDecl (methodText backend imports interface (WrapperFields.ofMethods
      interface.methods) method).toList (Alone (IsWrapperMethod imports interface method)) := by
  have hwrapper := isIdentifier_traced hname
  have hnames (name : String) (hmem : name ∈ parameterNames method imports) : IsIdentifier name :=
    isIdentifier_of_mem_parameterNames h.paramNames hmem
  have hlength := length_parameterNames method imports
  have hbody : Balanced (bodyText backend imports interface _ method).toList :=
    balanced_bodyText himports hnames (WrapperFields.isIdentifier_next interface.methods)
      (WrapperFields.isIdentifier_tracer interface.methods) h.name
  rw [methodText_eq]
  generalize bodyText backend imports interface _ method = body at hbody
  have htext : ("\nfunc (t *Traced" ++ interface.name ++ ") " ++ method.name ++ "(" ++
      ", ".intercalate ((parameterNames method imports).zipWith
        (fun name type => name ++ " " ++ type)
        (Descriptor.renderAll imports.qualifier method.params)) ++ ")" ++
      resultsText (Descriptor.renderAll imports.qualifier method.results) ++ " \x7b" ++
      body ++ "\x7d\n").toList = '\n' :: (("func".toList ++ ' ' :: ("(t *".toList ++
        (("Traced" ++ interface.name).toList ++ ')' :: ' ' :: functionText imports.qualifier
          method.name (parameterNames method imports) method.params method.results body.toList
            []))) ++ ['\n']) := by
    rw [functionText, ← namedTexts_eq, ← intercalate_append]
    simp [String.toList_intercalate]
  rw [htext]
  refine chunk_behindLine (fun rest => ?_) fun rest => ?_
  · exact lineStart_cons (by decide) (by decide) _
  · have hskips (more : List Char) := (isIdentifier_lineStart h.name more).solid
    have hreceiver := (reads_receiver hwrapper (' ' :: functionText imports.qualifier method.name
      (parameterNames method imports) method.params method.results body.toList
        ('\n' :: rest))).optional_some
    have hopen : skipBlanks ("(t *".toList ++ (("Traced" ++ interface.name).toList ++ ')' :: ' ' ::
        functionText imports.qualifier method.name (parameterNames method imports) method.params
          method.results body.toList ('\n' :: rest))) = _ :=
      skipBlanks_of_isSolid (by decide) _
    have hdecl := reads_function h.name hbody hopen hreceiver hnames hlength hparams hresults
      ('\n' :: rest) ((skipBlanks_space _).trans (hskips _))
    simp only [List.append_assoc, List.cons_append, functionText_append, List.nil_append]
    refine hdecl.weaken fun decls hdecls => ?_
    obtain ⟨func, rfl, ⟨_, hsome, receiver, rfl, htype⟩, hmethod, htypes⟩ := hdecls
    exact ⟨_, rfl, func, receiver, rfl, hsome, htype, hmethod, htypes⟩

end WrapperFile

end GoTrace
