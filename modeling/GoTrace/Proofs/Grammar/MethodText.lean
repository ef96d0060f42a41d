import GoTrace.Proofs.Grammar.DeclarationText

/-!
# Where methods are read

The receiver of a method, which is a pointer, and its parameters, each with a name of its own. What
is read has the types that were written, one for each parameter and each result.
-/

namespace GoTrace

/-- The types of parameters or results one by one: a field stands for one for each of its names. -/
def parameterTypes (fields : List Field) : List TypeExpr :=
  fields.flatMap fun field =>
    if field.names.isEmpty then [field.type] else field.names.map fun _ => field.type

/-- What the types of parameters or results read as, one by one. -/
def readTypes (names : Naming) (fields : List Field) : Option (List Descriptor) :=
  (parameterTypes fields).mapM (TypeExpr.read names)

theorem readTypes_cons {names : Naming} {field : Field} {fields : List Field}
    (hnames : field.names.length ≤ 1) {type : Descriptor} {types : List Descriptor}
    (htype : field.type.read names = some type) (h : readTypes names fields = some types) :
    readTypes names (field :: fields) = some (type :: types) := by
  have hone : (if field.names.isEmpty then [field.type] else field.names.map fun _ => field.type) =
      [field.type] := by
    obtain ⟨idents, fieldType, tag, span⟩ := field
    match idents, hnames with
    | [], _ => rfl
    | [ident], _ => rfl
  rw [readTypes, parameterTypes, List.flatMap_cons, hone, List.singleton_append, List.mapM_cons,
    htype]
  change (readTypes names fields).bind _ = _
  rw [h]
  rfl

theorem readTypes_of_readFields {names : Naming} {fields : List Field} {slots : List Parameter}
    (h : readFields names fields = some slots) :
    readTypes names fields = some (slots.map (·.type)) := by
  induction fields generalizing slots with
  | nil =>
      cases h
      rfl
  | cons field rest ih =>
      obtain ⟨idents, type, tag, span⟩ := field
      cases idents with
      | cons ident idents => cases h
      | nil =>
          obtain ⟨inner, hinner, h⟩ := Option.bind_eq_some_iff.mp h
          obtain ⟨others, hothers, h⟩ := Option.bind_eq_some_iff.mp h
          cases h
          exact readTypes_cons (Nat.zero_le _) hinner (ih hothers)

theorem map_type_normalAll (change : PackageRef → PackageRef) (slots : List Parameter) :
    (Descriptor.normalAll change slots).map (·.type) =
      slots.map fun slot => slot.type.normal change := by
  induction slots with
  | nil => rfl
  | cons slot rest ih => simp [Descriptor.normalAll, ih]

namespace Grammar

open GoTrace.Lexeme GoTrace.Parser GoTrace.Descriptor

variable {qualify : Qualifier} {names : Naming} {change : PackageRef → PackageRef}
  {parser : Parser TypeExpr} {rest : List Char}

/-! ## Parameters with names -/

def namedTexts (qualify : Qualifier) (idents : List String) (slots : List Parameter) :
    List (List Char) :=
  idents.zipWith (fun ident slot => ident.toList ++ ' ' :: (slot.type.render qualify).toList) slots

theorem readsParameters_namedTexts {idents : List String} {slots : List Parameter}
    (hidents : ∀ ident ∈ idents, IsIdentifier ident) (hlength : idents.length = slots.length)
    (hslots : PlainAll (NameWritten qualify names change) true slots)
    (heach : ReadsEach qualify names change parser slots) (rest : List Char) :
    ReadsParameters parser rest (namedTexts qualify idents slots)
      (idents.zipWith (fun ident slot => StandsForNamed names change ident slot.type) slots) := by
  induction slots generalizing idents with
  | nil =>
      obtain rfl := List.length_eq_zero_iff.mp hlength
      exact .nil
  | cons slot slots ih =>
      obtain ⟨ident, idents, rfl⟩ := List.exists_cons_of_length_eq_add_one hlength
      obtain ⟨hident, hidents⟩ := List.forall_mem_cons.mp hidents
      obtain ⟨hslot, hslots⟩ := hslots
      have hothers := ih hidents (Nat.succ.inj hlength) hslots
        fun other hmem => heach other (List.mem_cons_of_mem _ hmem)
      obtain ⟨last, hlast, hread⟩ := reads_namedParameterDecl hident hslot
        (heach _ List.mem_cons_self _ (closes_listTail (namedTexts qualify idents slots) rest))
      rw [skipBlanks_listTail] at hlast
      have hstart (more : List Char) := isIdentifier_lineStart hident
        (' ' :: ((slot.type.render qualify).toList ++ more))
      refine .cons (fun more => ?_) (fun more => ?_) ?_ hlast hothers
      · rw [List.append_assoc]
        exact (hstart more).solid
      · rw [List.append_assoc]
        exact newline?_of_noBreak ((hstart more).noBreak .spaced)
      · rw [List.append_assoc]
        exact hread

theorem readTypes_of_meets_named {idents : List String} {slots : List Parameter}
    {fields : List Field} (hlength : idents.length = slots.length)
    (h : Meets (idents.zipWith (fun ident slot => StandsForNamed names change ident slot.type) slots)
      fields) :
    readTypes names fields = some (slots.map fun slot => slot.type.normal change) := by
  induction slots generalizing idents fields with
  | nil =>
      obtain rfl := List.length_eq_zero_iff.mp hlength
      cases h
      rfl
  | cons slot slots ih =>
      obtain ⟨ident, idents, rfl⟩ := List.exists_cons_of_length_eq_add_one hlength
      cases h with
      | @cons _ field _ _ hfield hfields =>
          obtain ⟨hnames, htype⟩ := hfield
          obtain ⟨only, heq, -⟩ := List.map_eq_singleton_iff.mp hnames
          have hone : field.names.length ≤ 1 := by
            rw [heq]
            exact Nat.le_refl 1
          exact readTypes_cons hone htype (ih (Nat.succ.inj hlength) hfields)

theorem reads_namedSignature {idents : List String} {params results : List Parameter}
    (hidents : ∀ ident ∈ idents, IsIdentifier ident) (hlength : idents.length = params.length)
    (hparams : PlainAll (NameWritten qualify names change) true params)
    {names' : Naming} {change' : PackageRef → PackageRef}
    (hresults : PlainAll (NameWritten qualify names' change') false results)
    (hrest : Closes rest) :
    ∃ last, skipBlanks last = skipBlanks rest ∧
      Reads (signature typeExpr) .spaced
        ('(' :: listText (namedTexts qualify idents params)
          (')' :: ((resultsText (renderAll qualify results)).toList ++ rest))) last
        fun found =>
          readTypes names found.params = some (params.map fun slot => slot.type.normal change) ∧
          readTypes names' found.results =
            some (results.map fun slot => slot.type.normal change') := by
  have hrefuses (text : List Char) (htext : NoType text) : Refuses typeExpr .spaced text :=
    fun start => refuses_typeUpTo _ htext start
  obtain ⟨last, hlast, hread⟩ :=
    reads_resultsText hrefuses hresults (readsEach_typeExpr hresults) hrest
  refine ⟨last, hlast, ?_⟩
  have hlist := readsParameters_namedTexts hidents hlength hparams (readsEach_typeExpr hparams)
    ((resultsText (renderAll qualify results)).toList ++ rest)
  refine (reads_signature (hlist.reads hrefuses) hread).weaken fun found hfound => ?_
  obtain ⟨hfields, read, hresultsRead, heq⟩ := hfound
  refine ⟨readTypes_of_meets_named hlength hfields, ?_⟩
  rw [heq, readTypes_of_readFields hresultsRead, map_type_normalAll]

/-! ## Receivers -/

theorem reads_pointerName {name : String} (h : IsIdentifier name) (hrest : Closes rest) :
    Reads typeExpr .spaced ('*' :: (name.toList ++ rest)) (skipBlanks rest)
      (· = .pointer (.name none name [])) := by
  have hname : Reads qualifiedIdent .spaced (name.toList ++ rest) rest (· = (none, name)) :=
    reads_qualifiedIdent_bare h hrest.stopsWord hrest.head?_ne_dot
  obtain ⟨c, tail, heq, hstart⟩ := h.exists_cons
  have hskips : skipBlanks (name.toList ++ rest) = name.toList ++ rest := by
    rw [heq]
    exact skipBlanks_of_isSolid (isSolid_of_isIdentStart hstart) _
  have hinner : Reads (typeUpTo ('*' :: (name.toList ++ rest)).length) .spaced
      (name.toList ++ rest) (skipBlanks rest) (· = .name none name []) :=
    typeWith_of_identifier (typeUpTo (name.toList ++ rest).length)
      (reads_typeName _ hname hrest.head?_skipBlanks_ne) (h.identifier?_append hrest.stopsWord)
  have hpointer : Reads typeExpr .spaced ('*' :: (name.toList ++ rest)) (skipBlanks rest)
      fun found => ∃ target, found = .pointer target ∧ target = .name none name [] :=
    fun start => typeWith_pointer hinner hskips start
  refine hpointer.weaken fun found hfound => ?_
  obtain ⟨target, rfl, rfl⟩ := hfound
  rfl

theorem reads_receiver {name : String} (h : IsIdentifier name) (rest : List Char) :
    Reads (rule .receiver (parameters typeExpr)) .spaced
      ("(t *".toList ++ (name.toList ++ ')' :: rest)) rest
      fun fields => ∃ field, fields = [field] ∧ field.type = .pointer (.name none name []) := by
  have htype := reads_pointerName h (closes_cons (by decide) rest : Closes (')' :: rest))
  rw [skipBlanks_of_isSolid (by decide)] at htype
  have hstar (more : List Char) : skipBlanks ('*' :: more) = '*' :: more :=
    skipBlanks_of_isSolid (by decide) more
  have hident : IsIdentifier "t" := by decide
  have hstop (more : List Char) : StopsWord (' ' :: more) := (by decide : isIdentChar ' ' = false)
  have hnames := reads_identifierList hident (hstop ('*' :: (name.toList ++ ')' :: rest)))
    ((skipBlanks_space _).trans (hstar _)) (hstar _) (head?_ne rfl (by decide))
  have hdots : Reads variadicMark .spaced ('*' :: (name.toList ++ ')' :: rest)) _ (· = false) :=
    reads_variadicMark_none (noDots_of_head? (head?_ne rfl (by decide)))
  have hslot : Reads (slotType typeExpr) .spaced (skipBlanks ('*' :: (name.toList ++ ')' :: rest)))
      (')' :: rest) (· = .pointer (.name none name [])) := by
    rw [hstar]
    refine hdots.bind fun dots hdots => (reads_gap_none (hstar _)).bind fun _ _ => ?_
    refine htype.bind fun type htype => (Reads.pure _).weaken fun found hfound => ?_
    rw [hfound, hdots, htype]
    rfl
  have hdecl := reads_parameterDecl_named hnames hslot
  have hclose : skipBlanks (')' :: rest) = ')' :: rest := skipBlanks_of_isSolid (by decide) rest
  have hstop : Rounds (do gap; nextParameter typeExpr) .spaced (skipBlanks (')' :: rest)) []
      (skipBlanks (')' :: rest)) := by
    rw [hclose]
    refine .stop (Refuses.bind (reads_gap_none hclose) fun _ _ => ?_)
    exact (refuses_mark rfl (head?_ne rfl (by decide))).bind_left
  have hlist := reads_parameters_closed (skipBlanks_of_isSolid (by decide) _) rfl hdecl hstop
    (by rw [hclose, hclose])
  refine Reads.rule (hlist.weaken fun fields hfields => ?_)
  cases hfields with
  | cons hfield hnil =>
      cases hnil
      exact ⟨_, rfl, hfield.2.1⟩

/-! ## Functions -/

def functionText (qualify : Qualifier) (name : String) (idents : List String)
    (params results : List Parameter) (body rest : List Char) : List Char :=
  name.toList ++ '(' :: listText (namedTexts qualify idents params)
    (')' :: ((resultsText (renderAll qualify results)).toList ++
      ' ' :: '\x7b' :: (body ++ '\x7d' :: rest)))

theorem functionText_append (qualify : Qualifier) (name : String) (idents : List String)
    (params results : List Parameter) (body rest more : List Char) :
    functionText qualify name idents params results body rest ++ more =
      functionText qualify name idents params results body (rest ++ more) := by
  simp [functionText, listText_append]

/-- A function with names for its parameters is read as the types that were written. -/
theorem reads_function {receiver : Option (List Field) → Prop} {text middle body : List Char}
    {name : String} (hname : IsIdentifier name) (hbody : Balanced body)
    (htext : skipBlanks text = text)
    (hreceiver : Reads (optional (rule .receiver (parameters typeExpr))) .spaced text middle receiver)
    {idents : List String} {params results : List Parameter}
    (hidents : ∀ ident ∈ idents, IsIdentifier ident) (hlength : idents.length = params.length)
    (hparams : PlainAll (NameWritten qualify names change) true params)
    {names' : Naming} {change' : PackageRef → PackageRef}
    (hresults : PlainAll (NameWritten qualify names' change') false results) (rest : List Char)
    (hmiddle : skipBlanks middle = functionText qualify name idents params results body rest) :
    Reads topLevelDecl .spaced ("func".toList ++ ' ' :: text) rest fun decls =>
      ∃ decl, decls = [.func decl] ∧ receiver decl.receiver ∧ decl.name.name = name ∧
        readTypes names decl.signature.params =
          some (params.map fun slot => slot.type.normal change) ∧
        readTypes names' decl.signature.results =
          some (results.map fun slot => slot.type.normal change') := by
  have hcloses : Closes (' ' :: '\x7b' :: (body ++ '\x7d' :: rest)) := trivial
  obtain ⟨last, hlast, hsignature⟩ :=
    reads_namedSignature hidents hlength hparams hresults hcloses
  have hopen : skipBlanks last = '\x7b' :: (body ++ '\x7d' :: rest) := by
    rw [hlast, skipBlanks_space]
    exact skipBlanks_of_isSolid (by decide) _
  exact reads_topLevelFunc
    ((reads_funcDecl hname hbody.delimited htext hreceiver hmiddle hsignature hopen).weaken
      fun _ hdecl => ⟨hdecl.1, hdecl.2.1, hdecl.2.2.1⟩)

end Grammar

end GoTrace
