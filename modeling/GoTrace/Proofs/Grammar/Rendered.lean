import GoTrace.Proofs.Grammar.ParameterText
import GoTrace.Syntax.Parse

/-!
# Written types read back

The text of a type, in front of anything that can follow a type, is read by the rule for types down
to that text or to what stands behind its blanks, and what is found reads as the type. There is one
lemma for each form of types. The induction is on the depth to which the rule reads types inside
types, which the length of the text bounds.
-/

namespace GoTrace.Grammar

open GoTrace.Lexeme GoTrace.Parser GoTrace.Descriptor

variable {qualify : Qualifier} {names : Naming} {change : PackageRef → PackageRef}

theorem closes_listTail (texts : List (List Char)) (rest : List Char) :
    Closes (listTail texts (')' :: rest)) := by
  cases texts with
  | nil => exact closes_cons (by decide) _
  | cons text texts => exact closes_cons (by decide) _

/-- The parser reads the type from its text in front of `rest`. -/
def ReadsBack (qualify : Qualifier) (names : Naming) (change : PackageRef → PackageRef)
    (parser : Parser TypeExpr) (type : Descriptor) (rest : List Char) : Prop :=
  ∃ last, skipBlanks last = skipBlanks rest ∧
    Reads parser .spaced ((type.render qualify).toList ++ rest) last
      fun found => found.read names = some (type.normal change)

def StandsFor (names : Naming) (change : PackageRef → PackageRef) (type : Descriptor)
    (field : Field) : Prop :=
  field.names = [] ∧ field.type.read names = some (type.normal change)

namespace ReadsBack

variable {parser : Parser TypeExpr} {type key value : Descriptor} {rest : List Char}

theorem named {package : Option PackageRef} {name : String}
    (h : NameWritten qualify names change package name) (hrest : Closes rest) :
    ReadsBack qualify names change (typeWith parser) (.named package name) rest := by
  refine ⟨skipBlanks rest, skipBlanks_skipBlanks rest, ?_⟩
  have hreads : names (package.bind qualify) name = some (package.map change) := h.reads
  have hfound (found : TypeExpr) (hfound : found = .name (package.bind qualify) name []) :
      found.read names = some ((Descriptor.named package name).normal change) := by
    rw [hfound, TypeExpr.read, hreads, normal_named]
    rfl
  cases hqualify : package.bind qualify with
  | none =>
      rw [hqualify] at hfound
      rw [toList_render_named_bare _ hqualify]
      have hident : Reads qualifiedIdent .spaced (name.toList ++ rest) rest (· = (none, name)) :=
        reads_qualifiedIdent_bare h.identifier hrest.stopsWord hrest.head?_ne_dot
      exact (typeWith_of_identifier _ (reads_typeName _ hident hrest.head?_skipBlanks_ne)
        (h.identifier.identifier?_append hrest.stopsWord)).weaken hfound
  | some aliasName =>
      rw [hqualify] at hfound
      have halias := h.aliasName aliasName hqualify
      have hstop : StopsWord ('.' :: (name.toList ++ rest)) :=
        (by decide : isIdentChar '.' = false)
      rw [toList_render_named_dotted _ hqualify, List.append_assoc, List.cons_append]
      have hident : Reads qualifiedIdent .spaced (aliasName.toList ++ '.' :: (name.toList ++ rest))
          rest (· = (some aliasName, name)) :=
        reads_qualifiedIdent_dotted halias h.identifier hrest.stopsWord
      exact (typeWith_of_identifier _ (reads_typeName _ hident hrest.head?_skipBlanks_ne)
        (halias.identifier?_append hstop)).weaken hfound

theorem pointer (htype : type.Plain (NameWritten qualify names change) false)
    (h : ReadsBack qualify names change parser type rest) :
    ReadsBack qualify names change (typeWith parser) (.pointer type) rest := by
  obtain ⟨last, hlast, hread⟩ := h
  refine ⟨last, hlast, ?_⟩
  have htext : ((Descriptor.pointer type).render qualify).toList ++ rest =
      '*' :: ((type.render qualify).toList ++ rest) := by
    rw [render, String.toList_append]
    rfl
  rw [htext]
  refine (typeWith_pointer hread (skipBlanks_render htype rest)).weaken fun found hfound => ?_
  obtain ⟨target, rfl, htarget⟩ := hfound
  rw [TypeExpr.read, htarget, normal]
  rfl

theorem slice (htype : type.Plain (NameWritten qualify names change) false)
    (h : ReadsBack qualify names change parser type rest) :
    ReadsBack qualify names change (typeWith parser) (.sequence none type) rest := by
  obtain ⟨last, hlast, hread⟩ := h
  refine ⟨last, hlast, ?_⟩
  have htext : ((Descriptor.sequence none type).render qualify).toList ++ rest =
      '[' :: ']' :: ((type.render qualify).toList ++ rest) := by
    rw [render, String.toList_append]
    rfl
  rw [htext]
  refine (typeWith_slice hread (skipBlanks_render htype rest)).weaken fun found hfound => ?_
  obtain ⟨element, rfl, helement⟩ := hfound
  rw [TypeExpr.read, helement, normal]
  rfl

theorem array {n : Nat} (hn : n < UInt64.size)
    (htype : type.Plain (NameWritten qualify names change) false)
    (h : ReadsBack qualify names change parser type rest) :
    ReadsBack qualify names change (typeWith parser) (.sequence (some n) type) rest := by
  obtain ⟨last, hlast, hread⟩ := h
  refine ⟨last, hlast, ?_⟩
  have htext : ((Descriptor.sequence (some n) type).render qualify).toList ++ rest =
      '[' :: (Nat.toDigits 10 n ++ ']' :: ((type.render qualify).toList ++ rest)) := by
    simp [render]
  rw [htext]
  refine (typeWith_array hn hread (skipBlanks_render htype rest)).weaken fun found hfound => ?_
  obtain ⟨element, rfl, helement⟩ := hfound
  rw [TypeExpr.read, helement, normal]
  rfl

theorem map (hkey : key.Plain (NameWritten qualify names change) false)
    (hvalue : value.Plain (NameWritten qualify names change) false)
    (h : ReadsBack qualify names change parser key (']' :: ((value.render qualify).toList ++ rest)))
    (h' : ReadsBack qualify names change parser value rest) :
    ReadsBack qualify names change (typeWith parser) (.map key value) rest := by
  obtain ⟨middle, hmiddle, hread⟩ := h
  obtain ⟨last, hlast, hread'⟩ := h'
  refine ⟨last, hlast, ?_⟩
  have htext : ((Descriptor.map key value).render qualify).toList ++ rest =
      "map".toList ++ '[' :: ((key.render qualify).toList ++
        ']' :: ((value.render qualify).toList ++ rest)) := by
    simp [render]
  rw [skipBlanks_of_isSolid (by decide)] at hmiddle
  rw [htext]
  refine (typeWith_map hread (skipBlanks_render hkey _) hmiddle hread'
    (skipBlanks_render hvalue rest)).weaken fun found hfound => ?_
  obtain ⟨readKey, readValue, rfl, hreadKey, hreadValue⟩ := hfound
  rw [TypeExpr.read, hreadKey, hreadValue, normal]
  rfl

theorem send (htype : type.Plain (NameWritten qualify names change) false)
    (h : ReadsBack qualify names change parser type rest) :
    ReadsBack qualify names change (typeWith parser) (.channel .send type) rest := by
  obtain ⟨last, hlast, hread⟩ := h
  refine ⟨last, hlast, ?_⟩
  rw [render, String.toList_append, List.append_assoc]
  refine (typeWith_send hread (skipBlanks_render htype rest)).weaken fun found hfound => ?_
  obtain ⟨element, rfl, helement⟩ := hfound
  rw [TypeExpr.read, helement, normal]
  rfl

theorem receive (htype : type.Plain (NameWritten qualify names change) false)
    (h : ReadsBack qualify names change parser type rest) :
    ReadsBack qualify names change (typeWith parser) (.channel .receive type) rest := by
  obtain ⟨last, hlast, hread⟩ := h
  refine ⟨last, hlast, ?_⟩
  rw [render, String.toList_append, List.append_assoc]
  refine (typeWith_receive hread (skipBlanks_render htype rest)).weaken fun found hfound => ?_
  obtain ⟨element, rfl, helement⟩ := hfound
  rw [TypeExpr.read, helement, normal]
  rfl

theorem both (htype : type.Plain (NameWritten qualify names change) false)
    (hreceive : type.isReceive = false)
    (h : ReadsBack qualify names change parser type rest) :
    ReadsBack qualify names change (typeWith parser) (.channel .both type) rest := by
  obtain ⟨last, hlast, hread⟩ := h
  refine ⟨last, hlast, ?_⟩
  obtain ⟨c, tail, heq, hbegins⟩ := exists_begins htype
  have harrow : ((type.render qualify).toList ++ rest).head? ≠ some '<' := by
    rw [heq]
    exact head?_ne rfl (hbegins.ne_arrow hreceive)
  rw [toList_render_both hreceive, List.append_assoc]
  refine (typeWith_both hread (skipBlanks_render htype rest) harrow).weaken fun found hfound => ?_
  obtain ⟨element, rfl, helement⟩ := hfound
  rw [TypeExpr.read, helement, normal]
  rfl

/-- A channel of channels that only give values has parentheses around its elements. -/
theorem both_receive (htype : type.Plain (NameWritten qualify names change) false)
    (hreceive : type.isReceive = true)
    (h : ReadsBack qualify names change parser type (')' :: rest)) :
    ReadsBack qualify names change (typeWith (typeWith parser)) (.channel .both type) rest := by
  obtain ⟨middle, hmiddle, hread⟩ := h
  refine ⟨rest, rfl, ?_⟩
  rw [skipBlanks_of_isSolid (by decide)] at hmiddle
  have htext : ((Descriptor.channel .both type).render qualify).toList ++ rest =
      "chan ".toList ++ '(' :: ((type.render qualify).toList ++ ')' :: rest) := by
    rw [toList_render_both_receive hreceive]
    simp
  rw [htext]
  have hparen := typeWith_paren hread (skipBlanks_render htype _) hmiddle
  have hopen : skipBlanks ('(' :: ((type.render qualify).toList ++ ')' :: rest)) = _ :=
    skipBlanks_of_isSolid (by decide) _
  refine (typeWith_both hparen hopen
    (head?_ne rfl (by decide))).weaken fun found hfound => ?_
  obtain ⟨element, rfl, inner, rfl, hinner⟩ := hfound
  rw [TypeExpr.read, TypeExpr.read_paren, hinner, normal]
  rfl

theorem emptyInterface (h : Refuses parser .spaced ('\x7d' :: rest)) :
    ReadsBack qualify names change (typeWith parser) .emptyInterface rest := by
  refine ⟨rest, rfl, ?_⟩
  rw [render]
  refine (typeWith_interface h).weaken fun found hfound => ?_
  rw [hfound, TypeExpr.read, normal]

theorem emptyStruct : ReadsBack qualify names change (typeWith parser) .emptyStruct rest := by
  refine ⟨rest, rfl, ?_⟩
  rw [render]
  refine (typeWith_emptyStruct rest).weaken fun found hfound => ?_
  rw [hfound, TypeExpr.read, normal]

end ReadsBack

variable {parser : Parser TypeExpr} {slots : List Parameter} {isParam : Bool}

theorem reads_slotType {slot : Descriptor} (hslot : slot.Plain (NameWritten qualify names change) isParam)
    {rest : List Char} (hread : ReadsBack qualify names change parser slot.undotted rest) :
    ∃ last, skipBlanks last = skipBlanks rest ∧
      Reads (slotType parser) .spaced ((slot.render qualify).toList ++ rest) last
        fun found => found.read names = some (slot.normal change) := by
  obtain ⟨last, hlast, hread⟩ := hread
  refine ⟨last, hlast, ?_⟩
  cases hdots : slot.isVariadic with
  | true =>
      cases slot with
      | variadic element =>
          have htext : ((Descriptor.variadic element).render qualify).toList =
              "...".toList ++ (element.render qualify).toList := by
            rw [render, String.toList_append]
          rw [htext, List.append_assoc]
          refine (reads_variadicMark_dots _).bind fun dots hdots => ?_
          refine (reads_gap_none (skipBlanks_render hslot.2 _)).bind fun _ _ => ?_
          refine hread.bind fun type htype => (Reads.pure _).weaken fun found hfound => ?_
          rw [hfound, hdots]
          change (type.read names).bind _ = _
          rw [htype]
          rfl
      | _ => cases hdots
  | false =>
      have hundotted : slot.undotted = slot := by
        cases slot with
        | variadic element => cases hdots
        | _ => rfl
      rw [hundotted] at hread
      obtain ⟨c, tail, heq, hbegins⟩ := exists_begins hslot
      have hhead : ((slot.render qualify).toList ++ rest).head? ≠ some '.' := by
        rw [heq]
        exact head?_ne rfl (hbegins.ne_dot hdots)
      refine (reads_variadicMark_none (noDots_of_head? hhead)).bind fun dots hdots => ?_
      refine (reads_gap_none (skipBlanks_render hslot _)).bind fun _ _ => ?_
      refine hread.bind fun type htype => (Reads.pure _).weaken fun found hfound => ?_
      rw [hfound, hdots]
      exact htype

theorem reads_parameterDecl (hrefuses : ∀ text, NoType text → Refuses parser .spaced text)
    {slot : Descriptor} (hslot : slot.Plain (NameWritten qualify names change) isParam)
    (hslots : PlainAll (NameWritten qualify names change) isParam slots) (rest : List Char)
    (hread : ReadsBack qualify names change parser slot.undotted
      (listTail (slotTexts qualify slots) (')' :: rest))) :
    ∃ last, skipBlanks last = listTail (slotTexts qualify slots) (')' :: rest) ∧
      Reads (parameterDecl parser) .spaced
        ((slot.render qualify).toList ++ listTail (slotTexts qualify slots) (')' :: rest)) last
        (StandsFor names change slot) := by
  obtain ⟨last, hlast, htype⟩ := reads_slotType hslot hread
  refine ⟨last, hlast.trans (skipBlanks_listTail _ _), ?_⟩
  refine (reads_parameterDecl_alone (refuses_namedDecl_slots hrefuses hslot hslots rest)
    htype).weaken fun field hfield => ?_
  exact ⟨hfield.1, hfield.2.1⟩

def StandsForNamed (names : Naming) (change : PackageRef → PackageRef) (name : String)
    (type : Descriptor) (field : Field) : Prop :=
  field.names.map Ident.name = [name] ∧ field.type.read names = some (type.normal change)

theorem reads_identifierList {name : String} (hname : IsIdentifier name) {text rest : List Char}
    (hstop : StopsWord text) (htext : skipBlanks text = rest) (hsolid : skipBlanks rest = rest)
    (hcomma : rest.head? ≠ some ',') :
    Reads identifierList .spaced (name.toList ++ text) rest
      fun idents => idents.map Ident.name = [name] := by
  have hgap := reads_gap text
  rw [htext] at hgap
  have hrounds : Rounds (do gap; nextName) .spaced rest [] rest :=
    .stop (Refuses.bind (reads_gap_none hsolid) fun _ _ => (refuses_mark rfl hcomma).bind_left)
  refine Reads.rule ((reads_identifier hname hstop).bind fun first hfirst => hgap.bind fun _ _ => ?_)
  refine (reads_repeated hrounds hsolid).bind fun others hothers => ?_
  refine (Reads.pure _).weaken fun idents hidents => ?_
  cases hothers
  rw [hidents, List.map_cons, hfirst, List.map_nil]

theorem reads_namedParameterDecl {name : String} (hname : IsIdentifier name) {slot : Descriptor}
    (hslot : slot.Plain (NameWritten qualify names change) isParam) {rest : List Char}
    (hread : ReadsBack qualify names change parser slot.undotted rest) :
    ∃ last, skipBlanks last = skipBlanks rest ∧
      Reads (parameterDecl parser) .spaced
        (name.toList ++ ' ' :: ((slot.render qualify).toList ++ rest)) last
        (StandsForNamed names change name slot) := by
  have hcomma := head?_render_ne hslot rest (show isIdentStart ',' = false by decide) (by decide)
  have hskips := skipBlanks_render hslot rest
  have hstop : StopsWord (' ' :: ((slot.render qualify).toList ++ rest)) :=
    (by decide : isIdentChar ' ' = false)
  have hnames := reads_identifierList hname hstop ((skipBlanks_space _).trans hskips) hskips hcomma
  obtain ⟨last, hlast, htype⟩ := reads_slotType hslot hread
  rw [← hskips] at htype
  refine ⟨last, hlast, (reads_parameterDecl_named hnames htype).weaken fun field hfield => ?_⟩
  exact ⟨hfield.1, hfield.2.1⟩

/-! ## Lists of types -/

/-- Each type of the list is read from its text, whatever closes it. -/
def ReadsEach (qualify : Qualifier) (names : Naming) (change : PackageRef → PackageRef)
    (parser : Parser TypeExpr) (slots : List Parameter) : Prop :=
  ∀ slot ∈ slots, ∀ rest, Closes rest →
    ReadsBack qualify names change parser slot.type.undotted rest

theorem readFields_cons {field : Field} {fields : List Field} {type : Descriptor}
    (hfield : StandsFor names change type field)
    (hfields : readFields names fields = some (normalAll change slots)) (name : Option String) :
    readFields names (field :: fields) = some (normalAll change (⟨name, type⟩ :: slots)) := by
  obtain ⟨fieldNames, fieldType, tag, span⟩ := field
  obtain ⟨rfl, hfieldType⟩ : fieldNames = [] ∧ _ := hfield
  rw [readFields, hfieldType, hfields, normalAll]
  rfl

theorem readFields_of_meets {fields : List Field}
    (h : Meets (slots.map fun slot => StandsFor names change slot.type) fields) :
    readFields names fields = some (normalAll change slots) := by
  induction slots generalizing fields with
  | nil =>
      cases h
      rfl
  | cons slot slots ih =>
      cases h with
      | cons hfield hfields => exact readFields_cons hfield (ih hfields) slot.name

theorem readsParameters_slotTexts
    (hrefuses : ∀ text, NoType text → Refuses parser .spaced text)
    (hslots : PlainAll (NameWritten qualify names change) isParam slots)
    (heach : ReadsEach qualify names change parser slots) (rest : List Char) :
    ReadsParameters parser rest (slotTexts qualify slots)
      (slots.map fun slot => StandsFor names change slot.type) := by
  induction slots with
  | nil => exact .nil
  | cons slot slots ih =>
      obtain ⟨htype, hslots⟩ := hslots
      obtain ⟨middle, hmiddle, hread⟩ := reads_parameterDecl hrefuses htype hslots rest
        (heach _ List.mem_cons_self _ (closes_listTail _ _))
      have hothers := ih hslots fun other hmem => heach other (List.mem_cons_of_mem _ hmem)
      exact .cons (skipBlanks_render htype) (newline?_render htype) hread hmiddle hothers

theorem reads_parameterList [Advances parser]
    (hrefuses : ∀ text, NoType text → Refuses parser .spaced text)
    (hslots : PlainAll (NameWritten qualify names change) isParam slots)
    (heach : ReadsEach qualify names change parser slots) (rest : List Char) :
    Reads (parameters parser) .spaced
      ('(' :: listText (slotTexts qualify slots) (')' :: rest)) rest
      fun fields => readFields names fields = some (normalAll change slots) := by
  have hlist := readsParameters_slotTexts hrefuses hslots heach rest
  exact (hlist.reads hrefuses).weaken fun fields hfields => readFields_of_meets hfields

/-- The results of a function are read from their text, in each of its three forms. -/
theorem reads_resultsText [Advances parser]
    (hrefuses : ∀ text, NoType text → Refuses parser .spaced text)
    (hslots : PlainAll (NameWritten qualify names change) false slots)
    (heach : ReadsEach qualify names change parser slots) {rest : List Char} (hrest : Closes rest) :
    ∃ last, skipBlanks last = skipBlanks rest ∧
      Reads (optional (results parser)) .spaced
        (skipBlanks ((resultsText (renderAll qualify slots)).toList ++ rest)) last
        fun read => readFields names (read.getD []) = some (normalAll change slots) := by
  match slots, hslots, heach with
  | [], _, _ =>
      refine ⟨skipBlanks rest, skipBlanks_skipBlanks rest, ?_⟩
      have hparen := head?_of_noType hrest.noType (show startsNoType '(' = false by decide)
      have hnone := refuses_results (hrefuses _ hrest.noType) hparen
      refine (Reads.optional_none hnone).weaken fun read hread => ?_
      rw [hread]
      rfl
  | [⟨name, type⟩], hslots, heach =>
      have htype := hslots.1
      obtain ⟨last, hlast, hread⟩ := heach _ List.mem_cons_self rest hrest
      rw [undotted_of_plain htype] at hread
      have htext : skipBlanks ((resultsText (renderAll qualify [⟨name, type⟩])).toList ++ rest) =
          (type.render qualify).toList ++ rest := by
        rw [renderAll, renderAll, resultsText, String.toList_append]
        exact (skipBlanks_space _).trans (skipBlanks_render htype rest)
      refine ⟨last, hlast, ?_⟩
      rw [htext]
      have hparen := head?_render_ne htype rest (show isIdentStart '(' = false by decide)
        (by decide)
      refine (reads_results_one hread hparen).optional_some.weaken fun read hfound => ?_
      obtain ⟨found, rfl, field, rfl, hfield⟩ := hfound
      have hnone : readFields names [] = some (normalAll change []) := rfl
      exact readFields_cons hfield hnone name
  | first :: second :: others, hslots, heach =>
      have htext : skipBlanks ((resultsText (renderAll qualify (first :: second :: others))).toList ++
          rest) =
          '(' :: listText (slotTexts qualify (first :: second :: others)) (')' :: rest) := by
        rw [← intercalate_append, slotTexts]
        change skipBlanks ((" (" ++ ", ".intercalate _ ++ ")").toList ++ rest) = _
        rw [String.toList_append, String.toList_append, String.toList_intercalate,
          List.append_assoc, List.append_assoc]
        change skipBlanks (' ' :: '(' :: _) = _
        rw [skipBlanks_space]
        exact skipBlanks_of_isSolid (by decide) _
      have hlist := reads_results_list (reads_parameterList hrefuses hslots heach rest)
      refine ⟨rest, rfl, ?_⟩
      rw [htext]
      refine hlist.optional_some.weaken fun read hfound => ?_
      obtain ⟨found, rfl, hfound⟩ := hfound
      exact hfound

/-! ## Types inside types -/

theorem reads_signatureText [Advances parser]
    (hrefuses : ∀ text, NoType text → Refuses parser .spaced text) {params results : List Parameter}
    (hparams : PlainAll (NameWritten qualify names change) true params)
    (hresults : PlainAll (NameWritten qualify names change) false results)
    (hreadParams : ReadsEach qualify names change parser params)
    (hreadResults : ReadsEach qualify names change parser results) {rest : List Char}
    (hrest : Closes rest) :
    ∃ last, skipBlanks last = skipBlanks rest ∧
      Reads (signature parser) .spaced
        ('(' :: listText (slotTexts qualify params)
          (')' :: ((resultsText (renderAll qualify results)).toList ++ rest))) last
        fun found => readFields names found.params = some (normalAll change params) ∧
          readFields names found.results = some (normalAll change results) := by
  obtain ⟨last, hlast, hread⟩ := reads_resultsText hrefuses hresults hreadResults hrest
  refine ⟨last, hlast, ?_⟩
  refine (reads_signature (reads_parameterList hrefuses hparams hreadParams _) hread).weaken
    fun found hfound => ?_
  obtain ⟨hfields, read, hfieldsRead, heq⟩ := hfound
  exact ⟨hfields, by rw [heq]; exact hfieldsRead⟩

theorem toList_render_function (params results : List Parameter) (rest : List Char) :
    ((Descriptor.function params results).render qualify).toList ++ rest =
      "func".toList ++ '(' :: listText (slotTexts qualify params)
        (')' :: ((resultsText (renderAll qualify results)).toList ++ rest)) := by
  rw [← intercalate_append, slotTexts, render]
  simp [String.toList_intercalate]

theorem ReadsBack.function [Advances parser]
    (hrefuses : ∀ text, NoType text → Refuses parser .spaced text) {params results : List Parameter}
    (hparams : PlainAll (NameWritten qualify names change) true params)
    (hresults : PlainAll (NameWritten qualify names change) false results)
    (hreadParams : ReadsEach qualify names change parser params)
    (hreadResults : ReadsEach qualify names change parser results) {rest : List Char}
    (hrest : Closes rest) :
    ReadsBack qualify names change (typeWith parser) (.function params results) rest := by
  obtain ⟨last, hlast, hread⟩ :=
    reads_signatureText hrefuses hparams hresults hreadParams hreadResults hrest
  refine ⟨last, hlast, ?_⟩
  rw [toList_render_function]
  refine (typeWith_func hread).weaken fun found hfound => ?_
  obtain ⟨⟨fields, fieldsOut⟩, rfl, hfields, hfieldsOut⟩ := hfound
  rw [TypeExpr.read, hfields, hfieldsOut, normal]
  rfl

/-! ## All types -/

theorem length_undotted_le (type : Descriptor) :
    (type.undotted.render qualify).toList.length ≤ (type.render qualify).toList.length := by
  cases type with
  | variadic element =>
      rw [undotted, render, String.toList_append, List.length_append]
      exact Nat.le_add_left _ _
  | _ => exact Nat.le_refl _

theorem length_le_intercalate {slots : List Parameter} {text : List Char}
    (h : text ∈ slotTexts qualify slots) :
    text.length ≤ (", ".intercalate (renderAll qualify slots)).toList.length := by
  have hle := length_le_listText h []
  rwa [← intercalate_append, List.append_nil, slotTexts,
    show [',', ' '] = ", ".toList from rfl, ← String.toList_intercalate] at hle

theorem length_le_resultsText {results : List Parameter} {text : List Char}
    (h : text ∈ slotTexts qualify results) :
    text.length ≤ (resultsText (renderAll qualify results)).toList.length := by
  match results, h with
  | [result], h =>
      rw [slotTexts_cons, slotTexts_nil, List.mem_singleton] at h
      simp [h, renderAll, resultsText]
  | first :: second :: others, h =>
      have hle := length_le_intercalate h
      change _ ≤ (" (" ++ ", ".intercalate _ ++ ")").toList.length
      simp only [String.toList_append, List.length_append]
      exact Nat.le_trans hle (Nat.le_trans (Nat.le_add_left _ _) (Nat.le_add_right _ _))

theorem readsEach {bound : Nat}
    (h : ∀ type : Descriptor, type.Plain (NameWritten qualify names change) false →
      (type.render qualify).toList.length ≤ bound →
        ∀ rest, Closes rest → ReadsBack qualify names change parser type rest)
    (hslots : PlainAll (NameWritten qualify names change) isParam slots)
    (hbound : ∀ text ∈ slotTexts qualify slots, text.length ≤ bound) :
    ReadsEach qualify names change parser slots := by
  induction slots with
  | nil => exact fun _ hmem => nomatch hmem
  | cons slot slots ih =>
      obtain ⟨hslot, hslots⟩ := hslots
      intro other hmem
      rcases List.mem_cons.mp hmem with rfl | hmem
      · have hlength := Nat.le_trans (length_undotted_le other.type)
          (hbound _ (by rw [slotTexts_cons]; exact List.mem_cons_self))
        exact h _ hslot.undotted hlength
      · exact ih hslots (fun text htext => hbound text (List.mem_cons_of_mem _ htext)) other hmem

/-- A written type is read back by the rule for types that go as deep as the text is long. -/
theorem readsBack_typeUpTo {type : Descriptor}
    (htype : type.Plain (NameWritten qualify names change) false) {depth : Nat}
    (hdepth : (type.render qualify).toList.length ≤ depth) {rest : List Char}
    (hrest : Closes rest) : ReadsBack qualify names change (typeUpTo (depth + 1)) type rest := by
  induction depth using Nat.strongRecOn generalizing type rest with
  | ind depth ih =>
  change ReadsBack qualify names change (typeWith (typeUpTo depth)) type rest
  have hsub (inner : Descriptor) (hinner : inner.Plain (NameWritten qualify names change) false)
      (hlength : (inner.render qualify).toList.length < depth) {rest : List Char}
      (hrest : Closes rest) : ReadsBack qualify names change (typeUpTo depth) inner rest := by
    obtain ⟨depth, rfl⟩ := Nat.exists_eq_succ_of_ne_zero (Nat.ne_of_gt (Nat.zero_lt_of_lt hlength))
    exact ih depth (Nat.lt_succ_self _) hinner (Nat.le_of_lt_succ hlength) hrest
  cases type with
  | named package name => exact .named htype hrest
  | pointer target =>
      refine .pointer htype (hsub target htype ?_ hrest)
      simp [render] at hdepth
      omega
  | sequence length element =>
      cases length with
      | none =>
          refine .slice htype.2 (hsub element htype.2 ?_ hrest)
          simp [render] at hdepth
          omega
      | some n =>
          refine .array (htype.1 n rfl) htype.2 (hsub element htype.2 ?_ hrest)
          simp [render] at hdepth
          omega
  | map key value =>
      simp [render] at hdepth
      refine .map htype.1 htype.2 (hsub key htype.1 (by omega) ?_) (hsub value htype.2 (by omega) hrest)
      exact closes_cons (by decide) _
  | channel direction element =>
      cases direction with
      | send =>
          refine .send htype (hsub element htype ?_ hrest)
          simp [render] at hdepth
          omega
      | receive =>
          refine .receive htype (hsub element htype ?_ hrest)
          simp [render] at hdepth
          omega
      | both =>
          cases hreceive : element.isReceive with
          | false =>
              rw [toList_render_both hreceive] at hdepth
              refine .both htype hreceive (hsub element htype ?_ hrest)
              simp at hdepth
              omega
          | true =>
              have helement : element.Plain (NameWritten qualify names change) false := htype
              rw [toList_render_both_receive hreceive] at hdepth
              simp at hdepth
              obtain ⟨depth, rfl⟩ : ∃ inner, depth = inner + 2 := ⟨depth - 2, by omega⟩
              refine .both_receive htype hreceive (ih depth (by omega) helement (by omega) ?_)
              exact closes_cons (by decide) _
  | function params results =>
      rw [render, String.toList_append, List.length_append] at hdepth
      simp [-String.toList_intercalate] at hdepth
      have hinner (inner : Descriptor)
          (hplain : inner.Plain (NameWritten qualify names change) false)
          (hlength : (inner.render qualify).toList.length ≤ depth - 1) (rest : List Char)
          (hrest : Closes rest) : ReadsBack qualify names change (typeUpTo depth) inner rest :=
        hsub inner hplain (by omega) hrest
      have hparams := readsEach hinner htype.1 fun text hmem => by
        have hle := length_le_intercalate hmem
        omega
      have hresults := readsEach hinner htype.2 fun text hmem => by
        have hle := length_le_resultsText hmem
        omega
      exact .function (fun _ => refuses_typeUpTo depth) htype.1 htype.2 hparams hresults hrest
  | variadic element => exact absurd htype.1 (by decide)
  | emptyInterface =>
      exact .emptyInterface (refuses_typeUpTo depth (by decide : startsNoType '\x7d' = true))
  | emptyStruct => exact .emptyStruct

theorem readsBack_typeExpr {type : Descriptor}
    (htype : type.Plain (NameWritten qualify names change) false) {rest : List Char}
    (hrest : Closes rest) : ReadsBack qualify names change typeExpr type rest := by
  have hdepth : (type.render qualify).toList.length ≤
      ((type.render qualify).toList ++ rest).length := by simp
  obtain ⟨last, hlast, hread⟩ := readsBack_typeUpTo htype hdepth hrest
  exact ⟨last, hlast, fun start => hread start⟩

theorem readsEach_typeExpr (hslots : PlainAll (NameWritten qualify names change) isParam slots) :
    ReadsEach qualify names change typeExpr slots := by
  refine readsEach (fun _ htype _ _ hrest => readsBack_typeExpr htype hrest) hslots
    fun text hmem => length_le_listText hmem []

end GoTrace.Grammar

namespace GoTrace

open Lexeme Grammar GoTrace.Parser

theorem Parser.run_of_reads {α : Type} {p : Parser α} {text : String} {rest : List Char}
    {accept : α → Prop} (h : Reads p .spaced text.toList rest accept) (name : String) :
    ∃ value, p.run name text = .ok value ∧ accept value := by
  obtain ⟨⟨value, next, fault⟩, hfound, -, hfault, haccept⟩ := h Mark.start
  obtain rfl : fault = none := hfault
  have hreply : p .spaced (Cursor.ofText text.toList) =
      ⟨some ⟨value, next, none⟩, (p .spaced (Cursor.ofText text.toList)).furthest⟩ := by
    rw [← hfound]
    rfl
  refine ⟨value, ?_, haccept⟩
  unfold run
  dsimp only
  rw [hreply]

theorem TypeExpr.parse_render {qualify : Qualifier} {names : Naming}
    {change : PackageRef → PackageRef} {type : Descriptor}
    (h : type.Plain (NameWritten qualify names change) false) :
    ∃ expr, TypeExpr.parse (type.render qualify) = .ok expr ∧
      expr.read names = some (type.normal change) := by
  obtain ⟨last, hlast, hread⟩ := readsBack_typeExpr h (show Closes [] from trivial)
  have hskips := Descriptor.skipBlanks_render h []
  have hgap := reads_gap last
  rw [List.append_nil] at hread hskips
  rw [hlast, skipBlanks_nil] at hgap
  have hend : Reads (Parser.rule .endOfInput atEnd) .spaced [] [] fun _ => True :=
    (Reads.ahead rfl).rule
  have hlone : Reads loneType .spaced (type.render qualify).toList []
      fun expr => expr.read names = some (type.normal change) := by
    refine Reads.rule ((reads_gap_none hskips).bind fun _ _ => hread.bind fun expr hexpr => ?_)
    refine hgap.bind fun _ _ => hend.bind fun _ _ => (Reads.pure _).weaken fun found hfound => ?_
    rw [hfound]
    exact hexpr
  exact Parser.run_of_reads hlone _

end GoTrace
