import GoTrace.Proofs.Grammar.TypeText

/-!
# Where signatures are read

Lists of parameters, results in each of their three forms, and the two types in braces that can be
empty.
-/

namespace GoTrace.Grammar

open GoTrace.Lexeme GoTrace.Parser

variable {text middle rest : List Char} {type : Parser TypeExpr}

/-! ## Lists of parameters -/

def nextParameter (type : Parser TypeExpr) : Parser Field := do
  mark ","
  gap
  let _ ← optional newlines
  gap
  parameterDecl type

theorem reads_variadicMark_dots (rest : List Char) :
    Reads variadicMark .spaced ("...".toList ++ rest) rest (· = true) := by
  refine (Reads.literal "..." rest).rule.optional_some.bind fun dots hdots => ?_
  obtain ⟨found, rfl, -⟩ := hdots
  exact Reads.pure _

theorem reads_variadicMark_none (h : "...".toList.isPrefixOf text = false) :
    Reads variadicMark .spaced text text (· = false) := by
  refine (Reads.optional_none (Refuses.literal h).rule).bind fun dots hdots => ?_
  rw [hdots]
  exact Reads.pure _

theorem noDots_of_head? (h : text.head? ≠ some '.') : "...".toList.isPrefixOf text = false := by
  cases text with
  | nil => rfl
  | cons c rest =>
      have hne : ('.' == c) = false := by
        rw [beq_eq_false_iff_ne]
        rintro rfl
        exact h rfl
      change ('.' == c && _) = false
      rw [hne, Bool.false_and]

theorem refuses_parameterDecl (h : Refuses type .spaced text) (hword : identifier? text = none)
    (hsolid : skipBlanks text = text) (hdot : text.head? ≠ some '.') :
    Refuses (parameterDecl type) .spaced text := by
  refine Refuses.bind_left (Refuses.spanned (Refuses.rule (.orElse ?_ ?_)))
  · exact ((refuses_identifier hword).bind_left.rule).bind_left
  · have hdots := reads_variadicMark_none (noDots_of_head? hdot)
    exact Refuses.bind hdots fun _ _ => Refuses.bind (reads_gap_none hsolid) fun _ _ => h.bind_left

theorem reads_parameters_nil (h : Refuses type .spaced (')' :: rest)) :
    Reads (parameters type) .spaced ('(' :: ')' :: rest) rest (· = []) := by
  have hclose : skipBlanks (')' :: rest) = ')' :: rest := skipBlanks_of_isSolid (by decide) rest
  have hgap := reads_gap_none hclose
  have hnewlines : Refuses newlines .spaced (')' :: rest) := refuses_newlines rfl
  have hdecl := refuses_parameterDecl h (identifier?_cons (by decide) rest) hclose
    (head?_ne rfl (by decide))
  refine Reads.rule ((reads_mark rfl (')' :: rest)).bind fun _ _ => hgap.bind fun _ _ => ?_)
  refine (Reads.optional_none hnewlines).bind fun _ _ => hgap.bind fun _ _ => ?_
  refine (Reads.optional_none hdecl.bind_left).bind fun fields hfields => hgap.bind fun _ _ => ?_
  refine (Reads.optional_none hnewlines).bind fun _ _ => hgap.bind fun _ _ => ?_
  refine (reads_mark rfl rest).bind fun _ _ => ?_
  rw [hfields]
  exact Reads.pure _

/-! ## Results -/

theorem refuses_parameters (h : text.head? ≠ some '(') : Refuses (parameters type) .spaced text :=
  ((refuses_mark rfl h).bind_left).rule

theorem refuses_results (h : Refuses type .spaced text) (hparen : text.head? ≠ some '(') :
    Refuses (results type) .spaced text :=
  Refuses.rule (.orElse (refuses_parameters hparen) (h.spanned.bind_left))

theorem reads_results_one {accept : TypeExpr → Prop} (h : Reads type .spaced text rest accept)
    (hparen : text.head? ≠ some '(') :
    Reads (results type) .spaced text rest
      fun found => ∃ field, found = [field] ∧ field.names = [] ∧ accept field.type := by
  refine Reads.rule (.orElse_right (refuses_parameters hparen) ?_)
  refine h.spanned.bind fun value hvalue => ?_
  exact (Reads.pure _).weaken fun found hfound => ⟨_, hfound, rfl, hvalue⟩

theorem reads_results_list {accept : List Field → Prop}
    (h : Reads (parameters type) .spaced text rest accept) :
    Reads (results type) .spaced text rest accept :=
  Reads.rule (.orElse_left h)

theorem reads_signature {params : List Field → Prop} {results : Option (List Field) → Prop}
    (hparams : Reads (parameters type) .spaced text middle params)
    (hresults : Reads (optional (Grammar.results type)) .spaced (skipBlanks middle) rest results) :
    Reads (signature type) .spaced text rest fun found =>
      params found.params ∧ ∃ read, results read ∧ found.results = read.getD [] := by
  refine Reads.rule (hparams.bind fun fields hfields => (reads_gap middle).bind fun _ _ => ?_)
  refine hresults.bind fun read hread => (Reads.pure _).weaken fun found hfound => ?_
  rw [hfound]
  exact ⟨hfields, read, hread, rfl⟩

theorem typeWith_func {accept : Signature → Prop}
    (h : Reads (signature type) .spaced ('(' :: text) rest accept) :
    Reads (typeWith type) .spaced ("func".toList ++ '(' :: text) rest
      fun found => ∃ signature, found = .func signature ∧ accept signature := by
  have hne {word : String} (hne : "func".toList ≠ word.toList) :
      wordAhead ("func".toList ++ '(' :: text) ≠ word.toList :=
    wordAhead_ne (by decide) (by decide : isIdentChar '(' = false) hne
  have hopen : skipBlanks ('(' :: text) = '(' :: text := skipBlanks_of_isSolid (by decide) text
  refine Reads.rule (.orElse_right (refuses_pointerType type (head?_ne rfl (by decide))) ?_)
  refine .orElse_right (refuses_sliceType type (head?_ne rfl (by decide))) ?_
  refine .orElse_right (refuses_arrayType type (head?_ne rfl (by decide))) ?_
  refine .orElse_right (refuses_mapType type (hne (by decide))) ?_
  refine .orElse_right (refuses_chanType type (hne (by decide)) (head?_ne rfl (by decide))) ?_
  refine .orElse_left (Reads.rule ?_)
  refine (reads_word text).bind fun _ _ => (reads_gap_none hopen).bind fun _ _ => ?_
  refine h.bind fun signature hsignature => ?_
  exact (Reads.pure _).weaken fun found hfound => ⟨signature, hfound, hsignature⟩

/-! ## Empty braces -/

theorem reads_block_nil {α : Type} {spec : Parser α} (h : Refuses spec .spaced ('\x7d' :: rest)) :
    Reads (block "\x7b" "\x7d" spec) .spaced ('\x7b' :: '\x7d' :: rest) rest (· = []) := by
  have hclose : skipBlanks ('\x7d' :: rest) = '\x7d' :: rest :=
    skipBlanks_of_isSolid (by decide) rest
  have hgap := reads_gap_none hclose
  have hseparator : Refuses separator .spaced ('\x7d' :: rest) :=
    (Refuses.orElse (Refuses.literal rfl) (Refuses.take rfl)).bind_left
  refine (reads_mark rfl ('\x7d' :: rest)).bind fun _ _ => hgap.bind fun _ _ => ?_
  refine (Reads.optional_none hseparator).bind fun _ _ => hgap.bind fun _ _ => ?_
  refine (Reads.optional_none h.bind_left).bind fun specs hspecs => hgap.bind fun _ _ => ?_
  refine (Reads.optional_none hseparator).bind fun _ _ => hgap.bind fun _ _ => ?_
  refine (reads_mark rfl rest).bind fun _ _ => ?_
  rw [hspecs]
  exact Reads.pure _

theorem refuses_interfaceElement (h : Refuses type .spaced text) (hword : identifier? text = none)
    (hsolid : skipBlanks text = text) (htilde : text.head? ≠ some '~') :
    Refuses (interfaceElement type) .spaced text := by
  refine Refuses.bind_left (Refuses.spanned (Refuses.rule (.orElse ?_ ?_)))
  · exact ((refuses_identifier hword).bind_left).rule
  · refine Refuses.bind_left (Refuses.rule (Refuses.bind_left (Refuses.rule ?_)))
    refine Refuses.bind (Reads.optional_none (refuses_mark rfl htilde).rule) fun _ _ => ?_
    exact Refuses.bind (reads_gap_none hsolid) fun _ _ => h.bind_left

theorem refuses_fieldDecl (hword : identifier? text = none) (hsolid : skipBlanks text = text)
    (hstar : text.head? ≠ some '*') : Refuses (fieldDecl type) .spaced text := by
  refine Refuses.bind_left (Refuses.spanned (Refuses.rule (Refuses.bind_left (.orElse ?_ ?_))))
  · exact ((refuses_identifier hword).bind_left.rule.bind_left).rule
  · refine Refuses.rule ?_
    refine Refuses.bind (Reads.optional_none (refuses_mark rfl hstar).rule) fun _ _ => ?_
    exact Refuses.bind (reads_gap_none hsolid) fun _ _ => (refuses_typeName type hword).bind_left

theorem typeWith_interface (h : Refuses type .spaced ('\x7d' :: rest)) :
    Reads (typeWith type) .spaced ("interface".toList ++ '\x7b' :: '\x7d' :: rest) rest
      (· = .interface []) := by
  have hne {word : String} (hne : "interface".toList ≠ word.toList) :
      wordAhead ("interface".toList ++ '\x7b' :: '\x7d' :: rest) ≠ word.toList :=
    wordAhead_ne (by decide) (by decide : isIdentChar '\x7b' = false) hne
  have hopen : skipBlanks ('\x7b' :: '\x7d' :: rest) = '\x7b' :: '\x7d' :: rest :=
    skipBlanks_of_isSolid (by decide) _
  have helement := refuses_interfaceElement h (identifier?_cons (by decide) rest)
    (skipBlanks_of_isSolid (by decide) rest) (head?_ne rfl (by decide))
  refine Reads.rule (.orElse_right (refuses_pointerType type (head?_ne rfl (by decide))) ?_)
  refine .orElse_right (refuses_sliceType type (head?_ne rfl (by decide))) ?_
  refine .orElse_right (refuses_arrayType type (head?_ne rfl (by decide))) ?_
  refine .orElse_right (refuses_mapType type (hne (by decide))) ?_
  refine .orElse_right (refuses_chanType type (hne (by decide)) (head?_ne rfl (by decide))) ?_
  refine .orElse_right (refuses_funcType type (hne (by decide))) ?_
  refine .orElse_left (Reads.rule ?_)
  refine (reads_word ('\x7d' :: rest)).bind fun _ _ => (reads_gap_none hopen).bind fun _ _ => ?_
  refine (reads_block_nil helement).bind fun elements helements => ?_
  rw [helements]
  exact Reads.pure _

theorem typeWith_struct {c : Char} (hc : isIdentChar c = false)
    (htext : skipBlanks (c :: text) = middle) {accept : List Field → Prop}
    (h : Reads (block "\x7b" "\x7d" (fieldDecl type)) .spaced middle rest accept) :
    Reads (typeWith type) .spaced ("struct".toList ++ c :: text) rest
      fun found => ∃ fields, found = .struct fields ∧ accept fields := by
  have hne {word : String} (hne : "struct".toList ≠ word.toList) :
      wordAhead ("struct".toList ++ c :: text) ≠ word.toList :=
    wordAhead_ne (by decide) hc hne
  have hgap := reads_gap (c :: text)
  rw [htext] at hgap
  refine Reads.rule (.orElse_right (refuses_pointerType type (head?_ne rfl (by decide))) ?_)
  refine .orElse_right (refuses_sliceType type (head?_ne rfl (by decide))) ?_
  refine .orElse_right (refuses_arrayType type (head?_ne rfl (by decide))) ?_
  refine .orElse_right (refuses_mapType type (hne (by decide))) ?_
  refine .orElse_right (refuses_chanType type (hne (by decide)) (head?_ne rfl (by decide))) ?_
  refine .orElse_right (refuses_funcType type (hne (by decide))) ?_
  refine .orElse_right (refuses_interfaceType type (hne (by decide))) ?_
  refine .orElse_left (Reads.rule ?_)
  refine (reads_word text (by decide) hc).bind fun _ _ => hgap.bind fun _ _ => ?_
  refine h.bind fun fields hfields => ?_
  exact (Reads.pure _).weaken fun found hfound => ⟨fields, hfound, hfields⟩

theorem typeWith_emptyStruct (rest : List Char) :
    Reads (typeWith type) .spaced ("struct".toList ++ '\x7b' :: '\x7d' :: rest) rest
      (· = .struct []) := by
  have hfield : Refuses (fieldDecl type) .spaced ('\x7d' :: rest) :=
    refuses_fieldDecl (identifier?_cons (by decide) rest) (skipBlanks_of_isSolid (by decide) rest)
      (head?_ne rfl (by decide))
  refine (typeWith_struct (by decide) (skipBlanks_of_isSolid (by decide) _)
    (reads_block_nil hfield)).weaken fun found hfound => ?_
  obtain ⟨fields, rfl, rfl⟩ := hfound
  rfl

end GoTrace.Grammar
