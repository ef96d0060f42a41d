import GoTrace.Proofs.Grammar.Locality

/-!
# The grammar at two places

Every rule reads the same of a text wherever the text stands, and finds the same but for its spans. A
whole text is a part with nothing behind it, so this is a case of what is known of parts; only words and
groups, which a part has to end in, are followed here.
-/

namespace GoTrace.Parser

variable {α : Type} [Placed α] {p q : Parser α} {size : Nat}

def atEndOfText (behind : List Char) : Prop := behind = []

theorem Agree.toLocal [Advances p] (h : Agree p q) : Local atEndOfText size anyText anyText p q := by
  rintro text - - _ _ rfl rfl mode start start'
  rw [List.append_nil]
  obtain ⟨hnone, hnone'⟩ | ⟨found, found', hfound, hfound', halike⟩ :=
    h.found mode ⟨text, start⟩ ⟨text, start'⟩ rfl
  · rw [hnone, hnone']
    exact .none
  · rw [hfound, hfound']
    have hle := (Advances.precedes hfound).length_le
    refine .some ⟨halike.value, halike.fault, found.next.rest, trivial, hle, ?_, ?_⟩
    · rw [List.append_nil]
    · rw [List.append_nil, halike.rest]

theorem Agree.of_local (h : ∀ size, Local atEndOfText size anyText anyText p q) : Agree p q := by
  intro mode text start start'
  obtain ⟨hnone, hnone'⟩ | ⟨_, _, _, _, _, _, _, hfound, hfound', -, -, hvalue, hfault⟩ :=
    (h text.length).found (trivial : anyText text) (Nat.le_refl _) (rfl : atEndOfText [])
      (rfl : atEndOfText []) mode start start'
  · rw [List.append_nil] at hnone hnone'
    rw [hnone, hnone']
    exact .none
  · rw [List.append_nil] at hfound hfound'
    rw [hfound, hfound']
    exact .some ⟨hvalue, rfl, hfault⟩

end GoTrace.Parser

namespace GoTrace.Grammar

open GoTrace.Parser

/-! ## Words and groups -/

variable {α : Type} [Placed α] {p : Parser α}

theorem gap_agree : Agree gap gap := .gapBy _

theorem mark_agree (text : String) : Agree (mark text) (mark text) := .take _

theorem stringLiteral_agree : Agree stringLiteral stringLiteral :=
  .tight (.rule (.captured (.orElse (.rule (.take _)) (.rule (.take _)))))

theorem bracketed_agree {inside : Parser Unit} (h : Agree inside inside) (opening closing : String) :
    Agree (bracketed inside opening closing) (bracketed inside opening closing) :=
  (mark_agree opening).after fun _ _ => h.after fun _ _ => mark_agree closing

theorem enclosedWith_agree {inside : Parser Unit} (h : Agree inside inside) :
    Agree (enclosedWith inside) (enclosedWith inside) := by
  refine .orElse (bracketed_agree h "(" ")") (.orElse (bracketed_agree h "[" "]") ?_)
  refine .orElse (bracketed_agree h "\x7b" "\x7d") (.orElse ?_ (.take _))
  exact stringLiteral_agree.after fun _ _ => .pure rfl

theorem groupPieceUpTo_agree (depth : Nat) :
    Agree (groupPieceUpTo depth) (groupPieceUpTo depth) := by
  induction depth with
  | zero => exact fun _ _ _ _ => .none
  | succ depth ih =>
      have hpiece := (enclosedWith_agree ih.skipMany).orElse
        ((Agree.take Lexeme.lineComment?).orElse ((Agree.take Lexeme.blockComment?).orElse
          (Agree.take (Lexeme.one? fun c => !([')', ']', '}'].contains c)))))
      exact fun mode text start start' => hpiece mode text start start'

theorem groupInside_agree : Agree groupInside groupInside :=
  fun mode text start start' => (groupPieceUpTo_agree _).skipMany mode text start start'

theorem enclosed_agree : Agree enclosed enclosed := enclosedWith_agree groupInside_agree

theorem plainExcept_agree (stops : List Char) : Agree (plainExcept stops) (plainExcept stops) :=
  .take _

theorem textOf_agree {p : Parser Unit} (h : Agree p p) : Agree (textOf p) (textOf p) :=
  .hidden (.captured (h.after fun _ _ => h.skipMany))

theorem lengthPiece_agree : Agree lengthPiece lengthPiece :=
  (bracketed_agree groupInside_agree "(" ")").orElse
    ((bracketed_agree groupInside_agree "[" "]").orElse (.take _))

def wholeTexts : Landscape where
  behind := atEndOfText
  part _ _ := anyText
  stopped _ _ := anyText
  part_free := id
  stopped_of_part := id
  blanks := gap_agree.toLocal
  sign _ := (mark_agree _).toLocal
  equals := (mark_agree _).toLocal
  opening _ _ := (mark_agree _).toLocal
  closing _ _ := (mark_agree _).toLocal
  ident := (Agree.take _).toLocal
  word _ := (Agree.take _).toLocal
  lineEnd := (Agree.take _).toLocal
  semicolon := (Agree.take _).toLocal
  quoted := (Agree.take _).toLocal
  raw := (Agree.take _).toLocal
  closes := (Agree.ahead _).toLocal
  length _ := (textOf_agree lengthPiece_agree).toLocal
  stopped_blanks := gap_agree.toLocal
  stopped_closing := (mark_agree _).toLocal
  piece _ := (textOf_agree (enclosed_agree.orElse (plainExcept_agree _))).toLocal

/-- What keeps to the brackets of a part reads the same of a text wherever it stands. -/
theorem agree_of_keeps {q : Parser α} (zone : Zone) (marks : List Char)
    (h : ∀ size, wholeTexts.Keeps size zone marks p q) : Agree p q :=
  .of_local h

/-! ## Declarations -/

theorem separator_agree : Agree separator separator :=
  agree_of_keeps .free ['('] fun _ => wholeTexts.separator_local

theorem identifier_agree : Agree identifier identifier :=
  agree_of_keeps .free [] fun _ => wholeTexts.identifier_local

theorem typeParams_agree : Agree typeParams typeParams :=
  agree_of_keeps .typed [] fun _ => wholeTexts.typeParams_local (by decide)

theorem parameters_agree : Agree (parameters typeExpr) (parameters typeExpr) :=
  agree_of_keeps .typed [] fun _ =>
    wholeTexts.parameters_local fun _ => wholeTexts.typeExpr_local (by decide)

theorem signature_agree : Agree (signature typeExpr) (signature typeExpr) :=
  agree_of_keeps .typed [] fun _ =>
    wholeTexts.signature_local fun _ => wholeTexts.typeExpr_local (by decide)

theorem keyword_agree (name : Rule) (word : String) : Agree (keyword name word) (keyword name word) :=
  .rule (.take _)

theorem specs_agree [Advances p] (decl word : Rule) (text : String) (h : Agree p p) :
    Agree (specs decl word text p) (specs decl word text p) := by
  have hblock : Agree (block "(" ")" p) (block "(" ")" p) :=
    agree_of_keeps .free [] fun _ =>
      wholeTexts.block_local rfl rfl (by decide : ('(', ')') ∈ groupMarks) h.toLocal
  refine .rule ((keyword_agree _ _).after fun _ _ => gap_agree.after fun _ _ => ?_)
  exact .orElse hblock (h.bind fun _ _ heq => .pure (bare_cons_congr heq rfl))

theorem importDecl_agree : Agree importDecl importDecl :=
  specs_agree _ _ _ (agree_of_keeps .free [] fun _ => wholeTexts.importSpec_local)

theorem funcBody_agree : Agree funcBody funcBody :=
  .rule (.hidden (bracketed_agree groupInside_agree _ _))

theorem funcDecl_agree : Agree funcDecl funcDecl := by
  refine .bind (.spanned (.rule ((keyword_agree _ _).after fun _ _ => gap_agree.after fun _ _ => ?_))) ?_
  · refine .bind (.optional (.rule parameters_agree)) fun _ _ hreceiver => ?_
    refine gap_agree.after fun _ _ => ?_
    refine identifier_agree.bind fun _ _ hname => gap_agree.after fun _ _ => ?_
    refine typeParams_agree.optional.bind fun _ _ hparams => gap_agree.after fun _ _ => ?_
    refine signature_agree.bind fun _ _ hsignature => gap_agree.after fun _ _ => ?_
    refine funcBody_agree.optional.bind fun _ _ hbody => .pure ?_
    exact bare_pair_congr hreceiver (bare_pair_congr hname (bare_pair_congr (bare_getD hparams)
      (bare_pair_congr hsignature (bare_isSome hbody))))
  · rintro ⟨⟨receiver, name, params, signature, body⟩, span⟩
      ⟨⟨receiver', name', params', signature', body'⟩, span'⟩ heq
    obtain ⟨hreceiver, hothers⟩ := eq_of_bare_pair (eq_of_bare_pair heq).1
    obtain ⟨hname, hothers⟩ := eq_of_bare_pair hothers
    obtain ⟨hparams, hothers⟩ := eq_of_bare_pair hothers
    obtain ⟨hsignature, hbody⟩ := eq_of_bare_pair hothers
    rw [bare_bool, bare_bool] at hbody
    refine .pure ?_
    change FuncDecl.mk (bare receiver) (bare name) (bare params) (bare signature) body default = _
    rw [hreceiver, hname, hparams, hsignature, hbody]
    rfl

theorem topLevelDecl_agree : Agree topLevelDecl topLevelDecl := by
  have htype : Agree typeSpec typeSpec := .of_local fun _ => wholeTexts.typeSpec_local
  have hconst : Agree constSpec constSpec := .of_local fun _ => wholeTexts.constSpec_local
  have hvar : Agree varSpec varSpec := .of_local fun _ => wholeTexts.varSpec_local
  refine .orElse ?_ (.orElse ?_ (.orElse ?_ ?_))
  · exact (specs_agree _ _ _ htype).bind fun _ _ heq =>
      .pure (bare_map_congr Declaration.type (fun _ => rfl) heq)
  · exact (specs_agree _ _ _ hconst).bind fun _ _ heq =>
      .pure (bare_map_congr Declaration.const (fun _ => rfl) heq)
  · exact (specs_agree _ _ _ hvar).bind fun _ _ heq =>
      .pure (bare_map_congr Declaration.var (fun _ => rfl) heq)
  · exact funcDecl_agree.bind fun _ _ heq =>
      .pure (bare_cons_congr (congrArg Declaration.func heq) rfl)

end GoTrace.Grammar
