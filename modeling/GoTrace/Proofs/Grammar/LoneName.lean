import GoTrace.Proofs.Grammar.Listing
import GoTrace.Proofs.Grammar.Rendered
import GoTrace.Proofs.Parser.Finds

/-!
# Texts that are one name

A text that is read as a name alone, without a package and without type arguments, is one identifier with
blanks and comments around it, and every such text is read as that name.
-/

namespace GoTrace

open Lexeme GoTrace.Parser

namespace Grammar

variable {mode : Mode} {cursor next : Cursor} {text : List Char} {package : Option String}
  {name : String} {args : List TypeExpr} (type : Parser TypeExpr)

def Composed : TypeExpr → Prop
  | .name .. => False
  | _ => True

theorem finds_typeName (h : Finds (typeWith type) mode cursor (.name package name args) next) :
    Finds (typeName type) mode cursor (.name package name args) next := by
  have hpointer : Yields (pointerType type) Composed :=
    .rule (.after fun _ => .after fun _ => .after fun _ => .pure trivial)
  have hslice : Yields (sliceType type) Composed :=
    .rule (.after fun _ => .after fun _ => .after fun _ => .after fun _ => .after fun _ => .pure trivial)
  have harray : Yields (arrayType type) Composed :=
    .rule (.after fun _ => .after fun _ => .after fun _ => .after fun _ => .after fun _ =>
      .after fun _ => .after fun _ => .pure trivial)
  have hmap : Yields (mapType type) Composed :=
    .rule (.after fun _ => .after fun _ => .after fun _ => .after fun _ => .after fun _ =>
      .after fun _ => .after fun _ => .after fun _ => .after fun _ => .pure trivial)
  have hchan : Yields (chanType type) Composed :=
    .rule (.orElse
      (.rule (.after fun _ => .after fun _ => .after fun _ => .after fun _ => .after fun _ =>
        .pure trivial))
      (.orElse
        (.rule (.after fun _ => .after fun _ => .after fun _ => .after fun _ => .after fun _ =>
          .pure trivial))
        (.rule (.after fun _ => .after fun _ => .after fun _ => .pure trivial))))
  have hfunc : Yields (funcType type) Composed :=
    .rule (.after fun _ => .after fun _ => .after fun _ => .pure trivial)
  have hinterface : Yields (interfaceType type) Composed :=
    .rule (.after fun _ => .after fun _ => .after fun _ => .pure trivial)
  have hstruct : Yields (structType type) Composed :=
    .rule (.after fun _ => .after fun _ => .after fun _ => .pure trivial)
  have hparen : Yields (parenType type) Composed :=
    .rule (.after fun _ => .after fun _ => .after fun _ => .after fun _ => .after fun _ => .pure trivial)
  have hname : ¬ Composed (.name package name args) := id
  -- each step leaves one rule less that the name could come from
  have h := h.of_rule.of_orElse_yields hpointer hname
  have h := h.of_orElse_yields hslice hname
  have h := h.of_orElse_yields harray hname
  have h := h.of_orElse_yields hmap hname
  have h := h.of_orElse_yields hchan hname
  have h := h.of_orElse_yields hfunc hname
  have h := h.of_orElse_yields hinterface hname
  have h := h.of_orElse_yields hstruct hname
  exact h.of_orElse_yields hparen hname

theorem finds_identifier {start : Mark} {ident : Ident}
    (h : Finds identifier mode ⟨text, start⟩ ident next) :
    IsIdentifier ident.name ∧ text = ident.name.toList ++ next.rest := by
  cases hcount : identifier? text with
  | none =>
      rw [Finds, refuses_identifier hcount start] at h
      cases h
  | some count =>
      obtain ⟨name, rest, hname, hstops, rfl⟩ := exists_append_of_identifier? hcount
      obtain ⟨hrest, rfl⟩ := h.of_reads (reads_identifier hname hstops)
      exact ⟨hname, by rw [hrest]⟩

theorem listed_yields {α : Type} (opening closing : String) (part : Parser α) :
    Yields (listed opening closing part) (· ≠ []) :=
  .after fun _ => .after fun _ => .after fun _ => .after fun _ => .after fun _ => .after fun _ =>
    .after fun _ => .after fun _ => .after fun _ => .after fun _ => .after fun _ => .after fun _ =>
      .after fun _ => .pure (List.cons_ne_nil _ _)

theorem finds_typeName_bare {start : Mark}
    (h : Finds (typeName type) .spaced ⟨text, start⟩ (.name none name []) next) :
    IsIdentifier name ∧ ∃ rest, text = name.toList ++ rest ∧ next.rest = skipBlanks rest := by
  obtain ⟨⟨package, found⟩, middle, hqualified, hbehind⟩ := h.of_rule.of_bind
  obtain ⟨_, last, hgap, hmore⟩ := hbehind.of_bind
  obtain ⟨args, other, hargs, hpure⟩ := hmore.of_bind
  obtain ⟨hvalue, rfl⟩ := hpure.of_pure
  obtain ⟨rfl, rfl, hnil⟩ := TypeExpr.name.inj hvalue
  obtain ⟨hname, htext⟩ : IsIdentifier name ∧ text = name.toList ++ middle.rest := by
    obtain ⟨ident, behind, hident, hdotted⟩ := hqualified.of_tight.of_rule.of_bind
    obtain ⟨second, behind', hsecond, hpair⟩ := hdotted.of_bind
    rcases hsecond.of_optional with ⟨dotted, rfl, -⟩ | ⟨rfl, rfl⟩
    · exact nomatch hpair.of_pure.1
    · obtain ⟨heq, rfl⟩ := hpair.of_pure
      obtain ⟨-, rfl⟩ := Prod.mk.inj heq
      exact finds_identifier hident
  have hlast : last.rest = skipBlanks middle.rest := (hgap.of_reads (reads_gap middle.rest)).1
  rcases hargs.of_optional with ⟨values, rfl, hvalues⟩ | ⟨-, rfl⟩
  · exact absurd hnil.symm (listed_yields _ _ type hvalues.of_rule)
  · exact ⟨hname, middle.rest, htext, hlast⟩

theorem typeExpr_apply (mode : Mode) (cursor : Cursor) :
    typeExpr mode cursor = typeWith (typeUpTo cursor.rest.length) mode cursor := rfl

theorem finds_typeWith {expr : TypeExpr} (h : Finds typeExpr mode cursor expr next) :
    Finds (typeWith (typeUpTo cursor.rest.length)) mode cursor expr next := by
  rwa [Finds, typeExpr_apply] at h

theorem finds_atEnd {value : Unit} (h : Finds atEnd mode cursor value next) : cursor.rest = [] := by
  rw [Finds, atEnd, found_ahead, Option.ite_none_right_eq_some] at h
  cases hrest : cursor.rest with
  | nil => rfl
  | cons c rest =>
      rw [hrest] at h
      exact absurd h.1 Bool.false_ne_true

/-- One identifier, with blanks and comments around it or not. -/
def Surrounded (name : String) (text : List Char) : Prop :=
  IsIdentifier name ∧ ∃ rest, skipBlanks text = name.toList ++ rest ∧ skipBlanks rest = []

theorem not_isSolid_of_skipBlanks {rest : List Char} (h : skipBlanks rest = []) :
    ∀ c ∈ rest.head?, isSolid c = false := by
  cases rest with
  | nil => nofun
  | cons first others =>
      intro c hc
      cases hc
      cases hsolid : isSolid first with
      | false => rfl
      | true =>
          rw [skipBlanks_of_isSolid hsolid] at h
          cases h

theorem stopsWord_of_skipBlanks {rest : List Char} (h : skipBlanks rest = []) : StopsWord rest := by
  cases rest with
  | nil => trivial
  | cons c others =>
      cases hc : isIdentChar c with
      | false => exact hc
      | true =>
          have hsolid := not_isSolid_of_skipBlanks h c rfl
          exact absurd ((Descriptor.isSolid_of_isIdentChar hc).symm.trans hsolid) (by decide)

theorem reads_typeExpr_blanks (hname : IsIdentifier name) {rest : List Char}
    (hrest : skipBlanks rest = []) :
    Reads typeExpr .spaced (name.toList ++ rest) [] (· = .name none name []) := by
  have hstops := stopsWord_of_skipBlanks hrest
  have hdot : rest.head? ≠ some '.' :=
    fun hhead => absurd (not_isSolid_of_skipBlanks hrest '.' hhead) (by decide)
  have hident : Reads qualifiedIdent .spaced (name.toList ++ rest) rest (· = (none, name)) :=
    reads_qualifiedIdent_bare hname hstops hdot
  have hbracket : (skipBlanks rest).head? ≠ some '[' := by
    rw [hrest]
    nofun
  have htype := reads_typeName (typeUpTo (name.toList ++ rest).length) hident hbracket
  rw [hrest] at htype
  exact fun start => typeWith_of_identifier _ htype (hname.identifier?_append hstops) start

end Grammar

open Grammar

/-- A text is read as a name alone if and only if it is that name, with blanks and comments around it or
not. -/
theorem TypeExpr.parse_eq_name_iff {text name : String} :
    TypeExpr.parse text = .ok (.name none name []) ↔ Surrounded name text.toList := by
  constructor
  · intro h
    obtain ⟨next, hfinds⟩ := finds_of_run h
    obtain ⟨_, first, hfront, hmore⟩ := hfinds.of_rule.of_bind
    obtain ⟨found, middle, htype, hbehind⟩ := hmore.of_bind
    obtain ⟨_, last, hback, hrest⟩ := hbehind.of_bind
    obtain ⟨_, ending, hend, hpure⟩ := hrest.of_bind
    obtain ⟨rfl, rfl⟩ := hpure.of_pure
    have hfirst : first.rest = skipBlanks text.toList := (hfront.of_reads (reads_gap text.toList)).1
    obtain ⟨hname, rest, htext, hmiddle⟩ :=
      finds_typeName_bare _ (finds_typeName _ (finds_typeWith htype))
    have hlast : last.rest = skipBlanks middle.rest := (hback.of_reads (reads_gap middle.rest)).1
    rw [hmiddle, skipBlanks_skipBlanks] at hlast
    rw [hfirst] at htext
    exact ⟨hname, rest, htext, hlast.symm.trans (finds_atEnd hend.of_rule)⟩
  · rintro ⟨hname, rest, htext, hrest⟩
    have hfront := reads_gap text.toList
    have hback := reads_gap []
    rw [htext] at hfront
    rw [skipBlanks_nil] at hback
    have hend : Reads (Parser.rule .endOfInput atEnd) .spaced [] [] fun _ => True :=
      (Reads.ahead rfl).rule
    have hlone : Reads loneType .spaced text.toList [] (· = .name none name []) := by
      refine Reads.rule (hfront.bind fun _ _ => (reads_typeExpr_blanks hname hrest).bind ?_)
      refine fun found hfound => hback.bind fun _ _ => hend.bind fun _ _ => ?_
      exact (Reads.pure _).weaken fun value hvalue => by rw [hvalue, hfound]
    obtain ⟨value, hrun, rfl⟩ := Parser.run_of_reads hlone ParseError.unnamedSource
    exact hrun

end GoTrace
