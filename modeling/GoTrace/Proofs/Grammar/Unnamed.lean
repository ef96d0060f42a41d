import GoTrace.Proofs.Grammar.Listing
import GoTrace.Proofs.Grammar.ParameterNames

/-!
# Types that are not taken for names

In a list of types the names end in front of a type that is no bare name, or at the end of the list, and
no type follows them there. So none of the types is read as a name.
-/

namespace GoTrace.Grammar

open GoTrace.Lexeme GoTrace.Parser GoTrace.Descriptor

variable {qualify : Qualifier} {names : Naming} {change : PackageRef → PackageRef}
  {parser : Parser TypeExpr} {text : List Char} {isParam : Bool}

theorem noDots_selector {name : String} (h : IsIdentifier name) (rest : List Char) :
    "...".toList.isPrefixOf ('.' :: (name.toList ++ rest)) = false := by
  obtain ⟨c, tail, heq, hstart⟩ := h.exists_cons
  have hne : ('.' == c) = false := by
    rw [beq_eq_false_iff_ne]
    rintro rfl
    exact absurd hstart (by decide)
  rw [heq]
  change ('.' == '.' && ('.' == c && _)) = false
  rw [hne, Bool.false_and, Bool.and_false]

theorem refuses_namedDecl (h : identifier? text = none) :
    Refuses (namedDecl parser) .spaced text :=
  ((refuses_identifier h).bind_left.rule).bind_left

section

variable (hrefuses : ∀ text, NoType text → Refuses parser .spaced text)

include hrefuses

theorem refuses_slotType_cons {c : Char} (hsolid : isSolid c = true) (hstarts : startsNoType c = true)
    (hdot : c ≠ '.') (rest : List Char) : Refuses (slotType parser) .spaced (c :: rest) :=
  refuses_slotType (hrefuses _ hstarts) (skipBlanks_of_isSolid hsolid rest)
    (noDots_of_head? (head?_ne rfl hdot))

/-- A name in front of a mark at which no type starts is not the name of a parameter. -/
theorem refuses_namedDecl_mark {name : String} (hname : IsIdentifier name) (hstops : StopsWord text)
    {c : Char} {rest : List Char} (htext : skipBlanks text = c :: rest) (hstarts : startsNoType c = true)
    (hcomma : c ≠ ',') (hdot : c ≠ '.') :
    Refuses (namedDecl parser) .spaced (name.toList ++ text) := by
  refine refuses_namedDecl_stop hname hstops ?_ ?_
  · rw [htext]
    exact (refuses_mark rfl (head?_ne rfl hcomma)).bind_left
  · refine refuses_slotType ?_ (skipBlanks_skipBlanks text) ?_
    · rw [htext]
      exact hrefuses _ hstarts
    · rw [htext]
      exact noDots_of_head? (head?_ne rfl hdot)

theorem refuses_namedDecl_render {slot : Descriptor}
    (hslot : slot.Plain (NameWritten qualify names change) isParam)
    (hname : ∀ package name, slot = .named package name → (package.bind qualify).isSome = true)
    (more : List Char) :
    Refuses (namedDecl parser) .spaced ((slot.render qualify).toList ++ more) := by
  by_cases hnamed : ∃ package name, slot = .named package name
  · obtain ⟨package, name, rfl⟩ := hnamed
    obtain ⟨aliasName, hqualify⟩ := Option.isSome_iff_exists.mp (hname package name rfl)
    have hsolid : skipBlanks ('.' :: (name.toList ++ more)) = '.' :: (name.toList ++ more) :=
      skipBlanks_of_isSolid (by decide) _
    rw [toList_render_named_dotted name hqualify, List.append_assoc]
    refine refuses_namedDecl_stop (hslot.aliasName aliasName hqualify)
      (by decide : isIdentChar '.' = false) ?_ ?_
    · rw [List.cons_append, hsolid]
      exact (refuses_mark rfl (head?_ne rfl (by decide))).bind_left
    · rw [List.cons_append, hsolid]
      exact refuses_slotType (hrefuses _ (by decide : startsNoType '.' = true)) hsolid
        (noDots_selector hslot.identifier more)
  · exact refuses_namedDecl
      (identifier?_render hslot more fun package name heq => hnamed ⟨package, name, heq⟩)

theorem refuses_namedDecl_slot {slot : Descriptor}
    (hslot : slot.Plain (NameWritten qualify names change) isParam) {more : List Char}
    (hname : ∀ name, IsIdentifier name → Refuses (namedDecl parser) .spaced (name.toList ++ more)) :
    Refuses (namedDecl parser) .spaced ((slot.render qualify).toList ++ more) := by
  by_cases hbare : ∃ package name, slot = .named package name ∧ package.bind qualify = none
  · obtain ⟨package, name, rfl, hqualify⟩ := hbare
    rw [toList_render_named_bare name hqualify]
    exact hname name hslot.identifier
  · refine refuses_namedDecl_render hrefuses hslot (fun package name heq => ?_) more
    rw [Option.isSome_iff_ne_none]
    exact fun hqualify => hbare ⟨package, name, heq, hqualify⟩

theorem refuses_namedDecl_slots {slot : Descriptor}
    (hslot : slot.Plain (NameWritten qualify names change) isParam) {slots : List Parameter}
    (hslots : PlainAll (NameWritten qualify names change) isParam slots) (rest : List Char) :
    Refuses (namedDecl parser) .spaced
      ((slot.render qualify).toList ++ listTail (slotTexts qualify slots) (')' :: rest)) := by
  induction slots generalizing slot with
  | nil =>
      refine refuses_namedDecl_slot hrefuses hslot fun name hname => ?_
      exact refuses_namedDecl_mark hrefuses hname (by decide : isIdentChar ')' = false)
        (skipBlanks_of_isSolid (by decide) rest) (by decide) (by decide) (by decide)
  | cons next slots ih =>
      obtain ⟨hnext, hslots⟩ := hslots
      refine refuses_namedDecl_slot hrefuses hslot fun name hname => ?_
      rw [slotTexts_cons, listTail]
      refine refuses_namedDecl_comma hname (by decide : isIdentChar ',' = false)
        (skipBlanks_of_isSolid (by decide) _) (hrefuses _ (by decide : startsNoType ',' = true)) ?_
      rw [skipBlanks_space, skipBlanks_render hnext]
      exact ih hnext hslots

end

end GoTrace.Grammar
