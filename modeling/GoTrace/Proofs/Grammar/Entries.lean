import GoTrace.Proofs.Grammar.Rendered

/-!
# Entries of a list of parameters

What can stand between the commas of a list of parameters: names, names with a type and types alone, with
blanks, comments and line ends around them. An entry is any text that is read as the same type whatever
stands behind it. Not every type is such a text: the length of an array may have a bracket that is never
closed, and how far it is read then depends on the text behind the type.
-/

namespace GoTrace.Grammar

open GoTrace.Lexeme GoTrace.Parser GoTrace.Descriptor

/-! ## What stands between the words of a list -/

/-- Blanks and comments on one line. -/
structure Gap where
  chars : List Char
  skips : ∀ more, skipBlanks (chars ++ more) = skipBlanks more

namespace Gap

theorem starts (gap : Gap) (rest : List Char) :
    gap.chars = [] ∨ ∃ c tail, gap.chars ++ rest = c :: tail ∧ isSolid c = false := by
  obtain ⟨chars, skips⟩ := gap
  cases chars with
  | nil => exact .inl rfl
  | cons c chars =>
      refine .inr ⟨c, _, rfl, ?_⟩
      by_contra hsolid
      have hlength := congrArg List.length (skips rest)
      rw [List.cons_append, skipBlanks_of_isSolid (by simpa using hsolid), List.length_cons,
        List.length_append] at hlength
      have hle := length_skipBlanks_le rest
      omega

theorem stopsWord_append (gap : Gap) {rest : List Char} (h : StopsWord rest) :
    StopsWord (gap.chars ++ rest) := by
  rcases gap.starts rest with hnil | ⟨c, tail, heq, hblank⟩
  · rwa [hnil]
  · rw [heq]
    change isIdentChar c = false
    by_contra hword
    exact absurd (isSolid_of_isIdentChar (by simpa using hword)) (by simp [hblank])

theorem head?_append_ne (gap : Gap) {rest : List Char} {c : Char} (hsolid : isSolid c = true)
    (h : rest.head? ≠ some c) : (gap.chars ++ rest).head? ≠ some c := by
  rcases gap.starts rest with hnil | ⟨d, tail, heq, hblank⟩
  · rwa [hnil]
  · rw [heq]
    refine head?_ne rfl ?_
    rintro rfl
    exact absurd (hsolid.symm.trans hblank) (by decide)

end Gap

/-- Blanks, comments and line ends, as they stand behind a comma. -/
structure Layout where
  chars : List Char
  breaks : Bool
  skips : breaks = false → ∀ start, skipBlanks start = start → skipBlanks (chars ++ start) = start
  ends : breaks = true → ∀ start, skipBlanks start = start → Breaks start (skipBlanks (chars ++ start))

namespace Layout

def level (gap : Gap) : Layout where
  chars := gap.chars
  breaks := false
  skips _ start hsolid := (gap.skips start).trans hsolid
  ends := nofun

theorem breaks_newline (indent : Gap) (layout : Layout) {start : List Char}
    (hsolid : skipBlanks start = start) :
    Breaks start ('\n' :: (indent.chars ++ (layout.chars ++ start))) := by
  have hskips := indent.skips (layout.chars ++ start)
  cases h : layout.breaks with
  | true => exact .again (by rw [hskips]; exact layout.ends h start hsolid)
  | false => exact .last (by rw [hskips]; exact layout.skips h start hsolid)

/-- The layout behind one more line end and the blanks of the next line. -/
def broken (layout : Layout) (indent : Gap) : Layout where
  chars := '\n' :: (indent.chars ++ layout.chars)
  breaks := true
  skips := nofun
  ends _ start hsolid := by
    rw [List.cons_append, List.append_assoc, skipBlanks_of_isSolid (by decide)]
    exact layout.breaks_newline indent hsolid

theorem leads (layout : Layout) {start : List Char} (hsolid : skipBlanks start = start) :
    Leads start (layout.chars ++ start) := by
  cases h : layout.breaks with
  | true => exact .inr (layout.ends h start hsolid)
  | false => exact .inl (layout.skips h start hsolid)

end Layout

/-! ## Entries -/

/-- A text that can stand behind an entry: a comma, the end of the list or the end of a line. -/
def EndsEntry : List Char → Prop
  | c :: _ => c = ',' ∨ c = ')' ∨ c = '\n'
  | [] => False

namespace EndsEntry

variable {rest : List Char} (h : EndsEntry rest)

include h

theorem exists_cons : ∃ c tail, rest = c :: tail ∧ (c = ',' ∨ c = ')' ∨ c = '\n') := by
  unfold EndsEntry at h
  split at h
  · exact ⟨_, _, rfl, h⟩
  · cases h

theorem closes : Closes rest := by
  obtain ⟨c, tail, rfl, hc⟩ := h.exists_cons
  exact closes_cons (by tauto) tail

theorem solid : skipBlanks rest = rest := by
  obtain ⟨c, tail, rfl, hc⟩ := h.exists_cons
  exact skipBlanks_of_isSolid (by rcases hc with rfl | rfl | rfl <;> decide) tail

end EndsEntry

theorem refuses_typeExpr (text : List Char) (h : NoType text) : Refuses typeExpr .spaced text :=
  fun start => refuses_typeUpTo _ h start

/-- The text of a type, with its dots and the blanks behind it, and what holds of the type. It is read as
such a type whatever stands behind it. -/
structure Slot where
  text : List Char
  accepts : TypeExpr → Prop
  solid : ∀ more, skipBlanks (text ++ more) = text ++ more
  reads : ∀ rest, EndsEntry rest → ∃ last, skipBlanks last = rest ∧
    Reads (slotType typeExpr) .spaced (text ++ rest) last accepts

namespace Slot

/-- The text of a type begins neither as blanks do nor with a mark at which no type starts. -/
theorem head?_ne (slot : Slot) {rest : List Char} (hrest : EndsEntry rest) {c : Char}
    (hsolid : isSolid c = true) (hstarts : startsNoType c = true) (hdot : c ≠ '.') :
    (slot.text ++ rest).head? ≠ some c := by
  intro hhead
  obtain ⟨tail, heq⟩ := List.head?_eq_some_iff.mp hhead
  obtain ⟨last, -, hreads⟩ := slot.reads rest hrest
  obtain ⟨found, hfound, -⟩ := hreads default
  rw [heq, refuses_slotType_cons refuses_typeExpr hsolid hstarts hdot tail default] at hfound
  cases hfound

theorem newline?_append (slot : Slot) {rest : List Char} (hrest : EndsEntry rest) :
    newline? (slot.text ++ rest) = none := by
  have hfeed := slot.head?_ne hrest (c := '\n') (by decide) (by decide) (by decide)
  have hreturn := slot.head?_ne hrest (c := '\r') (by decide) (by decide) (by decide)
  unfold newline?
  split <;> simp_all

theorem reads_name {name : String} (h : IsIdentifier name) (gap : Gap) {rest : List Char}
    (hrest : EndsEntry rest) :
    Reads typeExpr .spaced (name.toList ++ (gap.chars ++ rest)) rest (· = .name none name []) := by
  have hclosed := hrest.closes
  have hstops := gap.stopsWord_append hclosed.stopsWord
  have hskips := (gap.skips rest).trans hrest.solid
  have hident : Reads qualifiedIdent .spaced (name.toList ++ (gap.chars ++ rest)) _
      (· = (none, name)) :=
    reads_qualifiedIdent_bare h hstops (gap.head?_append_ne (by decide) hclosed.head?_ne_dot)
  have hbracket : (skipBlanks (gap.chars ++ rest)).head? ≠ some '[' := by
    rw [hskips, ← hrest.solid]
    exact hclosed.head?_skipBlanks_ne
  have hname := reads_typeName (typeUpTo (name.toList ++ (gap.chars ++ rest)).length) hident hbracket
  rw [hskips] at hname
  exact fun start => typeWith_of_identifier _ hname (h.identifier?_append hstops) start

def ofName (name : String) (h : IsIdentifier name) (gap : Gap) : Slot where
  text := name.toList ++ gap.chars
  accepts := (· = .name none name [])
  solid more := by
    rw [List.append_assoc]
    exact (isIdentifier_lineStart h _).solid
  reads rest hrest := by
    rw [List.append_assoc]
    refine ⟨rest, hrest.solid, ?_⟩
    have hdots := h.head?_append_ne (show isIdentStart '.' = false by decide) (gap.chars ++ rest)
    refine (reads_variadicMark_none (noDots_of_head? hdots)).bind fun dots hdots => ?_
    refine (reads_gap_none (isIdentifier_lineStart h _).solid).bind fun _ _ => ?_
    refine (reads_name h gap hrest).bind fun type htype => ?_
    exact (Reads.pure _).weaken fun found hfound => by rw [hfound, hdots, htype]; rfl

def written {qualify : Qualifier} {names : Naming} {change : PackageRef → PackageRef}
    (type : Descriptor) (h : type.Plain (NameWritten qualify names change) true) : Slot where
  text := (type.render qualify).toList
  accepts found := found.read names = some (type.normal change)
  solid := skipBlanks_render h
  reads rest hrest := by
    obtain ⟨last, hlast, hread⟩ := reads_slotType h (readsBack_typeExpr h.undotted hrest.closes)
    exact ⟨last, hlast.trans hrest.solid, hread⟩

end Slot

/-- What stands between two commas: a name alone, a name with a type, or a type that is not read as a
name with a type. -/
inductive Entry where
  | bare (name : String) (isName : IsIdentifier name) (gap : Gap)
  | named (name : String) (isName : IsIdentifier name) (gap : Gap) (slot : Slot)
      (apart : ∀ more, StopsWord (gap.chars ++ (slot.text ++ more)))
  | unnamed (slot : Slot)
      (alone : ∀ rest, EndsEntry rest → Refuses (namedDecl typeExpr) .spaced (slot.text ++ rest))

/-- What is declared at once: names with their type, or a type alone. -/
structure Declared where
  names : List String
  slot : Slot

def Declared.Accepts (declared : Declared) (field : Field) : Prop :=
  field.names.map Ident.name = declared.names ∧ declared.slot.accepts field.type ∧ field.tag = none

namespace Entry

def text : Entry → List Char
  | bare name _ gap => name.toList ++ gap.chars
  | named name _ gap slot _ => name.toList ++ (gap.chars ++ slot.text)
  | unnamed slot _ => slot.text

/-- What the entry declares by itself. A name alone is a type. -/
def alone : Entry → Declared
  | bare name isName gap => ⟨[], .ofName name isName gap⟩
  | named name _ _ slot _ => ⟨[name], slot⟩
  | unnamed slot _ => ⟨[], slot⟩

theorem starts (entry : Entry) {rest : List Char} (hrest : EndsEntry rest) :
    skipBlanks (entry.text ++ rest) = entry.text ++ rest ∧ newline? (entry.text ++ rest) = none := by
  have hname {name : String} (h : IsIdentifier name) (more : List Char) :
      skipBlanks (name.toList ++ more) = name.toList ++ more ∧ newline? (name.toList ++ more) = none :=
    ⟨(isIdentifier_lineStart h more).solid,
      newline?_of_noBreak ((isIdentifier_lineStart h more).noBreak .spaced)⟩
  cases entry with
  | bare name isName gap =>
      rw [text, List.append_assoc]
      exact hname isName _
  | named name isName gap slot apart =>
      rw [text, List.append_assoc]
      exact hname isName _
  | unnamed slot alone => exact ⟨slot.solid rest, slot.newline?_append hrest⟩

theorem text_alone {entry : Entry} (h : entry.alone.names = []) :
    entry.text = entry.alone.slot.text := by
  cases entry with
  | named name isName gap slot apart => cases h
  | _ => rfl

end Entry

end GoTrace.Grammar
