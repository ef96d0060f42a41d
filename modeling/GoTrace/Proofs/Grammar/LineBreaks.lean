import GoTrace.Proofs.Grammar.Entries

/-!
# Line breaks in lists of parameters

In the language that is read, a line may break behind any comma of a list of parameters. The grammar
lets it break in front of a declaration, but not inside a list of names: the names end there, and as no
type follows them, each of them is taken for a type. Here it is said what a list declares, for every way
to set its entries on lines, and at which commas a line break changes that.
-/

namespace GoTrace.Grammar

open GoTrace.Lexeme GoTrace.Parser GoTrace.Descriptor

/-! ## What a list declares -/

namespace Entry

/-- Whether the entry is one more name of what is declared behind it. -/
def joins : Entry → List Declared → Bool
  | bare .., ⟨_ :: _, _⟩ :: _ => true
  | _, _ => false

/-- What is declared when the entry stands in front of `others`, and whether a line breaks between
them. -/
def before : Entry → Bool → List Declared → List Declared
  | bare name _ _, false, ⟨next :: names, slot⟩ :: others => ⟨name :: next :: names, slot⟩ :: others
  | entry, _, others => entry.alone :: others

theorem before_of_breaks (entry : Entry) (others : List Declared) :
    entry.before true others = entry.alone :: others := by
  cases entry <;> rfl

theorem before_of_not_joins {entry : Entry} {others : List Declared}
    (h : entry.joins others = false) (breaks : Bool) :
    entry.before breaks others = entry.alone :: others := by
  match entry, others, h with
  | bare .., [], _ => cases breaks <;> rfl
  | bare .., ⟨[], _⟩ :: _, _ => cases breaks <;> rfl
  | named .., _, _ => rfl
  | unnamed .., _, _ => rfl

theorem before_of_joins {entry : Entry} {others : List Declared} (h : entry.joins others = true) :
    entry.before false others ≠ entry.alone :: others := by
  match entry, others, h with
  | bare .., ⟨_ :: _, _⟩ :: _, _ => exact fun heq => by cases heq

theorem before_injective {entry : Entry} {breaks : Bool} {first second : List Declared}
    (h : entry.before breaks first = entry.before breaks second) : first = second := by
  cases breaks with
  | true =>
      rw [before_of_breaks, before_of_breaks] at h
      exact (List.cons.inj h).2
  | false =>
      unfold before at h
      split at h
      · split at h
        · simp_all
        · cases h
      · split at h
        · cases h
        · exact (List.cons.inj h).2

end Entry

/-- What is declared by an entry and the entries behind it, each with what stands between the comma and
the entry. -/
def declaredBy : Entry → List (Layout × Entry) → List Declared
  | entry, [] => [entry.alone]
  | entry, (layout, next) :: others => entry.before layout.breaks (declaredBy next others)

theorem exists_declaredBy (entry : Entry) (others : List (Layout × Entry)) :
    ∃ declared fields, declaredBy entry others = declared :: fields := by
  cases others with
  | nil => exact ⟨_, _, rfl⟩
  | cons other others =>
      rw [declaredBy]
      unfold Entry.before
      split
      · exact ⟨_, _, rfl⟩
      · exact ⟨_, _, rfl⟩

def declaredBehind : List (Layout × Entry) → List Declared
  | [] => []
  | (_, entry) :: others => declaredBy entry others

theorem eq_alone_of_declaredBy {entry : Entry} {others : List (Layout × Entry)} {slot : Slot}
    {fields : List Declared} (h : declaredBy entry others = ⟨[], slot⟩ :: fields) :
    entry.alone = ⟨[], slot⟩ ∧ declaredBehind others = fields := by
  cases others with
  | nil => exact List.cons.inj h
  | cons other others =>
      rw [declaredBy] at h
      unfold Entry.before at h
      split at h
      · cases h
      · exact List.cons.inj h

def lastEntry (first : Entry) (others : List (Layout × Entry)) : Entry :=
  (others.map (·.2)).getLastD first

/-- One more line end behind a comma changes what is declared just where the comma stands between two
names of one declaration, on one line. -/
theorem declaredBy_broken_iff (layout : Layout) (indent : Gap) (first : Entry)
    (front : List (Layout × Entry)) (next : Entry) (back : List (Layout × Entry)) :
    declaredBy first (front ++ (layout.broken indent, next) :: back) =
        declaredBy first (front ++ (layout, next) :: back) ↔
      layout.breaks = true ∨ (lastEntry first front).joins (declaredBy next back) = false := by
  induction front generalizing first with
  | nil =>
      change first.before true _ = first.before layout.breaks _ ↔ _ ∨ first.joins _ = false
      rw [Entry.before_of_breaks]
      cases hbreaks : layout.breaks with
      | true => simp [Entry.before_of_breaks]
      | false =>
          cases hjoins : first.joins (declaredBy next back) with
          | true => simpa using (Entry.before_of_joins hjoins).symm
          | false => simpa using (Entry.before_of_not_joins hjoins false).symm
  | cons other front ih =>
      obtain ⟨between, entry⟩ := other
      change first.before between.breaks _ = first.before between.breaks _ ↔ _
      have hlast : lastEntry first ((between, entry) :: front) = lastEntry entry front := by
        rw [lastEntry, lastEntry, List.map_cons, List.getLastD_cons]
      rw [hlast, ← ih entry]
      exact ⟨Entry.before_injective, congrArg _⟩

/-! ## The text of a list -/

/-- The text of the entries behind the first, with a comma in front of each. -/
def tailText : List (Layout × Entry) → List Char → List Char
  | [], rest => rest
  | (layout, entry) :: others, rest =>
      ',' :: (layout.chars ++ (entry.text ++ tailText others rest))

theorem endsEntry_tailText (others : List (Layout × Entry)) {rest : List Char}
    (hrest : EndsEntry rest) : EndsEntry (tailText others rest) := by
  cases others with
  | nil => exact hrest
  | cons other others => exact .inl rfl

/-- How a list ends: with its parenthesis, or with a comma or a line end in front of it. -/
inductive Ending where
  | close
  | comma (layout : Layout)
  | line (layout : Layout)

namespace Ending

def text : Ending → List Char → List Char
  | close, rest => ')' :: rest
  | comma layout, rest => ',' :: (layout.chars ++ ')' :: rest)
  | line layout, rest => '\n' :: (layout.chars ++ ')' :: rest)

theorem endsEntry_text (ending : Ending) (rest : List Char) : EndsEntry (ending.text rest) := by
  cases ending with
  | close => exact .inr (.inl rfl)
  | comma layout => exact .inl rfl
  | line layout => exact .inr (.inr rfl)

theorem solid_close (rest : List Char) : skipBlanks (')' :: rest) = ')' :: rest :=
  skipBlanks_of_isSolid (by decide) rest

theorem refuses_nextParameter (ending : Ending) (rest : List Char) :
    Refuses (nextParameter typeExpr) .spaced (ending.text rest) := by
  cases ending with
  | close => exact (refuses_mark rfl (Grammar.head?_ne rfl (by decide))).bind_left
  | line layout => exact (refuses_mark rfl (Grammar.head?_ne rfl (by decide))).bind_left
  | comma layout =>
      refine Refuses.bind (reads_mark rfl _) fun _ _ => ?_
      refine refuses_lead (layout.leads (solid_close rest)) (solid_close rest) rfl ?_
      exact refuses_parameterDecl (refuses_typeExpr _ (by decide : startsNoType ')' = true))
        (identifier?_cons (by decide) rest) (solid_close rest) (Grammar.head?_ne rfl (by decide))

/-- The end of a list is a comma or none, and line ends or none in front of the parenthesis. -/
theorem reads_comma (ending : Ending) (rest : List Char) :
    ∃ tail, Leads (')' :: rest) tail ∧
      Reads (optional (mark ",")) .spaced (ending.text rest) tail fun _ => True := by
  have hnone {c : Char} (hc : c ≠ ',') (more : List Char) :
      Reads (optional (mark ",")) .spaced (c :: more) (c :: more) fun _ => True :=
    (Reads.optional_none (refuses_mark rfl (Grammar.head?_ne rfl hc))).ignore
  cases ending with
  | close => exact ⟨_, .inl (solid_close rest), hnone (by decide) rest⟩
  | comma layout =>
      refine ⟨_, layout.leads (solid_close rest), ?_⟩
      exact (reads_mark rfl _).optional_some.ignore
  | line layout =>
      refine ⟨_, .inr ?_, hnone (by decide) _⟩
      rw [skipBlanks_of_isSolid (by decide)]
      exact layout.breaks_newline ⟨[], fun _ => rfl⟩ (solid_close rest)

end Ending

def parametersText (opening : Layout) (first : Entry) (others : List (Layout × Entry))
    (ending : Ending) (rest : List Char) : List Char :=
  '(' :: (opening.chars ++ (first.text ++ tailText others (ending.text rest)))

/-! ## What is read -/

section

variable {name : String} (isName : IsIdentifier name) (gap : Gap)

include isName

/-- A name is not that of a parameter when a line breaks behind it, or when no parameter with names
stands behind its comma. -/
theorem refuses_namedDecl_layout (layout : Layout) {start : List Char}
    (hsolid : skipBlanks start = start)
    (h : layout.breaks = false → Refuses (namedDecl typeExpr) .spaced start) :
    Refuses (namedDecl typeExpr) .spaced
      (name.toList ++ (gap.chars ++ ',' :: (layout.chars ++ start))) := by
  have hcomma : skipBlanks (',' :: (layout.chars ++ start)) = ',' :: (layout.chars ++ start) :=
    skipBlanks_of_isSolid (by decide) _
  refine refuses_namedDecl_comma isName (gap.stopsWord_append (by decide : isIdentChar ',' = false))
    ((gap.skips _).trans hcomma) (refuses_typeExpr _ (by decide : startsNoType ',' = true)) ?_
  cases hbreaks : layout.breaks with
  | false =>
      rw [layout.skips hbreaks start hsolid]
      exact h hbreaks
  | true =>
      have hline := layout.ends hbreaks start hsolid
      generalize skipBlanks _ = text at hline ⊢
      cases hline <;> exact refuses_namedDecl (identifier?_cons (by decide) _)

theorem refuses_namedDecl_ending (ending : Ending) (rest : List Char) :
    Refuses (namedDecl typeExpr) .spaced (name.toList ++ (gap.chars ++ ending.text rest)) := by
  have hstops := gap.stopsWord_append (ending.endsEntry_text rest).closes.stopsWord
  have hskips := (gap.skips _).trans (ending.endsEntry_text rest).solid
  cases ending with
  | close =>
      exact refuses_namedDecl_mark refuses_typeExpr isName hstops hskips (by decide) (by decide)
        (by decide)
  | comma layout =>
      exact refuses_namedDecl_layout isName gap layout (Ending.solid_close rest)
        fun _ => refuses_namedDecl (identifier?_cons (by decide) rest)
  | line layout =>
      exact refuses_namedDecl_mark refuses_typeExpr isName hstops hskips (by decide) (by decide)
        (by decide)

end

section

variable {entry : Entry} {others : List (Layout × Entry)} {slot : Slot} {fields : List Declared}
  (ending : Ending) (rest : List Char)

theorem endsEntry_tail (others : List (Layout × Entry)) :
    EndsEntry (tailText others (ending.text rest)) :=
  endsEntry_tailText others (ending.endsEntry_text rest)

theorem refuses_namedDecl_of_declaredBy (h : declaredBy entry others = ⟨[], slot⟩ :: fields) :
    Refuses (namedDecl typeExpr) .spaced (entry.text ++ tailText others (ending.text rest)) := by
  induction others generalizing entry slot fields with
  | nil =>
      cases entry with
      | bare name isName gap =>
          rw [Entry.text, List.append_assoc]
          exact refuses_namedDecl_ending isName gap ending rest
      | named name isName gap slot apart => cases h
      | unnamed slot alone => exact alone _ (endsEntry_tail ending rest [])
  | cons other others ih =>
      obtain ⟨layout, next⟩ := other
      cases entry with
      | named name isName gap slot apart => cases h
      | unnamed slot alone => exact alone _ (endsEntry_tail ending rest _)
      | bare name isName gap =>
          rw [Entry.text, List.append_assoc]
          refine refuses_namedDecl_layout isName gap layout
            (next.starts (endsEntry_tail ending rest others)).1 fun hbreaks => ?_
          obtain ⟨⟨nextNames, nextSlot⟩, nextFields, hdeclared⟩ := exists_declaredBy next others
          rw [declaredBy, hbreaks, hdeclared] at h
          cases nextNames with
          | nil => exact ih hdeclared
          | cons nextName names => cases h

theorem readsNames_of_declaredBy {name : String} {more : List String}
    (h : declaredBy entry others = ⟨name :: more, slot⟩ :: fields) :
    ∃ behind, behind <:+ others ∧ declaredBehind behind = fields ∧
      ReadsNames (entry.text ++ tailText others (ending.text rest)) name more
        (slot.text ++ tailText behind (ending.text rest)) := by
  have hnamed {name : String} (isName : IsIdentifier name) (gap : Gap) (slot : Slot)
      (apart : ∀ more, StopsWord (gap.chars ++ (slot.text ++ more)))
      (others : List (Layout × Entry)) :
      ReadsNames ((Entry.named name isName gap slot apart).text ++ tailText others (ending.text rest))
        name [] (slot.text ++ tailText others (ending.text rest)) := by
    have hskips := (gap.skips _).trans (slot.solid (tailText others (ending.text rest)))
    have hcomma := slot.head?_ne (endsEntry_tail ending rest others) (c := ',')
      (by decide) (by decide) (by decide)
    rw [Entry.text, List.append_assoc, List.append_assoc]
    have hnames := ReadsNames.stop isName (apart (tailText others (ending.text rest)))
    rw [hskips] at hnames
    exact hnames (refuses_mark rfl hcomma).bind_left
  induction others generalizing entry name more slot fields with
  | nil =>
      cases entry with
      | bare name isName gap => cases h
      | unnamed slot alone => cases h
      | named name isName gap slot apart =>
          cases h
          exact ⟨[], List.suffix_refl _, rfl, hnamed isName gap slot apart []⟩
  | cons other others ih =>
      obtain ⟨layout, next⟩ := other
      cases entry with
      | unnamed slot alone => cases h
      | named name isName gap slot apart =>
          cases h
          exact ⟨_, List.suffix_refl _, rfl, hnamed isName gap slot apart _⟩
      | bare name isName gap =>
          cases hbreaks : layout.breaks with
          | true =>
              rw [declaredBy, hbreaks, Entry.before_of_breaks] at h
              cases h
          | false =>
              obtain ⟨⟨nextNames, nextSlot⟩, nextFields, hdeclared⟩ := exists_declaredBy next others
              rw [declaredBy, hbreaks, hdeclared] at h
              cases nextNames with
              | nil => cases h
              | cons nextName nextMore =>
                  cases h
                  obtain ⟨behind, hsuffix, hbehind, hreads⟩ := ih hdeclared
                  refine ⟨behind, hsuffix.trans (List.suffix_cons _ _), hbehind, ?_⟩
                  have hstart :=
                    layout.skips hbreaks _ (next.starts (endsEntry_tail ending rest others)).1
                  rw [← hstart] at hreads
                  rw [Entry.text, List.append_assoc]
                  exact .cons isName (gap.stopsWord_append (by decide : isIdentChar ',' = false))
                    ((gap.skips _).trans (skipBlanks_of_isSolid (by decide) _)) hreads

/-- The first entries of a list are read as what they declare, up to the entries behind it. -/
theorem reads_declared (entry : Entry) (others : List (Layout × Entry)) :
    ∃ declared behind, declaredBy entry others = declared :: declaredBehind behind ∧
      behind <:+ others ∧ ∃ middle, skipBlanks middle = tailText behind (ending.text rest) ∧
        Reads (parameterDecl typeExpr) .spaced (entry.text ++ tailText others (ending.text rest)) middle
          declared.Accepts := by
  obtain ⟨⟨names, slot⟩, fields, hdeclared⟩ := exists_declaredBy entry others
  cases names with
  | nil =>
      obtain ⟨halone, hfields⟩ := eq_alone_of_declaredBy hdeclared
      have hnone := refuses_namedDecl_of_declaredBy ending rest hdeclared
      obtain ⟨last, hlast, hslot⟩ := slot.reads _ (endsEntry_tail ending rest others)
      have htext : entry.text = slot.text := by
        rw [Entry.text_alone (congrArg Declared.names halone), halone]
      refine ⟨_, others, by rw [hdeclared, hfields], List.suffix_refl _, last, hlast, ?_⟩
      rw [htext] at hnone ⊢
      refine (reads_parameterDecl_alone hnone hslot).weaken fun field hfield => ⟨?_, hfield.2⟩
      rw [hfield.1]
      rfl
  | cons name more =>
      obtain ⟨behind, hsuffix, hbehind, hnames⟩ :=
        readsNames_of_declaredBy ending rest hdeclared
      obtain ⟨middle, hmiddle, hidents⟩ := hnames.reads_identifierList
      obtain ⟨last, hlast, hslot⟩ := slot.reads _ (endsEntry_tail ending rest behind)
      rw [← hmiddle] at hslot
      exact ⟨⟨name :: more, slot⟩, behind, by rw [hdeclared, hbehind], hsuffix, last, hlast,
        reads_parameterDecl_named hidents hslot⟩

theorem rounds_declared (others : List (Layout × Entry)) {text : List Char}
    (htext : skipBlanks text = tailText others (ending.text rest)) :
    ∃ last, Rounds (do gap; nextParameter typeExpr) .spaced text
      ((declaredBehind others).map Declared.Accepts) last ∧ skipBlanks last = ending.text rest := by
  -- a declaration takes the names in front of it along, so the rounds are not one for each entry
  induction hlength : others.length using Nat.strongRecOn generalizing others text with
  | ind length ih =>
  have hgap := reads_gap text
  rw [htext] at hgap
  cases others with
  | nil =>
      refine ⟨text, .stop ?_, htext⟩
      exact Refuses.bind hgap fun _ _ => ending.refuses_nextParameter rest
  | cons other others =>
      obtain ⟨layout, entry⟩ := other
      obtain ⟨declared, behind, hdeclared, hsuffix, middle, hmiddle, hread⟩ :=
        reads_declared ending rest entry others
      have hshorter : behind.length < length := by
        have hle := hsuffix.length_le
        simp only [List.length_cons] at hlength
        omega
      obtain ⟨last, hrounds, hlast⟩ := ih _ hshorter behind hmiddle rfl
      obtain ⟨hsolid, hline⟩ := entry.starts (endsEntry_tail ending rest others)
      have hround : Reads (do gap; nextParameter typeExpr) .spaced text middle declared.Accepts :=
        hgap.bind fun _ _ => reads_nextParameter (layout.leads hsolid) hsolid hline hread
      have hless : middle.length < text.length := by
        have hle := hread.length_le
        have hle' := length_skipBlanks_le text
        rw [htext, tailText, List.length_cons, List.length_append] at hle'
        omega
      refine ⟨last, ?_, hlast⟩
      rw [declaredBehind, hdeclared, List.map_cons]
      exact .step hround hless hrounds

theorem reads_parametersText (opening : Layout) (first : Entry) (others : List (Layout × Entry)) :
    Reads (parameters typeExpr) .spaced (parametersText opening first others ending rest) rest
      (Meets ((declaredBy first others).map Declared.Accepts)) := by
  obtain ⟨declared, behind, hdeclared, hsuffix, middle, hmiddle, hread⟩ :=
    reads_declared ending rest first others
  obtain ⟨hsolid, hline⟩ := first.starts (endsEntry_tail ending rest others)
  obtain ⟨last, hrounds, hlast⟩ :=
    rounds_declared ending rest behind ((skipBlanks_skipBlanks middle).trans hmiddle)
  obtain ⟨tail, htail, hcomma⟩ := ending.reads_comma rest
  rw [← hlast] at hcomma
  rw [hdeclared, List.map_cons]
  exact reads_parameters_cons (opening.leads hsolid) hsolid hline hread hrounds hcomma htail

end

/-- A list is read wherever a line breaks behind one of its commas, and as what it declares otherwise
just where the comma is not between two names of one declaration on one line. -/
theorem reads_parameters_break (opening : Layout) (first : Entry) (front : List (Layout × Entry))
    (layout : Layout) (indent : Gap) (next : Entry) (back : List (Layout × Entry)) (ending : Ending)
    (rest : List Char) :
    let level := front ++ (layout, next) :: back
    let broken := front ++ (layout.broken indent, next) :: back
    Reads (parameters typeExpr) .spaced (parametersText opening first level ending rest) rest
        (Meets ((declaredBy first level).map Declared.Accepts)) ∧
      Reads (parameters typeExpr) .spaced (parametersText opening first broken ending rest) rest
        (Meets ((declaredBy first broken).map Declared.Accepts)) ∧
      (declaredBy first broken = declaredBy first level ↔
        layout.breaks = true ∨ (lastEntry first front).joins (declaredBy next back) = false) :=
  ⟨reads_parametersText ending rest opening first _, reads_parametersText ending rest opening first _,
    declaredBy_broken_iff layout indent first front next back⟩

/-- Two names with a blank between them are those of one declaration. On two lines the first is a type. -/
theorem reads_parameters_break_names :
    let string := Slot.ofName "string" (by decide) ⟨[], fun _ => rfl⟩
    Reads (parameters typeExpr) .spaced "(x, y string)".toList []
        (Meets [Declared.Accepts ⟨["x", "y"], string⟩]) ∧
      Reads (parameters typeExpr) .spaced "(x,\n\t y string)".toList []
        (Meets [Declared.Accepts ⟨[], .ofName "x" (by decide) ⟨[], fun _ => rfl⟩⟩,
          Declared.Accepts ⟨["y"], string⟩]) := by
  have hblank (more : List Char) : skipBlanks ([' '] ++ more) = skipBlanks more := skipBlanks_space more
  have htab (more : List Char) : skipBlanks (['\t'] ++ more) = skipBlanks more := skipBlanks_tab more
  have hbreak := reads_parameters_break (.level ⟨[], fun _ => rfl⟩)
    (.bare "x" (by decide) ⟨[], fun _ => rfl⟩) [] (.level ⟨[' '], hblank⟩) ⟨['\t'], htab⟩
    (.named "y" (by decide) ⟨[' '], hblank⟩ (.ofName "string" (by decide) ⟨[], fun _ => rfl⟩)
      fun _ => (by decide : isIdentChar ' ' = false)) [] .close []
  exact ⟨hbreak.1, hbreak.2.1⟩

/-- The names of the parameters of a function, by declarations. -/
def paramNames : TypeExpr → List (List String)
  | .func signature => signature.params.map fun field => field.names.map Ident.name
  | _ => []

/-- A line break between two names turns one declaration into two. -/
theorem paramNames_break :
    (TypeExpr.parse "func(x, y string)").toOption.map paramNames = some [["x", "y"]] ∧
      (TypeExpr.parse "func(x,\n\ty string)").toOption.map paramNames = some [[], ["y"]] := by
  decide +kernel

end GoTrace.Grammar
