import GoTrace.Proofs.Grammar.Progress
import GoTrace.Proofs.Grammar.SignatureText

/-!
# Names of parameters

A parameter is tried as names with a type before it is tried as a type alone. Names are read as far as
there are commas with names behind them, and what stands behind the last of them decides whether they
are the names of a parameter. So a name in front of a comma is one of them just where the text behind
the comma is read as a parameter with names.
-/

namespace GoTrace.Grammar

open GoTrace.Lexeme GoTrace.Parser

variable {type : Parser TypeExpr} {mode : Mode} {text middle rest : List Char}
  {accept : TypeExpr → Prop}

/-! ## The parts of a parameter -/

def slotType (type : Parser TypeExpr) : Parser TypeExpr := do
  let dots ← variadicMark
  gap
  let found ← type
  return if dots then .ellipsis found else found

def namedDecl (type : Parser TypeExpr) : Parser (List Ident × Bool × TypeExpr) := do
  let names ← identifierList
  gap
  let dots ← variadicMark
  gap
  return (names, dots, ← type)

theorem reads_slotType_behind (idents : List Ident) (h : Reads (slotType type) mode text rest accept) :
    Reads (do
      let dots ← variadicMark
      gap
      return (idents, dots, ← type)) mode text rest fun found =>
        found.1 = idents ∧ accept (if found.2.1 then .ellipsis found.2.2 else found.2.2) := by
  intro start
  obtain ⟨found, hfound, hrest, hfault, haccept⟩ := h start
  simp only [slotType, found_bind, found_pure, Option.bind_eq_some_iff, Option.map_eq_some_iff,
    Option.some.injEq] at hfound
  obtain ⟨dots, hdots, -, ⟨blank, hblank, -, ⟨inner, hinner, -, rfl, rfl⟩, rfl⟩, rfl⟩ := hfound
  refine ⟨⟨(idents, dots.value, inner.value), inner.next, none⟩, ?_, hrest, rfl, rfl, haccept⟩
  simp only [found_bind, hdots, hblank, hinner, found_pure, Option.bind_some, Option.map_some]
  exact congrArg some (congrArg _ hfault)

theorem found_slotType_behind (idents : List Ident) (cursor : Cursor) :
    ((do
      let dots ← variadicMark
      gap
      return (idents, dots, ← type) : Parser _) mode cursor).found = none ↔
        (slotType type mode cursor).found = none := by
  simp [slotType, found_bind, Option.bind_eq_none_iff]

theorem reads_parameterDecl_named {names : List Ident → Prop}
    (hnames : Reads identifierList .spaced text middle names)
    (hslot : Reads (slotType type) .spaced (skipBlanks middle) rest accept) :
    Reads (parameterDecl type) .spaced text rest fun field =>
      names field.names ∧ accept field.type ∧ field.tag = none := by
  have hnamed : Reads (namedDecl type) .spaced text rest fun found =>
      names found.1 ∧ accept (if found.2.1 then .ellipsis found.2.2 else found.2.2) := by
    refine hnames.bind fun idents hidents => (reads_gap middle).bind fun _ _ => ?_
    refine (reads_slotType_behind idents hslot).weaken fun found hfound => ?_
    obtain ⟨rfl, htype⟩ := hfound
    exact ⟨hidents, htype⟩
  refine (Reads.spanned (Reads.rule (.orElse_left hnamed))).bind fun value hvalue => ?_
  obtain ⟨⟨idents, dots, found⟩, span⟩ := value
  exact (Reads.pure _).weaken fun field hfield => by rw [hfield]; exact ⟨hvalue.1, hvalue.2, rfl⟩

/-- Where no parameter with names is read, dots and a type are read as one without. -/
theorem reads_parameterDecl_alone (hnamed : Refuses (namedDecl type) .spaced text)
    (hslot : Reads (slotType type) .spaced text rest accept) :
    Reads (parameterDecl type) .spaced text rest fun field =>
      field.names = [] ∧ accept field.type ∧ field.tag = none := by
  refine (Reads.spanned (Reads.rule (.orElse_right hnamed (reads_slotType_behind [] hslot)))).bind
    fun value hvalue => ?_
  obtain ⟨⟨idents, dots, found⟩, span⟩ := value
  exact (Reads.pure _).weaken fun field hfield => by rw [hfield]; exact ⟨hvalue.1, hvalue.2, rfl⟩

theorem refuses_slotType (htype : Refuses type .spaced text) (hsolid : skipBlanks text = text)
    (hdots : "...".toList.isPrefixOf text = false) : Refuses (slotType type) .spaced text := by
  refine Refuses.bind (reads_variadicMark_none hdots) fun _ _ => ?_
  exact Refuses.bind (reads_gap_none hsolid) fun _ _ => htype.bind_left

/-! ## Lists of names -/

def nextName : Parser Ident := do
  mark ","
  gap
  identifier

/-- Names with commas between them stand in front of the text `behind`. -/
def ReadsNames (text : List Char) (first : String) (others : List String) (behind : List Char) :
    Prop :=
  ∃ middle, Reads identifier .spaced text middle (·.name = first) ∧ middle.length < text.length ∧
    ∀ start, skipBlanks start = skipBlanks middle → ∃ last,
      Rounds (do gap; nextName) .spaced start (others.map fun name ident => ident.name = name) last ∧
        skipBlanks last = behind

namespace ReadsNames

variable {name next : String} {others : List String} {more behind : List Char}

theorem stop (hname : IsIdentifier name) (hstops : StopsWord text)
    (hnext : Refuses nextName .spaced (skipBlanks text)) :
    ReadsNames (name.toList ++ text) name [] (skipBlanks text) := by
  obtain ⟨c, tail, heq, -⟩ := hname.exists_cons
  refine ⟨text, reads_identifier hname hstops, ?_, fun start hstart => ?_⟩
  · simp only [heq, List.cons_append, List.length_cons, List.length_append]
    omega
  · have hgap := reads_gap start
    rw [hstart] at hgap
    exact ⟨start, .stop (Refuses.bind hgap fun _ _ => hnext), hstart⟩

theorem cons (hname : IsIdentifier name) (hstops : StopsWord text)
    (hcomma : skipBlanks text = ',' :: more) (h : ReadsNames (skipBlanks more) next others behind) :
    ReadsNames (name.toList ++ text) name (next :: others) behind := by
  obtain ⟨middle, hreads, hshorter, hothers⟩ := h
  obtain ⟨c, tail, heq, -⟩ := hname.exists_cons
  refine ⟨text, reads_identifier hname hstops, ?_, fun start hstart => ?_⟩
  · simp only [heq, List.cons_append, List.length_cons, List.length_append]
    omega
  · have hgap := reads_gap start
    rw [hstart, hcomma] at hgap
    obtain ⟨last, hrounds, hlast⟩ := hothers middle rfl
    refine ⟨last, .step ?_ ?_ hrounds, hlast⟩
    · refine hgap.bind fun _ _ => (reads_mark rfl more).bind fun _ _ => ?_
      exact (reads_gap more).bind fun _ _ => hreads
    · have hle := length_skipBlanks_le more
      have hle' := length_skipBlanks_le start
      rw [hstart, hcomma, List.length_cons] at hle'
      omega

theorem reads_identifierList (h : ReadsNames text name others behind) :
    ∃ last, skipBlanks last = behind ∧ Reads identifierList .spaced text last
      fun idents => idents.map Ident.name = name :: others := by
  obtain ⟨middle, hreads, -, hothers⟩ := h
  obtain ⟨last, hrounds, hlast⟩ := hothers _ (skipBlanks_skipBlanks middle)
  refine ⟨last, hlast, Reads.rule (hreads.bind fun first hfirst => ?_)⟩
  refine (reads_gap middle).bind fun _ _ => ?_
  refine (reads_repeated hrounds (skipBlanks_skipBlanks middle)).bind fun idents hidents => ?_
  refine (Reads.pure _).weaken fun found hfound => ?_
  rw [hfound, List.map_cons, hfirst, hidents.map_eq]

theorem suffix (h : ReadsNames text name others behind) : behind <:+ text := by
  obtain ⟨last, rfl, hnames⟩ := h.reads_identifierList
  obtain ⟨found, hfound, rfl, -, -⟩ := hnames default
  obtain ⟨taken, heq, -⟩ := Advances.precedes hfound
  exact (List.drop_suffix _ _).trans ⟨taken, heq.symm⟩

/-- A parameter with names is refused just when what stands behind the names is. -/
theorem found_namedDecl {taken : List Char} (h : ReadsNames (taken ++ behind) name others behind)
    (start : Mark) :
    (namedDecl type .spaced ⟨taken ++ behind, start⟩).found = none ↔
      (slotType type .spaced ⟨behind, start.past taken⟩).found = none := by
  obtain ⟨last, hlast, hnames⟩ := h.reads_identifierList
  obtain ⟨found, hfound, rfl, -, -⟩ := hnames start
  have hprecedes := (Advances.precedes hfound).trans (Cursor.precedes_skip _ (blanks found.next.rest))
  have hcursor : found.next.skip (blanks found.next.rest) = ⟨behind, start.past taken⟩ := by
    obtain ⟨taken', hrest, hmark⟩ := hprecedes
    have hbehind : (found.next.skip (blanks found.next.rest)).rest = behind := hlast
    rw [hbehind] at hrest
    obtain rfl := List.append_cancel_right hrest
    exact congrArg₂ Cursor.mk hbehind hmark
  rw [namedDecl, found_bind, hfound, Option.bind_some, Option.map_eq_none_iff, found_bind, gap,
    found_gapBy, if_pos rfl, Option.bind_some, Option.map_eq_none_iff, hcursor]
  exact found_slotType_behind _ _

end ReadsNames

theorem refuses_identifier_or_readsNames (text : List Char) :
    Refuses identifier .spaced text ∨ ∃ name others behind, ReadsNames text name others behind := by
  induction hlength : text.length using Nat.strongRecOn generalizing text with
  | ind length ih =>
  cases hword : identifier? text with
  | none => exact .inl (refuses_identifier hword)
  | some count =>
      obtain ⟨name, rest, hname, hstops, rfl⟩ := exists_append_of_identifier? hword
      have hstop (hnext : Refuses nextName .spaced (skipBlanks rest)) :
          ∃ name' others behind, ReadsNames (name.toList ++ rest) name' others behind :=
        ⟨name, [], _, .stop hname hstops hnext⟩
      refine .inr ?_
      by_cases hcomma : (skipBlanks rest).head? = some ','
      · obtain ⟨more, heq⟩ := List.head?_eq_some_iff.mp hcomma
        have hshorter : (skipBlanks more).length < length := by
          have hle := length_skipBlanks_le more
          have hle' := length_skipBlanks_le rest
          rw [heq, List.length_cons] at hle'
          rw [List.length_append] at hlength
          omega
        rcases ih _ hshorter (skipBlanks more) rfl with hnone | ⟨next, others, behind, hnext⟩
        · refine hstop ?_
          rw [heq]
          exact Refuses.bind (reads_mark rfl more) fun _ _ => Refuses.bind (reads_gap more) fun _ _ => hnone
        · exact ⟨name, next :: others, behind, .cons hname hstops heq hnext⟩
      · exact hstop (refuses_mark rfl hcomma).bind_left

/-! ## Names without a type -/

section

variable {name : String} (hname : IsIdentifier name) (hstops : StopsWord text)

include hname hstops

/-- A name behind which the names and the parameter end is not the name of a parameter. -/
theorem refuses_namedDecl_stop (hnext : Refuses nextName .spaced (skipBlanks text))
    (hslot : Refuses (slotType type) .spaced (skipBlanks text)) :
    Refuses (namedDecl type) .spaced (name.toList ++ text) := by
  have hnames := ReadsNames.stop hname hstops hnext
  obtain ⟨taken, heq⟩ := hnames.suffix
  intro start
  rw [← heq] at hnames ⊢
  exact (hnames.found_namedDecl start).mpr (hslot _)

/-- A name in front of a comma is not the name of a parameter when the text behind the comma is not read
as a parameter with names. -/
theorem refuses_namedDecl_comma {more : List Char} (hcomma : skipBlanks text = ',' :: more)
    (htype : Refuses type .spaced (',' :: more))
    (h : Refuses (namedDecl type) .spaced (skipBlanks more)) :
    Refuses (namedDecl type) .spaced (name.toList ++ text) := by
  rcases refuses_identifier_or_readsNames (skipBlanks more) with hnone | ⟨next, others, behind, hnext⟩
  · refine refuses_namedDecl_stop hname hstops ?_ ?_
    · rw [hcomma]
      exact Refuses.bind (reads_mark rfl more) fun _ _ => Refuses.bind (reads_gap more) fun _ _ => hnone
    · rw [hcomma]
      exact refuses_slotType htype (skipBlanks_of_isSolid (by decide) more) (by rfl)
  · have hnames := ReadsNames.cons hname hstops hcomma hnext
    obtain ⟨front, hfront⟩ : skipBlanks more <:+ name.toList ++ text := by
      have hmore : more <:+ skipBlanks text := by
        rw [hcomma]
        exact List.suffix_cons ',' more
      exact (List.drop_suffix _ _).trans
        (hmore.trans ((List.drop_suffix _ _).trans (List.suffix_append _ _)))
    obtain ⟨taken, htaken⟩ := hnext.suffix
    intro start
    -- the names behind the comma end at one place, whichever of the two lists is read
    rw [← htaken] at h hnext hfront
    rw [← hfront, ← List.append_assoc] at hnames ⊢
    rw [hnames.found_namedDecl, Mark.past, List.foldl_append]
    exact (hnext.found_namedDecl _).mp (h _)

end

end GoTrace.Grammar
