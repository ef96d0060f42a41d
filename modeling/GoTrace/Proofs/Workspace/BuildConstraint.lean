import GoTrace.Proofs.Text.Cut
import GoTrace.Workspace.Sources

/-!
# Build constraints

A build constraint is a line comment in front of the package clause. The scan for it goes line by line
and does not know where a block comment ends: it passes over lines that look like comments. What it
tells is the first constraint, as long as the block comments before it have no other lines.
-/

namespace GoTrace

open Text

/-- What may stand in front of a package clause, on lines of its own. -/
inductive Leading where
  | blank (blanks : List Char)
  | comment (indent said : List Char)
  | block (indent inside behind : List Char)

namespace Leading

variable {item : Leading} {items : List Leading} {clause : List Char}

def text : Leading → List Char
  | blank blanks => blanks
  | comment indent said => indent ++ "//".toList ++ said
  | block indent inside behind => indent ++ "/*".toList ++ inside ++ "*/".toList ++ behind

/-- The text of items, each of which ends with a line feed. -/
def textOf (items : List Leading) : List Char :=
  items.flatMap fun item => item.text ++ ['\n']

/-- Only white space shares lines with comments. A line comment ends with its line, and a block comment
at the first mark that can end it. -/
def WellFormed : Leading → Prop
  | blank blanks => Blank blanks
  | comment indent said => Blank indent ∧ '\n' ∉ said
  | block indent inside behind => Blank indent ∧ ¬ "*/".toList <:+: inside ++ ['*'] ∧ Blank behind

instance : DecidablePred WellFormed
  | blank _ => inferInstanceAs (Decidable (Blank _))
  | comment _ _ => inferInstanceAs (Decidable (_ ∧ _))
  | block indent inside behind =>
      decidable_of_iff
        (Blank indent ∧ cutAt? "*/".toList (inside ++ ['*']) = none ∧ Blank behind)
        (by rw [cutAt?_eq_none_iff (by decide)]; rfl)

/-- The expression of a build constraint: a line comment that begins with `go:build`, behind which
there is white space or nothing. -/
def constraint? : Leading → Option (List Char)
  | comment _ said =>
      (dropPrefix? "go:build".toList said).bind fun rest =>
        if rest.head?.all isBlank then some (trim rest) else none
  | _ => none

/-- Without the white space around it, the line is empty, or looks like the begin of a block comment, a
line in one or a line comment, which is no build constraint. -/
def Skipped (line : List Char) : Prop :=
  trim line = [] ∨ "/*".toList <+: trim line ∨ ['*'] <+: trim line ∨
    "//".toList <+: trim line ∧ ¬ "//go:build".toList <+: trim line

instance : DecidablePred Skipped :=
  fun _ => inferInstanceAs (Decidable (_ ∨ _ ∨ _ ∨ _ ∧ _))

/-- An item that the scan passes over: a line comment does not begin like a build constraint, and no
line of a block comment behind its first looks like code or a build constraint. -/
def PassedOver : Leading → Prop
  | blank _ => True
  | comment _ said => ¬ "go:build".toList <+: said
  | block _ inside behind =>
      ∀ line ∈ (fieldsBy (· = '\n') (inside ++ "*/".toList ++ behind)).tail, Skipped line

instance : DecidablePred PassedOver
  | blank _ => inferInstanceAs (Decidable True)
  | comment _ _ => inferInstanceAs (Decidable (¬ _))
  | block _ _ _ => List.decidableBAll _ _

end Leading

/-- The line that names the package, and what follows. -/
def PackageClause (clause : List Char) : Prop :=
  ∃ indent rest, Blank indent ∧ clause = indent ++ "package".toList ++ rest

/-! ## The scan of lines -/

/-- What a line tells the scan for a build constraint: whether the constraint is `ignore`, or that
there is none in front of the code. -/
def verdict? (line : List Char) : Option Bool :=
  let line := trim line
  if line.isEmpty || "/*".toList.isPrefixOf line || ['*'].isPrefixOf line then none
  else
    match dropPrefix? "//".toList line with
    | none => some false
    | some comment =>
        (dropPrefix? "go:build".toList comment).map fun expression =>
          decide (trim expression = "ignore".toList)

theorem isIgnored_go_eq (lines : List (List Char)) :
    isIgnored.go lines = (lines.findSome? verdict?).getD false := by
  induction lines with
  | nil => rfl
  | cons line rest ih =>
      rw [isIgnored.go, List.findSome?_cons, verdict?]
      split
      · exact ih
      · cases dropPrefix? "//".toList (trim line) with
        | none => rfl
        | some comment =>
            dsimp only
            cases dropPrefix? "go:build".toList comment with
            | none => exact ih
            | some expression => rfl

theorem isIgnored_eq (text : List Char) :
    isIgnored (String.ofList text) =
      ((fieldsBy (· = '\n') text).findSome? verdict?).getD false := by
  have hreturn (line : List Char) : verdict? (dropReturn line) = verdict? line := by
    rw [verdict?, verdict?, trim_dropReturn]
  rw [isIgnored, isIgnored_go_eq, String.toList_ofList, ← List.head?_filterMap,
    filterMap_lines (by decide) hreturn, List.head?_filterMap]

theorem verdict?_of_trim {line said : List Char} (h : trim line = "//".toList ++ said) :
    verdict? line =
      (dropPrefix? "go:build".toList said).map fun rest => decide (trim rest = "ignore".toList) := by
  have hcode : (("//".toList ++ said).isEmpty || "/*".toList.isPrefixOf ("//".toList ++ said) ||
      ['*'].isPrefixOf ("//".toList ++ said)) = false :=
    rfl
  rw [verdict?, h]
  simp only [hcode, Bool.false_eq_true, if_false, dropPrefix?_append]

theorem verdict?_of_skipped {line : List Char} (h : Leading.Skipped line) : verdict? line = none := by
  have hpassed (h : (trim line).isEmpty = true ∨ "/*".toList.isPrefixOf (trim line) = true ∨
      ['*'].isPrefixOf (trim line) = true) : verdict? line = none := by
    refine if_pos ?_
    rwa [Bool.or_eq_true, Bool.or_eq_true, or_assoc]
  rcases h with hempty | hopening | hstar | ⟨⟨said, hslashes⟩, hplain⟩
  · exact hpassed (.inl (List.isEmpty_iff.mpr hempty))
  · exact hpassed (.inr (.inl (List.isPrefixOf_iff_prefix.mpr hopening)))
  · exact hpassed (.inr (.inr (List.isPrefixOf_iff_prefix.mpr hstar)))
  · have hnone : dropPrefix? "go:build".toList said = none := by
      rw [Option.eq_none_iff_forall_ne_some]
      intro rest hrest
      refine hplain ⟨rest, ?_⟩
      rw [← hslashes, dropPrefix?_eq_some_iff.mp hrest]
      rfl
    rw [verdict?_of_trim hslashes.symm, hnone, Option.map_none]

theorem verdict?_comment {indent : List Char} (h : Blank indent) (said : List Char) :
    verdict? (indent ++ "//".toList ++ said) =
      (dropPrefix? "go:build".toList said).map fun rest => decide (trim rest = "ignore".toList) := by
  have hslashes : IsTrimmed "//".toList := by decide
  have htrim : trim (indent ++ "//".toList ++ said) = "//".toList ++ trimEnd said := by
    rw [List.append_assoc, trim_blanks_append h.isBlank, hslashes.trim_append (by decide)]
  have hend (rest : List Char) : decide (trim (trimEnd rest) = "ignore".toList) =
      decide (trim rest = "ignore".toList) := by
    rw [trim_trimEnd]
  rw [verdict?_of_trim htrim, dropPrefix?_trimEnd (by decide), Option.map_map]
  exact Option.map_congr fun rest _ => hend rest

theorem skipped_opening {indent : List Char} (h : Blank indent) (rest : List Char) :
    Leading.Skipped (indent ++ "/*".toList ++ rest) := by
  have hopening : IsTrimmed "/*".toList := by decide
  refine .inr (.inl ?_)
  rw [List.append_assoc, trim_blanks_append h.isBlank, hopening.trim_append (by decide)]
  exact List.prefix_append _ _

theorem verdict?_package {indent : List Char} (h : Blank indent) (rest : List Char) :
    verdict? (indent ++ "package".toList ++ rest) = some false := by
  have hpackage : IsTrimmed "package".toList := by decide
  rw [verdict?, List.append_assoc, trim_blanks_append h.isBlank, hpackage.trim_append (by decide)]
  rfl

/-! ## The scan of what stands in front of the package clause -/

namespace Leading

variable {item : Leading} {items : List Leading} {clause : List Char}

def told? (item : Leading) : Option Bool :=
  (fieldsBy (· = '\n') item.text).findSome? verdict?

/-- The first item that tells anything decides, and if none does, the package clause. -/
theorem isIgnored_textOf (hclause : PackageClause clause) (items : List Leading) :
    isIgnored (String.ofList (textOf items ++ clause)) = (items.findSome? told?).getD false := by
  have hfound : (fieldsBy (· = '\n') (textOf items ++ clause)).findSome? verdict? =
      (items.findSome? told?).or (some false) := by
    induction items with
    | nil =>
        obtain ⟨indent, rest, hindent, rfl⟩ := hclause
        obtain ⟨field, fields, hfields⟩ := exists_fieldsBy (· = '\n') rest
        have hplain : '\n' ∉ indent ++ "package".toList := by
          rw [List.mem_append, not_or]
          exact ⟨hindent.no_lineFeed, by decide⟩
        have hclause := fieldsBy_append (forall_ne_of_notMem hplain) hfields
        rw [textOf, List.flatMap_nil, List.nil_append, hclause, List.findSome?_cons,
          verdict?_package hindent]
        rfl
    | cons item items ih =>
        have htext : textOf (item :: items) ++ clause =
            item.text ++ '\n' :: (textOf items ++ clause) := by
          simp [textOf]
        rw [htext, fieldsBy_append_cons (by decide), List.findSome?_append, ih, ← told?,
          List.findSome?_cons]
        cases item.told? <;> rfl
  rw [isIgnored_eq, hfound]
  cases items.findSome? told? <;> rfl

theorem told?_comment {indent said : List Char} (h : (comment indent said).WellFormed) :
    (comment indent said).told? =
      (dropPrefix? "go:build".toList said).map fun rest => decide (trim rest = "ignore".toList) := by
  obtain ⟨hindent, hsaid⟩ := h
  have hplain : '\n' ∉ indent ++ "//".toList ++ said := by
    simp only [List.mem_append, not_or]
    exact ⟨⟨hindent.no_lineFeed, by decide⟩, hsaid⟩
  rw [told?, text, fieldsBy_of_all (forall_ne_of_notMem hplain), List.findSome?_singleton,
    verdict?_comment hindent]

theorem told?_of_passedOver (h : item.WellFormed) (hpassed : item.PassedOver) : item.told? = none := by
  cases item with
  | blank blanks =>
      have hskipped : Skipped blanks := .inl <| by
        have htrim := trim_blanks_append h.isBlank []
        rwa [List.append_nil] at htrim
      rw [told?, text, fieldsBy_of_all (forall_ne_of_notMem h.no_lineFeed),
        List.findSome?_singleton, verdict?_of_skipped hskipped]
  | comment indent said =>
      have hnone : dropPrefix? "go:build".toList said = none := by
        rw [Option.eq_none_iff_forall_ne_some]
        exact fun rest hrest => hpassed ⟨rest, (dropPrefix?_eq_some_iff.mp hrest).symm⟩
      rw [told?_comment h, hnone, Option.map_none]
  | block indent inside behind =>
      obtain ⟨field, fields, hfields⟩ :=
        exists_fieldsBy (· = '\n') (inside ++ "*/".toList ++ behind)
      have hplain : '\n' ∉ indent ++ "/*".toList := by
        rw [List.mem_append, not_or]
        exact ⟨h.1.no_lineFeed, by decide⟩
      have htext : text (block indent inside behind) =
          indent ++ "/*".toList ++ (inside ++ "*/".toList ++ behind) := by
        simp [text]
      rw [PassedOver, hfields, List.tail_cons] at hpassed
      rw [told?, htext, fieldsBy_append (forall_ne_of_notMem hplain) hfields, List.findSome?_eq_none_iff,
        List.forall_mem_cons]
      exact ⟨verdict?_of_skipped (skipped_opening h.1 field),
        fun line hline => verdict?_of_skipped (hpassed line hline)⟩

theorem told?_of_constraint? (h : item.WellFormed) {expression : List Char}
    (hconstraint : item.constraint? = some expression) :
    item.told? = some (decide (expression = "ignore".toList)) := by
  cases item with
  | comment indent said =>
      obtain ⟨rest, hrest, hblank⟩ := Option.bind_eq_some_iff.mp hconstraint
      rw [Option.ite_none_right_eq_some] at hblank
      rw [told?_comment h, hrest, Option.map_some, ← Option.some.inj hblank.2]
  | blank blanks => cases hconstraint
  | block indent inside behind => cases hconstraint

/-- A source is ignored if and only if the first build constraint in front of its package clause is
`ignore`, provided that the scan passes over what stands before that constraint. -/
theorem isIgnored_iff_constraint (hitems : ∀ item ∈ items, item.WellFormed)
    (hpassed : ∀ item ∈ items.takeWhile fun item => item.constraint?.isNone, item.PassedOver)
    (hclause : PackageClause clause) :
    isIgnored (String.ofList (textOf items ++ clause)) = true ↔
      items.findSome? constraint? = some "ignore".toList := by
  have htold : items.findSome? told? =
      (items.findSome? constraint?).map fun expression => decide (expression = "ignore".toList) := by
    clear hclause
    induction items with
    | nil => rfl
    | cons item items ih =>
        obtain ⟨hitem, hitems⟩ := List.forall_mem_cons.mp hitems
        rw [List.findSome?_cons, List.findSome?_cons]
        cases hconstraint : item.constraint? with
        | some expression => rw [told?_of_constraint? hitem hconstraint, Option.map_some]
        | none =>
            rw [List.takeWhile_cons_of_pos (by rw [hconstraint]; rfl)] at hpassed
            obtain ⟨hfirst, hpassed⟩ := List.forall_mem_cons.mp hpassed
            rw [told?_of_passedOver hitem hfirst]
            exact ih hitems hpassed
  rw [isIgnored_textOf hclause, htold]
  cases items.findSome? constraint? with
  | none => exact iff_of_false nofun nofun
  | some expression => rw [Option.map_some, Option.getD_some, decide_eq_true_iff, Option.some.injEq]

theorem isIgnored_iff_constraint_starred :
    isIgnored (String.ofList (textOf [comment [] " of a tool".toList, blank [],
      block [] "\n * Long.\n ".toList [], comment [] "go:build ignore".toList] ++
      "package p\n".toList)) = true :=
  (isIgnored_iff_constraint (by decide) (by decide) ⟨[], " p\n".toList, nofun, by decide⟩).mpr
    (by decide)

/-- A line of a block comment that looks like code hides the constraint behind it, and one that looks
like a constraint is taken for one. So is a line comment in which `go:build` begins a longer word. -/
theorem isIgnored_mistaken :
    ((∀ item ∈ [block [] "\n doc\n".toList [], comment [] "go:build ignore".toList],
        item.WellFormed) ∧
      [block [] "\n doc\n".toList [], comment [] "go:build ignore".toList].findSome? constraint? =
        some "ignore".toList ∧
      isIgnored (String.ofList (textOf [block [] "\n doc\n".toList [],
        comment [] "go:build ignore".toList] ++ "package p\n".toList)) = false) ∧
    ((block [] "\n//go:build ignore\n".toList []).WellFormed ∧
      [block [] "\n//go:build ignore\n".toList []].findSome? constraint? = none ∧
      isIgnored (String.ofList (textOf [block [] "\n//go:build ignore\n".toList []] ++
        "package p\n".toList)) = true) ∧
    (comment [] "go:buildignore".toList).WellFormed ∧
      [comment [] "go:buildignore".toList].findSome? constraint? = none ∧
      isIgnored (String.ofList (textOf [comment [] "go:buildignore".toList] ++
        "package p\n".toList)) = true := by
  decide

end Leading

end GoTrace
