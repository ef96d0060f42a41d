import GoTrace.Text.Cut

/-!
# Pieces of a text

What the pieces of a text are that is put together from known parts: white space is trimmed from both
ends, the first separator or mark cuts a text in two, separators cut it into fields, white space into
words and line ends into lines.
-/

namespace GoTrace.Text

variable {separates : Char → Bool} {text before rest : List Char} {c : Char}

/-! ## White space at the ends -/

def Blank (text : List Char) : Prop :=
  ∀ c ∈ text, isBlank c = true ∧ c ≠ '\n'

instance (text : List Char) : Decidable (Blank text) :=
  List.decidableBAll _ text

def Unbroken (text : List Char) : Prop :=
  ∀ c ∈ text, isBlank c = false

instance (text : List Char) : Decidable (Unbroken text) :=
  List.decidableBAll _ text

theorem Blank.isBlank (h : Blank text) : ∀ c ∈ text, Text.isBlank c = true := fun c hc => (h c hc).1

theorem Blank.notMem (h : Blank text) (hc : Text.isBlank c = false) : c ∉ text :=
  fun hmem => absurd ((h.isBlank c hmem).symm.trans hc) (by decide)

theorem Blank.no_lineFeed (h : Blank text) : '\n' ∉ text :=
  fun hmem => (h _ hmem).2 rfl

theorem trimStart_of_not_isBlank (h : isBlank c = false) (rest : List Char) :
    trimStart (c :: rest) = c :: rest := by
  simp [trimStart, h]

theorem mem_of_mem_trim (h : c ∈ trim text) : c ∈ text := by
  have hstart {text : List Char} (h : c ∈ trimStart text) : c ∈ text :=
    (List.dropWhile_sublist _).subset h
  exact hstart (List.mem_reverse.mp (hstart (List.mem_reverse.mp h)))

theorem length_trim_le (text : List Char) : (trim text).length ≤ text.length := by
  have hstart (text : List Char) : (trimStart text).length ≤ text.length :=
    (List.dropWhile_sublist _).length_le
  have hend := hstart (trimStart text).reverse
  have hboth := hstart text
  rw [List.length_reverse] at hend
  rw [trim, List.length_reverse]
  omega

def IsTrimmed (text : List Char) : Prop :=
  (∀ c ∈ text.head?, isBlank c = false) ∧ ∀ c ∈ text.getLast?, isBlank c = false

instance (text : List Char) : Decidable (IsTrimmed text) :=
  decidable_of_iff (text.head?.all (!isBlank ·) = true ∧ text.getLast?.all (!isBlank ·) = true)
    (by simp [IsTrimmed, Option.all_eq_true])

theorem Unbroken.isTrimmed (h : Unbroken text) : IsTrimmed text :=
  ⟨fun c hc => h c (List.mem_of_mem_head? hc), fun c hc => h c (List.mem_of_mem_getLast? hc)⟩

theorem trimStart_blanks_append {blanks : List Char} (h : ∀ c ∈ blanks, isBlank c = true)
    (rest : List Char) : trimStart (blanks ++ rest) = trimStart rest :=
  List.dropWhile_append_of_pos h

theorem trimStart_of_head? (h : ∀ c ∈ text.head?, isBlank c = false) : trimStart text = text := by
  cases text with
  | nil => rfl
  | cons c rest => exact trimStart_of_not_isBlank (h c rfl) rest

theorem trim_append_blanks {blanks : List Char} (h : ∀ c ∈ blanks, isBlank c = true)
    (text : List Char) : trim (text ++ blanks) = trim text := by
  have hreverse : ∀ c ∈ blanks.reverse, isBlank c = true := fun c hc => h c (List.mem_reverse.mp hc)
  have hblanks : blanks.dropWhile isBlank = [] := by
    have hnil := trimStart_blanks_append h []
    rwa [List.append_nil] at hnil
  unfold trim trimStart
  rw [List.dropWhile_append]
  split
  · rename_i hempty
    rw [List.isEmpty_iff.mp hempty, hblanks]
  · rw [List.reverse_append, List.dropWhile_append_of_pos hreverse]

theorem trim_blanks_append {blanks : List Char} (h : ∀ c ∈ blanks, isBlank c = true)
    (text : List Char) : trim (blanks ++ text) = trim text := by
  rw [trim, trimStart_blanks_append h, trim]

theorem IsTrimmed.trim_eq (h : IsTrimmed text) : trim text = text := by
  have hlast : trimStart text.reverse = text.reverse :=
    trimStart_of_head? fun c hc => h.2 c (by rwa [List.head?_reverse] at hc)
  rw [trim, trimStart_of_head? h.1, hlast, List.reverse_reverse]

theorem IsTrimmed.between (hbefore : IsTrimmed before) (hne : before ≠ []) (hrest : IsTrimmed rest)
    (hne' : rest ≠ []) (middle : List Char) : IsTrimmed (before ++ middle ++ rest) := by
  obtain ⟨first, before, rfl⟩ := List.exists_cons_of_ne_nil hne
  obtain ⟨other, last, rfl⟩ := (List.eq_nil_or_concat rest).resolve_left hne'
  refine ⟨fun c hc => hbefore.1 c hc, fun c hc => hrest.2 c ?_⟩
  rw [List.concat_eq_append, ← List.append_assoc, List.getLast?_concat] at hc
  rwa [List.concat_eq_append, List.getLast?_concat]

theorem Unbroken.trim_eq (h : Unbroken text) : trim text = text :=
  h.isTrimmed.trim_eq

def trimEnd (text : List Char) : List Char :=
  (trimStart text.reverse).reverse

theorem trimEnd_append (h : ∀ c ∈ before.getLast?, isBlank c = false) (rest : List Char) :
    trimEnd (before ++ rest) = before ++ trimEnd rest := by
  have hbefore : trimStart before.reverse = before.reverse :=
    trimStart_of_head? fun c hc => h c (by rwa [List.head?_reverse] at hc)
  unfold trimStart at hbefore
  unfold trimEnd trimStart
  rw [List.reverse_append, List.dropWhile_append, hbefore]
  split
  · rename_i hempty
    rw [List.isEmpty_iff.mp hempty, List.reverse_reverse, List.reverse_nil, List.append_nil]
  · rw [List.reverse_append, List.reverse_reverse]

theorem exists_trimEnd (text : List Char) :
    ∃ blanks, (∀ c ∈ blanks, isBlank c = true) ∧ text = trimEnd text ++ blanks := by
  refine ⟨(text.reverse.takeWhile isBlank).reverse, fun c hc => ?_, ?_⟩
  · exact List.all_eq_true.mp List.all_takeWhile c (List.mem_reverse.mp hc)
  · rw [trimEnd, trimStart, ← List.reverse_append, List.takeWhile_append_dropWhile,
      List.reverse_reverse]

theorem trim_trimEnd (text : List Char) : trim (trimEnd text) = trim text := by
  obtain ⟨blanks, hblanks, htext⟩ := exists_trimEnd text
  have htrim := congrArg trim htext
  rw [trim_append_blanks hblanks] at htrim
  exact htrim.symm

theorem IsTrimmed.trim_append (h : IsTrimmed before) (hne : before ≠ []) (rest : List Char) :
    trim (before ++ rest) = before ++ trimEnd rest := by
  obtain ⟨first, others, rfl⟩ := List.exists_cons_of_ne_nil hne
  have hstart : trimStart (first :: others ++ rest) = first :: others ++ rest :=
    trimStart_of_head? h.1
  rw [← trimEnd_append h.2, trim, hstart, trimEnd]

theorem trim_dropReturn (line : List Char) : trim (dropReturn line) = trim line := by
  unfold dropReturn
  split
  · rename_i hlast
    obtain ⟨before, rfl⟩ := List.getLast?_eq_some_iff.mp hlast
    rw [List.dropLast_concat, trim_append_blanks (List.forall_mem_singleton.mpr rfl)]
  · rfl

/-! ## Cuts -/

theorem dropPrefix?_append (lead rest : List Char) : dropPrefix? lead (lead ++ rest) = some rest := by
  simp [dropPrefix?]

theorem dropPrefix?_eq_some_iff {lead : List Char} :
    dropPrefix? lead text = some rest ↔ text = lead ++ rest := by
  constructor
  · intro h
    obtain ⟨hfront, heq⟩ := Option.ite_none_right_eq_some.mp h
    obtain ⟨behind, rfl⟩ := List.isPrefixOf_iff_prefix.mp hfront
    rw [← Option.some.inj heq, List.drop_left]
  · rintro rfl
    exact dropPrefix?_append lead rest

theorem dropPrefix?_trimEnd {lead : List Char} (h : IsTrimmed lead)
    (text : List Char) : dropPrefix? lead (trimEnd text) = (dropPrefix? lead text).map trimEnd := by
  cases hdrop : dropPrefix? lead text with
  | some rest =>
      rw [dropPrefix?_eq_some_iff.mp hdrop, trimEnd_append h.2, dropPrefix?_append, Option.map_some]
  | none =>
      rw [Option.map_none, Option.eq_none_iff_forall_ne_some]
      intro rest hrest
      obtain ⟨blanks, -, htext⟩ := exists_trimEnd text
      rw [dropPrefix?_eq_some_iff.mp hrest, List.append_assoc] at htext
      exact nomatch hdrop.symm.trans (dropPrefix?_eq_some_iff.mpr htext)

theorem dropLast?_eq_some_iff {mark : Char} {inner : List Char} :
    dropLast? mark text = some inner ↔ text = inner ++ [mark] := by
  unfold dropLast?
  constructor
  · intro h
    obtain ⟨hlast, heq⟩ := Option.ite_none_right_eq_some.mp h
    obtain ⟨before, rfl⟩ := List.getLast?_eq_some_iff.mp hlast
    rw [← Option.some.inj heq, List.dropLast_concat]
  · rintro rfl
    simp

theorem cutBy?_eq_none_iff : cutBy? separates text = none ↔ ∀ c ∈ text, separates c = false := by
  induction text with
  | nil => simp [cutBy?]
  | cons c rest ih =>
      rw [cutBy?, List.forall_mem_cons]
      cases hc : separates c with
      | true => simp
      | false => simp [ih]

theorem cutBy?_append (hbefore : ∀ c ∈ before, separates c = false) (hc : separates c = true) :
    cutBy? separates (before ++ c :: rest) = some (before, rest) := by
  induction before with
  | nil => simp [cutBy?, hc]
  | cons d before ih =>
      obtain ⟨hd, hbefore⟩ := List.forall_mem_cons.mp hbefore
      simp [cutBy?, hd, ih hbefore]

theorem exists_of_cutBy? (h : cutBy? separates text = some (before, rest)) :
    ∃ c, separates c = true ∧ text = before ++ c :: rest := by
  induction text generalizing before with
  | nil => cases h
  | cons c later ih =>
      rw [cutBy?] at h
      split at h
      · rename_i hc
        cases h
        exact ⟨c, hc, rfl⟩
      · obtain ⟨⟨inner, other⟩, hcut, heq⟩ := Option.map_eq_some_iff.mp h
        cases heq
        obtain ⟨d, hd, rfl⟩ := ih hcut
        exact ⟨d, hd, rfl⟩

theorem cutAt?_append {mark : List Char} {last : Char} (h : ¬ mark ++ [last] <:+: before ++ mark)
    (rest : List Char) :
    cutAt? (mark ++ [last]) (before ++ (mark ++ last :: rest)) = some (before, rest) := by
  induction before with
  | nil =>
      cases mark <;> simp [cutAt?]
  | cons c before ih =>
      have hnot : (mark ++ [last]).isPrefixOf (c :: (before ++ (mark ++ last :: rest))) = false := by
        rw [Bool.eq_false_iff, ne_eq, List.isPrefixOf_iff_prefix]
        intro hfront
        have hwhole : c :: before ++ mark <+: c :: (before ++ (mark ++ last :: rest)) :=
          ⟨last :: rest, by simp⟩
        refine h (List.prefix_of_prefix_length_le hfront hwhole ?_).isInfix
        simp only [List.length_append, List.length_cons, List.length_nil]
        omega
      have hbefore : ¬ mark ++ [last] <:+: before ++ mark := fun hwithin => h (List.infix_cons hwithin)
      rw [List.cons_append, cutAt?, hnot, ih hbefore]
      rfl

/-- A mark of two characters stands in neither of two texts, nor where they meet. -/
theorem not_infix_append {a b : Char} (hbefore : ¬ [a, b] <:+: before) (hrest : ¬ [a, b] <:+: rest)
    (hmeet : before.getLast? ≠ some a ∨ rest.head? ≠ some b) : ¬ [a, b] <:+: before ++ rest := by
  induction before with
  | nil => exact hrest
  | cons c before ih =>
      rw [List.cons_append, List.infix_cons_iff]
      rintro (hfront | hwithin)
      · obtain ⟨rfl, hhead⟩ := List.cons_prefix_cons.mp hfront
        cases before with
        | nil =>
            obtain ⟨tail, rfl⟩ := hhead
            rcases hmeet with hlast | hfirst
            · exact hlast rfl
            · exact hfirst rfl
        | cons d before =>
            obtain ⟨rfl, -⟩ := List.cons_prefix_cons.mp hhead
            exact hbefore ⟨[], before, rfl⟩
      · refine ih (fun hinner => hbefore (List.infix_cons hinner)) ?_ hwithin
        refine hmeet.imp_left fun hlast hinner => hlast ?_
        rw [List.getLast?_cons, hinner]
        rfl

theorem not_infix_of_notMem {a b : Char} (h : a ∉ text) : ¬ [a, b] <:+: text :=
  fun hwithin => h (hwithin.subset List.mem_cons_self)

theorem not_infix_append_blank {a b : Char} (h : ¬ [a, b] <:+: text) {blanks : List Char}
    (hblanks : Blank blanks) (ha : isBlank a = false) (hb : isBlank b = false) :
    ¬ [a, b] <:+: text ++ blanks :=
  not_infix_append h (not_infix_of_notMem (hblanks.notMem ha))
    (.inr fun hhead => hblanks.notMem hb (List.mem_of_mem_head? hhead))

theorem not_infix_blank_append {a b : Char} (h : ¬ [a, b] <:+: text) {blanks : List Char}
    (hblanks : Blank blanks) (ha : isBlank a = false) : ¬ [a, b] <:+: blanks ++ text :=
  not_infix_append (not_infix_of_notMem (hblanks.notMem ha)) h
    (.inl fun hlast => hblanks.notMem ha (List.mem_of_mem_getLast? hlast))

theorem getLast?_ne_of_notMem (h : c ∉ text) : text.getLast? ≠ some c :=
  fun hlast => h (List.mem_of_mem_getLast? hlast)

theorem getLast?_append_ne (hrest : rest.getLast? ≠ some c)
    (hbefore : rest = [] → before.getLast? ≠ some c) : (before ++ rest).getLast? ≠ some c := by
  rcases List.eq_nil_or_concat rest with rfl | ⟨inner, last, rfl⟩
  · rw [List.append_nil]
    exact hbefore rfl
  · rw [List.concat_eq_append, List.getLast?_concat] at hrest
    rwa [List.concat_eq_append, ← List.append_assoc, List.getLast?_concat]

/-- A character that is no part of a mark does not change where the mark is found first. -/
theorem cutAt?_concat {mark : List Char} (hne : mark ≠ []) (hc : c ∉ mark) (text : List Char) :
    cutAt? mark (text ++ [c]) = (cutAt? mark text).map fun parts => (parts.1, parts.2 ++ [c]) := by
  obtain ⟨first, others, rfl⟩ := List.exists_cons_of_ne_nil hne
  have hfront (text : List Char) : (first :: others).isPrefixOf (text ++ [c]) =
      (first :: others).isPrefixOf text := by
    rw [Bool.eq_iff_iff, List.isPrefixOf_iff_prefix, List.isPrefixOf_iff_prefix,
      List.prefix_concat_iff, or_iff_right]
    intro heq
    rw [heq] at hc
    exact hc (List.mem_append_right _ List.mem_cons_self)
  induction text with
  | nil =>
      have hnil := hfront []
      rw [List.nil_append] at hnil
      simp [cutAt?, hnil]
  | cons d text ih =>
      have hcons := hfront (d :: text)
      rw [List.cons_append] at hcons ⊢
      rw [cutAt?, cutAt?, hcons, ih]
      split
      · rename_i hlead
        have hle := (List.isPrefixOf_iff_prefix.mp hlead).length_le
        rw [Option.map_some, ← List.cons_append, List.drop_append_of_le_length hle]
      · rw [Option.map_map, Option.map_map]
        rfl

theorem cutAt?_eq_none_iff {mark : List Char} (hne : mark ≠ []) :
    cutAt? mark text = none ↔ ¬ mark <:+: text := by
  induction text with
  | nil => simp [cutAt?, hne]
  | cons c rest ih =>
      rw [cutAt?, List.infix_cons_iff, ← List.isPrefixOf_iff_prefix]
      split
      · rename_i hfront
        simp [hfront]
      · rename_i hfront
        rw [Option.map_eq_none_iff, ih, or_iff_right hfront]

theorem cutLast?_eq_none_iff {mark : Char} : cutLast? mark text = none ↔ mark ∉ text := by
  induction text with
  | nil => simp [cutLast?]
  | cons c text ih =>
      rw [cutLast?, List.mem_cons, not_or, ← ih]
      cases cutLast? mark text with
      | some parts => simp
      | none => simp [eq_comm]

theorem cutLast?_append {mark : Char} (h : mark ∉ rest) (before : List Char) :
    cutLast? mark (before ++ mark :: rest) = some (before, rest) := by
  induction before with
  | nil => rw [List.nil_append, cutLast?, cutLast?_eq_none_iff.mpr h, if_pos rfl]
  | cons c before ih => rw [List.cons_append, cutLast?, ih]

theorem cutLast?_eq_some_iff {mark : Char} :
    cutLast? mark text = some (before, rest) ↔ text = before ++ mark :: rest ∧ mark ∉ rest := by
  constructor
  · intro h
    induction text generalizing before with
    | nil => cases h
    | cons c text ih =>
        rw [cutLast?] at h
        cases hcut : cutLast? mark text with
        | some parts =>
            rw [hcut] at h
            cases h
            obtain ⟨rfl, hrest⟩ := ih hcut
            exact ⟨rfl, hrest⟩
        | none =>
            rw [hcut] at h
            obtain ⟨rfl, heq⟩ := Option.ite_none_right_eq_some.mp h
            cases heq
            exact ⟨rfl, cutLast?_eq_none_iff.mp hcut⟩
  · rintro ⟨rfl, hrest⟩
    exact cutLast?_append hrest before

/-! ## Fields -/

section

variable {α : Type} {separates : α → Bool} {text before : List α}

theorem fieldsBy_ne_nil (text : List α) : fieldsBy separates text ≠ [] := by
  induction text with
  | nil => nofun
  | cons c rest ih =>
      rw [fieldsBy]
      split
      · nofun
      · split <;> nofun

theorem exists_fieldsBy (separates : α → Bool) (text : List α) :
    ∃ field fields, fieldsBy separates text = field :: fields :=
  List.exists_cons_of_ne_nil (fieldsBy_ne_nil text)

theorem fieldsBy_cons_of_separates {c : α} (h : separates c = true) (rest : List α) :
    fieldsBy separates (c :: rest) = [] :: fieldsBy separates rest := by
  rw [fieldsBy]
  split
  · rename_i hnil
    exact absurd hnil (fieldsBy_ne_nil rest)
  · rename_i field fields hfields
    rw [if_pos h, hfields]

theorem fieldsBy_mark_cons [DecidableEq α] (mark : α) (rest : List α) :
    fieldsBy (· = mark) (mark :: rest) = [] :: fieldsBy (· = mark) rest := by
  refine fieldsBy_cons_of_separates ?_ rest
  exact decide_eq_true rfl

theorem fieldsBy_append (h : ∀ c ∈ before, separates c = false)
    {field : List α} {fields : List (List α)}
    (hfields : fieldsBy separates text = field :: fields) :
    fieldsBy separates (before ++ text) = (before ++ field) :: fields := by
  induction before with
  | nil => exact hfields
  | cons c before ih =>
      obtain ⟨hc, hbefore⟩ := List.forall_mem_cons.mp h
      rw [List.cons_append, fieldsBy, ih hbefore]
      simp [hc]

theorem forall_ne_of_notMem [DecidableEq α] {mark : α} (h : mark ∉ text) :
    ∀ c ∈ text, decide (c = mark) = false := by
  intro c hc
  rw [decide_eq_false_iff_not]
  rintro rfl
  exact h hc

theorem fieldsBy_of_all (h : ∀ c ∈ text, separates c = false) : fieldsBy separates text = [text] := by
  have hfields := fieldsBy_append h (rfl : fieldsBy separates [] = [[]])
  rwa [List.append_nil] at hfields

theorem fieldsBy_append_cons {c : α} (h : separates c = true) (before rest : List α) :
    fieldsBy separates (before ++ c :: rest) =
      fieldsBy separates before ++ fieldsBy separates rest := by
  induction before with
  | nil => exact fieldsBy_cons_of_separates h rest
  | cons d before ih =>
      obtain ⟨field, fields, hfields⟩ := exists_fieldsBy separates before
      rw [List.cons_append, fieldsBy, fieldsBy, ih, hfields, List.cons_append]
      dsimp only
      split <;> rfl

theorem fieldsBy_append_mark_cons [DecidableEq α] (before : List α) (mark : α) (rest : List α) :
    fieldsBy (· = mark) (before ++ mark :: rest) =
      fieldsBy (· = mark) before ++ fieldsBy (· = mark) rest := by
  refine fieldsBy_append_cons ?_ before rest
  exact decide_eq_true rfl

theorem fieldsBy_intercalate [DecidableEq α] {mark : α} {fields : List (List α)} (hne : fields ≠ [])
    (h : ∀ field ∈ fields, mark ∉ field) :
    fieldsBy (· = mark) ([mark].intercalate fields) = fields := by
  induction fields with
  | nil => exact absurd rfl hne
  | cons field rest ih =>
      obtain ⟨hfield, hrest⟩ := List.forall_mem_cons.mp h
      have hplain := forall_ne_of_notMem hfield
      cases rest with
      | nil => simpa using fieldsBy_of_all hplain
      | cons next rest =>
          have hlater : fieldsBy (· = mark) (mark :: [mark].intercalate (next :: rest)) =
              [] :: next :: rest := by
            rw [fieldsBy_mark_cons, ih nofun hrest]
          have hfields := fieldsBy_append hplain hlater
          rw [List.append_nil] at hfields
          rw [List.intercalate_cons_cons, List.append_assoc]
          exact hfields

theorem intercalate_append {mark : α} {fields more : List (List α)} (hfields : fields ≠ [])
    (hmore : more ≠ []) :
    [mark].intercalate (fields ++ more) =
      [mark].intercalate fields ++ mark :: [mark].intercalate more := by
  obtain ⟨next, later, rfl⟩ := List.exists_cons_of_ne_nil hmore
  induction fields with
  | nil => exact absurd rfl hfields
  | cons field rest ih =>
      cases rest with
      | nil =>
          rw [List.singleton_append, List.intercalate_cons_cons, List.intercalate_singleton,
            List.append_assoc, List.singleton_append]
      | cons other rest =>
          rw [List.cons_append, List.cons_append, List.intercalate_cons_cons, ← List.cons_append,
            ih nofun, List.intercalate_cons_cons, List.append_assoc _ _ (mark :: _)]

theorem intercalate_fieldsBy [DecidableEq α] {mark : α} (text : List α) :
    [mark].intercalate (fieldsBy (· = mark) text) = text := by
  induction text with
  | nil => rfl
  | cons c rest ih =>
      obtain ⟨field, fields, hfields⟩ := exists_fieldsBy (· = mark) rest
      rw [hfields] at ih
      rw [fieldsBy, hfields]
      dsimp only
      split
      · rename_i hmark
        have hcons : [mark].intercalate ([[]] ++ field :: fields) =
            mark :: [mark].intercalate (field :: fields) :=
          intercalate_append (List.cons_ne_nil [] []) (List.cons_ne_nil field fields)
        rw [ih] at hcons
        rw [of_decide_eq_true hmark]
        exact hcons
      · rw [← ih]
        cases fields with
        | nil => rfl
        | cons next fields =>
            rw [List.intercalate_cons_cons, List.intercalate_cons_cons]
            rfl

theorem notMem_of_mem_fieldsBy {field : List α} (h : field ∈ fieldsBy separates text) :
    ∀ c ∈ field, separates c = false := by
  induction text generalizing field with
  | nil =>
      rw [List.mem_singleton.mp h]
      nofun
  | cons c rest ih =>
      rw [fieldsBy] at h
      split at h
      · rename_i hnil
        exact absurd hnil (fieldsBy_ne_nil rest)
      · rename_i first fields hfields
        rw [hfields] at ih
        split at h
        · rcases List.mem_cons.mp h with rfl | hmem
          · nofun
          · exact ih hmem
        · rename_i hc
          rcases List.mem_cons.mp h with rfl | hmem
          · exact List.forall_mem_cons.mpr ⟨Bool.not_eq_true _ ▸ hc, ih List.mem_cons_self⟩
          · exact ih (List.mem_cons_of_mem _ hmem)

end

/-! ## Words and lines -/

theorem words_blanks_append {blanks : List Char} (h : ∀ c ∈ blanks, isBlank c = true)
    (rest : List Char) : words (blanks ++ rest) = words rest := by
  induction blanks with
  | nil => rfl
  | cons c blanks ih =>
      obtain ⟨hc, hblanks⟩ := List.forall_mem_cons.mp h
      have hrest := ih hblanks
      rw [words, List.cons_append, fieldsBy_cons_of_separates hc]
      exact hrest

theorem words_append_cons {word : List Char} (hne : word ≠ []) (hword : Unbroken word)
    (hc : isBlank c = true) (rest : List Char) : words (word ++ c :: rest) = word :: words rest := by
  rw [words, fieldsBy_append hword (fieldsBy_cons_of_separates hc rest), List.append_nil,
    List.filter_cons, if_pos (by simpa using hne), words]

theorem words_of_unbroken (hne : text ≠ []) (h : Unbroken text) : words text = [text] := by
  rw [words, fieldsBy_of_all h, List.filter_cons, if_pos (by simpa using hne), List.filter_nil]

theorem words_append_blanks {word blanks : List Char} (hne : word ≠ [])
    (hword : Unbroken word) (h : ∀ c ∈ blanks, isBlank c = true) :
    words (word ++ blanks) = [word] := by
  cases blanks with
  | nil => rw [List.append_nil, words_of_unbroken hne hword]
  | cons c blanks =>
      obtain ⟨hc, hblanks⟩ := List.forall_mem_cons.mp h
      have hnil := words_blanks_append hblanks []
      rw [List.append_nil] at hnil
      rw [words_append_cons hne hword hc, hnil]
      rfl

/-- What is the same with and without a carriage return, and nothing for an empty line, is found in the
lines of a text as between its line feeds. -/
theorem filterMap_lines {α : Type} {f : List Char → Option α} (hnil : f [] = none)
    (hreturn : ∀ line, f (dropReturn line) = f line) (text : List Char) :
    (lines text).filterMap f = (fieldsBy (· = '\n') text).filterMap f := by
  have hfields : fieldsBy (· = '\n') text ≠ [] := fieldsBy_ne_nil text
  have hcompose : f ∘ dropReturn = f := funext hreturn
  unfold lines
  generalize fieldsBy (· = '\n') text = fields at hfields
  obtain ⟨before, last, rfl⟩ := (List.eq_nil_or_concat fields).resolve_left hfields
  simp only [List.concat_eq_append, List.dropLast_concat, List.getLastD_concat, List.filterMap_append,
    List.filterMap_map, hcompose]
  congr 1
  cases last with
  | nil => rw [List.filterMap_cons, hnil]; rfl
  | cons c rest => rfl

end GoTrace.Text
