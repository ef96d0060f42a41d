import GoTrace.Proofs.Grammar.Extent
import GoTrace.Proofs.Parser.Placement

/-!
# Reading a part of a text

Where a part of a text ends by itself, it does not matter what stands behind it: the same is found in
it, and what is left of it is the same. What a part is like says how far a parser can get in it, so a
parser takes parts of one kind to parts of another. One lemma for every combinator carries the fact from
the parts of a rule to the rule.
-/

namespace GoTrace.Parser

variable {α β : Type} [Placed α] [Placed β]

/-- Two findings in one part of two texts, which go on with `first` and `second`: they differ in positions
only, and what they leave of the part is the same. -/
structure Parted (left : List Char → Prop) (text first second : List Char)
    (found found' : Found α) : Prop where
  value : bare found.value = bare found'.value
  fault : found.fault.isSome = found'.fault.isSome
  rest : ∃ rest, left rest ∧ rest.length ≤ text.length ∧
    found.next.rest = rest ++ first ∧ found'.next.rest = rest ++ second

/-- Two parsers find the same in every part `whole` that has at most `size` characters, whatever stands
behind it, and leave a part `left` of it. Behind it stands what satisfies `behind`. -/
def Local (behind : List Char → Prop) (size : Nat) (whole left : List Char → Prop)
    (p q : Parser α) : Prop :=
  ∀ text, whole text → text.length ≤ size → ∀ first second, behind first → behind second →
    ∀ mode start start', Option.Rel (Parted left text first second)
      (p mode ⟨text ++ first, start⟩).found (q mode ⟨text ++ second, start'⟩).found

def anyText (_ : List Char) : Prop := True

/-- How many characters are taken of a part, if any, is told from the part alone. -/
def Told (behind left : List Char → Prop) (measure : List Char → Option Nat) (text : List Char) : Prop :=
  (∀ more, behind more → measure (text ++ more) = none) ∨
    ∃ front rest, text = front ++ rest ∧ left rest ∧
      ∀ more, behind more → measure (text ++ more) = some front.length

namespace Local

variable {behind whole middle left : List Char → Prop} {size : Nat} {p p' q q' : Parser α}

theorem found (h : Local behind size whole left p q) {text first second : List Char}
    (htext : whole text) (hsize : text.length ≤ size) (hfirst : behind first)
    (hsecond : behind second) (mode : Mode) (start start' : Mark) :
    (p mode ⟨text ++ first, start⟩).found = none ∧ (q mode ⟨text ++ second, start'⟩).found = none ∨
      ∃ value value' rest next next' fault fault',
        (p mode ⟨text ++ first, start⟩).found = some ⟨value, ⟨rest ++ first, next⟩, fault⟩ ∧
        (q mode ⟨text ++ second, start'⟩).found = some ⟨value', ⟨rest ++ second, next'⟩, fault'⟩ ∧
        left rest ∧ rest.length ≤ text.length ∧ bare value = bare value' ∧
        fault.isSome = fault'.isSome := by
  have hrel := h text htext hsize first second hfirst hsecond mode start start'
  generalize (p mode ⟨text ++ first, start⟩).found = one at hrel ⊢
  generalize (q mode ⟨text ++ second, start'⟩).found = other at hrel ⊢
  cases hrel with
  | none => exact .inl ⟨rfl, rfl⟩
  | @some found found' hparted =>
      obtain ⟨value, ⟨_, next⟩, fault⟩ := found
      obtain ⟨value', ⟨_, next'⟩, fault'⟩ := found'
      obtain ⟨hvalue, hfault, rest, hleft, hle, rfl, rfl⟩ := hparted
      exact .inr ⟨value, value', rest, next, next', fault, fault', rfl, rfl, hleft, hle, hvalue, hfault⟩

theorem mono {smaller : Nat} (h : Local behind size whole left p q) (hle : smaller ≤ size) :
    Local behind smaller whole left p q :=
  fun text htext hsize => h text htext (Nat.le_trans hsize hle)

theorem imp {whole' left' : List Char → Prop} (h : Local behind size whole left p q)
    (hwhole : ∀ text, whole' text → whole text) (hleft : ∀ text, left text → left' text) :
    Local behind size whole' left' p q := by
  intro text htext hsize first second hfirst hsecond mode start start'
  obtain ⟨hnone, hnone'⟩ | ⟨_, _, rest, _, _, _, _, hfound, hfound', hrest, hle, hvalue, hfault⟩ :=
    h.found (hwhole text htext) hsize hfirst hsecond mode start start'
  · rw [hnone, hnone']
    exact .none
  · rw [hfound, hfound']
    exact .some ⟨hvalue, hfault, rest, hleft rest hrest, hle, rfl, rfl⟩

theorem pure {value value' : α} (h : bare value = bare value') :
    Local behind size whole whole (Pure.pure value) (Pure.pure value') := by
  intro text htext hsize first second hfirst hsecond mode start start'
  exact .some ⟨h, rfl, text, htext, Nat.le_refl _, rfl, rfl⟩

/-- The second part of a sequence reads what the first has left. Where that is shorter than the part, the
second needs to be known for shorter parts only. -/
theorem bindOf {f g : α → Parser β} (h : Local behind size whole middle p q)
    (h' : ∀ text rest first mode start value next fault,
      (p mode ⟨text ++ first, start⟩).found = some ⟨value, ⟨rest ++ first, next⟩, fault⟩ →
      text.length ≤ size → rest.length ≤ text.length →
      ∀ value', bare value = bare value' → Local behind rest.length middle left (f value) (g value')) :
    Local behind size whole left (p >>= f) (q >>= g) := by
  intro text htext hsize first second hfirst hsecond mode start start'
  rw [found_bind, found_bind]
  obtain ⟨hnone, hnone'⟩ | ⟨value, value', rest, next, next', fault, fault', hfound, hfound', hrest, hle,
    hvalue, hfault⟩ := h.found htext hsize hfirst hsecond mode start start'
  · rw [hnone, hnone']
    exact .none
  · rw [hfound, hfound', Option.bind_some, Option.bind_some]
    have hlater := h' text rest first mode start value next fault hfound hsize hle value' hvalue
    obtain ⟨hnone, hnone'⟩ | ⟨_, _, last, _, _, _, _, hlast, hlast', hleft, hle', hvalue', hfault'⟩ :=
      hlater.found hrest (Nat.le_refl _) hfirst hsecond mode next next'
    · rw [hnone, hnone']
      exact .none
    · rw [hlast, hlast']
      exact .some ⟨hvalue', or_isSome hfault hfault', last, hleft, Nat.le_trans hle' hle, rfl, rfl⟩

theorem bind {f g : α → Parser β} (h : Local behind size whole middle p q)
    (h' : ∀ value value', bare value = bare value' →
      Local behind size middle left (f value) (g value')) :
    Local behind size whole left (p >>= f) (q >>= g) :=
  h.bindOf fun _ _ _ _ _ _ _ _ _ hsize hle _ heq => (h' _ _ heq).mono (Nat.le_trans hle hsize)

theorem step {f g : α → Parser β} (h : Local behind size whole middle p q)
    (hspends : Spends p fun _ => 1)
    (h' : ∀ smaller < size, ∀ value value', bare value = bare value' →
      Local behind smaller middle left (f value) (g value')) :
    Local behind size whole left (p >>= f) (q >>= g) := by
  refine h.bindOf fun text rest first mode start value next fault hfound hsize _ value' heq => ?_
  have hless := hspends hfound
  simp only [List.length_append] at hless
  exact h' rest.length (by omega) value value' heq

theorem bindText {p q : Parser (List Char × Span)} {f g : List Char × Span → Parser β}
    (h : Local behind size whole middle p q)
    (h' : ∀ text span span', Local behind size middle left (f (text, span)) (g (text, span'))) :
    Local behind size whole left (p >>= f) (q >>= g) := by
  refine h.bind ?_
  rintro ⟨text, span⟩ ⟨text', span'⟩ heq
  have htext := (eq_of_bare_pair heq).1
  rw [bare_chars, bare_chars] at htext
  rw [htext]
  exact h' text' span span'

theorem after {f g : α → Parser β} (h : Local behind size whole middle p q)
    (h' : ∀ value value', Local behind size middle left (f value) (g value')) :
    Local behind size whole left (p >>= f) (q >>= g) :=
  h.bind fun value value' _ => h' value value'

theorem mapFound {change change' : Found α → Found β} {text first second : List Char} {mode : Mode}
    {start start' : Mark} (h : Local behind size whole left p q) (htext : whole text)
    (hsize : text.length ≤ size) (hfirst : behind first) (hsecond : behind second)
    (h' : ∀ found found', Parted left text first second found found' →
      Parted left text first second (change found) (change' found')) :
    Option.Rel (Parted left text first second) ((p mode ⟨text ++ first, start⟩).found.map change)
      ((q mode ⟨text ++ second, start'⟩).found.map change') := by
  have hrel := h text htext hsize first second hfirst hsecond mode start start'
  generalize (p mode ⟨text ++ first, start⟩).found = one at hrel ⊢
  generalize (q mode ⟨text ++ second, start'⟩).found = other at hrel ⊢
  cases hrel with
  | none => exact .none
  | some hparted => exact .some (h' _ _ hparted)

theorem map {f g : α → β} (h : Local behind size whole left p q)
    (h' : ∀ value value', bare value = bare value' → bare (f value) = bare (g value')) :
    Local behind size whole left (f <$> p) (g <$> q) := by
  intro text htext hsize first second hfirst hsecond mode start start'
  rw [found_map, found_map]
  exact h.mapFound htext hsize hfirst hsecond fun _ _ hparted =>
    ⟨h' _ _ hparted.value, hparted.fault, hparted.rest⟩

theorem orElse (h : Local behind size whole left p q) (h' : Local behind size whole left p' q') :
    Local behind size whole left (p <|> p') (q <|> q') := by
  intro text htext hsize first second hfirst hsecond mode start start'
  rw [found_orElse, found_orElse]
  have hrel := h text htext hsize first second hfirst hsecond mode start start'
  generalize (p mode ⟨text ++ first, start⟩).found = one at hrel ⊢
  generalize (q mode ⟨text ++ second, start'⟩).found = other at hrel ⊢
  cases hrel with
  | none => exact h' text htext hsize first second hfirst hsecond mode start start'
  | some hparted => exact .some hparted

theorem optionalTo (h : Local behind size whole left p q) (hleft : ∀ text, whole text → left text) :
    Local behind size whole left (optional p) (optional q) :=
  orElse (h.map fun _ _ heq => congrArg some heq) ((pure rfl).imp (fun _ => id) hleft)

theorem optional (h : Local behind size whole whole p q) :
    Local behind size whole whole (optional p) (optional q) :=
  h.optionalTo fun _ => id

theorem tight (h : Local behind size whole left p q) :
    Local behind size whole left (tight p) (tight q) :=
  fun text htext hsize first second hfirst hsecond _ =>
    h text htext hsize first second hfirst hsecond .tight

theorem hidden (h : Local behind size whole left p q) :
    Local behind size whole left (hidden p) (hidden q) :=
  fun text htext hsize first second hfirst hsecond _ =>
    h text htext hsize first second hfirst hsecond .hidden

theorem rule {name : Rule} (h : Local behind size whole left p q) :
    Local behind size whole left (rule name p) (rule name q) := by
  intro text htext hsize first second hfirst hsecond mode start start'
  rw [found_rule, found_rule]
  exact h text htext hsize first second hfirst hsecond mode start start'

theorem of_reads {p : Parser Unit}
    (h : ∀ text, whole text → ∀ mode, (∀ more, behind more → Refuses p mode (text ++ more)) ∨
      ∃ rest, left rest ∧ rest.length ≤ text.length ∧
        ∀ more, behind more → Reads p mode (text ++ more) (rest ++ more) fun _ => True) :
    Local behind size whole left p p := by
  intro text htext hsize first second hfirst hsecond mode start start'
  obtain hrefuses | ⟨rest, hrest, hle, hreads⟩ := h text htext mode
  · rw [hrefuses first hfirst start, hrefuses second hsecond start']
    exact .none
  · obtain ⟨found, hfound, hnext, hfault, -⟩ := hreads first hfirst start
    obtain ⟨found', hfound', hnext', hfault', -⟩ := hreads second hsecond start'
    rw [hfound, hfound']
    exact .some ⟨rfl, by rw [hfault, hfault'], rest, hrest, hle, hnext, hnext'⟩

theorem take {measure : List Char → Option Nat} (h : ∀ text, whole text → Told behind left measure text) :
    Local behind size whole left (take measure) (take measure) := by
  refine of_reads fun text htext mode => ?_
  obtain hnone | ⟨front, rest, rfl, hrest, hsome⟩ := h text htext
  · exact .inl fun more hmore => Refuses.take (hnone more hmore)
  · refine .inr ⟨rest, hrest, by simp, fun more hmore => ?_⟩
    have hreads : Reads (Parser.take measure) mode (front ++ rest ++ more) _ _ :=
      Reads.take (hsome more hmore)
    rwa [List.append_assoc, List.drop_left, ← List.append_assoc] at hreads

theorem ahead {measure : List Char → Option Nat}
    (h : ∀ text, whole text → ∃ answer, ∀ more, behind more → (measure (text ++ more)).isSome = answer) :
    Local behind size whole whole (ahead measure) (ahead measure) := by
  intro text htext hsize first second hfirst hsecond mode start start'
  obtain ⟨answer, hanswer⟩ := h text htext
  rw [found_ahead, found_ahead, hanswer first hfirst, hanswer second hsecond]
  cases answer with
  | false => exact .none
  | true => exact .some ⟨rfl, rfl, text, htext, Nat.le_refl _, rfl, rfl⟩

theorem note (fault fault' : Fault) : Local behind size whole whole (note fault) (note fault') :=
  fun text htext _ _ _ _ _ _ _ _ => .some ⟨rfl, rfl, text, htext, Nat.le_refl _, rfl, rfl⟩

theorem spanned (h : Local behind size whole left p q) :
    Local behind size whole left (spanned p) (spanned q) := by
  intro text htext hsize first second hfirst hsecond mode start start'
  rw [found_spanned, found_spanned]
  refine h.mapFound htext hsize hfirst hsecond fun _ _ hparted => ⟨?_, hparted.fault, hparted.rest⟩
  rw [bare_pair, bare_pair, hparted.value]
  rfl

theorem node {name : Rule} {build build' : α × Span → Parser β} (h : Local behind size whole left p q)
    (h' : ∀ value value' span span', bare value = bare value' →
      Local behind size left left (build (value, span)) (build' (value', span'))) :
    Local behind size whole left (Parser.spanned (Parser.rule name p) >>= build)
      (Parser.spanned (Parser.rule name q) >>= build') :=
  h.rule.spanned.bind fun value value' heq => h' value.1 value'.1 value.2 value'.2 (eq_of_bare_pair heq).1

theorem captured (h : Local behind size whole left p q) :
    Local behind size whole left (captured p) (captured q) := by
  intro text htext hsize first second hfirst hsecond mode start start'
  rw [found_captured, found_captured]
  refine h.mapFound htext hsize hfirst hsecond fun found found' hparted =>
    ⟨?_, hparted.fault, hparted.rest⟩
  -- what has been taken is a part of the part
  have htaken {rest behind : List Char} (hle : rest.length ≤ text.length) :
      (text ++ behind).take ((text ++ behind).length - (rest ++ behind).length) =
        text.take (text.length - rest.length) := by
    rw [List.length_append, List.length_append, Nat.add_sub_add_right]
    exact List.take_append_of_le_length (Nat.sub_le _ _)
  obtain ⟨rest, -, hle, hnext, hnext'⟩ := hparted.rest
  rw [bare_pair, bare_pair, Cursor.textTo, Cursor.textTo, hnext, hnext', htaken hle, htaken hle]
  rfl

theorem gapBy {measure : List Char → Nat}
    (h : ∀ text, whole text → ∃ front rest, text = front ++ rest ∧ whole rest ∧
      ∀ more, behind more → measure (text ++ more) = front.length) :
    Local behind size whole whole (gapBy measure) (gapBy measure) := by
  intro text htext hsize first second hfirst hsecond mode start start'
  rw [found_gapBy, found_gapBy]
  split
  · obtain ⟨front, rest, rfl, hrest, hmeasure⟩ := h text htext
    have hdrop (more : List Char) (hmore : behind more) :
        (front ++ rest ++ more).drop (measure (front ++ rest ++ more)) = rest ++ more := by
      rw [hmeasure more hmore, List.append_assoc, List.drop_left]
    exact .some ⟨rfl, rfl, rest, hrest, by simp, hdrop first hfirst, hdrop second hsecond⟩
  · exact .some ⟨rfl, rfl, text, htext, Nat.le_refl _, rfl, rfl⟩

/-! ## Repetition -/

theorem repeatUpTo (h : Local behind size whole whole p q) (hspends : Spends p fun _ => 1)
    {bound bound' : Nat} {text first second : List Char} (htext : whole text)
    (hsize : text.length ≤ size) (hbound : text.length < bound) (hbound' : text.length < bound')
    (hfirst : behind first) (hsecond : behind second) (mode : Mode) (start start' : Mark) :
    Option.Rel (Parted whole text first second)
      (repeatUpTo p bound mode ⟨text ++ first, start⟩).found
      (repeatUpTo q bound' mode ⟨text ++ second, start'⟩).found := by
  induction bound generalizing bound' text start start' with
  | zero => exact absurd hbound (Nat.not_lt_zero _)
  | succ bound ih =>
      obtain ⟨bound', rfl⟩ := Nat.exists_eq_succ_of_ne_zero (Nat.ne_of_gt (Nat.zero_lt_of_lt hbound'))
      rw [found_repeatUpTo_succ, found_repeatUpTo_succ]
      obtain ⟨hnone, hnone'⟩ | ⟨value, value', rest, next, next', fault, fault', hfound, hfound', hrest,
        -, hvalue, hfault⟩ := h.found htext hsize hfirst hsecond mode start start'
      · rw [hnone, hnone']
        exact .some ⟨rfl, rfl, text, htext, Nat.le_refl _, rfl, rfl⟩
      · have hless := hspends hfound
        simp only [List.length_append] at hless
        have hrel := ih hrest (by omega) (by omega) (show rest.length < bound' by omega) next next'
        rw [hfound, hfound', Option.bind_some, Option.bind_some]
        dsimp only
        generalize (Parser.repeatUpTo p bound mode ⟨rest ++ first, next⟩).found = one at hrel ⊢
        generalize (Parser.repeatUpTo q bound' mode ⟨rest ++ second, next'⟩).found = other at hrel ⊢
        cases hrel with
        | none => exact .some ⟨rfl, rfl, text, htext, Nat.le_refl _, rfl, rfl⟩
        | some hparted =>
            obtain ⟨last, hlast, hle, hnext, hnext'⟩ := hparted.rest
            exact .some ⟨bare_cons_congr hvalue hparted.value, or_isSome hfault hparted.fault, last, hlast,
              by omega, hnext, hnext'⟩

theorem many (h : Local behind size whole whole p q) (hspends : Spends p fun _ => 1) :
    Local behind size whole whole (many p) (many q) := by
  intro text htext hsize first second hfirst hsecond mode start start'
  refine h.repeatUpTo hspends htext hsize ?_ ?_ hfirst hsecond mode start start'
  · simp only [List.length_append]
    omega
  · simp only [List.length_append]
    omega

section

variable {p q : Parser Unit} (h : Local behind size whole whole p q) (hspends : Spends p fun _ => 1)
  (hstop : ∀ rest, whole rest → ∀ mode first start, behind first →
    (p mode ⟨rest ++ first, start⟩).found = none → left rest)

include h hspends hstop

/-- Findings on the way stay parted, round by round, until nothing more is found. -/
theorem repeatFrom {bound bound' : Nat} {text first second : List Char} (htext : whole text)
    (hsize : text.length ≤ size) (hbound : text.length < bound) (hbound' : text.length < bound')
    (hfirst : behind first) (hsecond : behind second) {fault fault' : Option Fault}
    (hfault : fault.isSome = fault'.isSome) (mode : Mode) (start start' : Mark)
    (furthest furthest' : Furthest) :
    Option.Rel (Parted left text first second)
      (repeatFrom p mode bound ⟨(), ⟨text ++ first, start⟩, fault⟩ furthest).found
      (repeatFrom q mode bound' ⟨(), ⟨text ++ second, start'⟩, fault'⟩ furthest').found := by
  induction bound generalizing bound' text start start' fault fault' with
  | zero => exact absurd hbound (Nat.not_lt_zero _)
  | succ bound ih =>
      obtain ⟨bound', rfl⟩ := Nat.exists_eq_succ_of_ne_zero (Nat.ne_of_gt (Nat.zero_lt_of_lt hbound'))
      rw [found_repeatFrom_succ, found_repeatFrom_succ]
      obtain ⟨hnone, hnone'⟩ | ⟨_, _, rest, next, next', _, _, hfound, hfound', hrest, -, -, hfault'⟩ :=
        h.found htext hsize hfirst hsecond mode start start'
      · rw [hnone, hnone']
        have hleft := hstop text htext mode first start hfirst hnone
        exact .some ⟨rfl, hfault, text, hleft, Nat.le_refl _, rfl, rfl⟩
      · have hless := hspends hfound
        simp only [List.length_append] at hless
        rw [hfound, hfound']
        dsimp only
        have hrel := ih hrest (by omega) (by omega) (show rest.length < bound' by omega)
          (or_isSome hfault hfault') next next'
        generalize (Parser.repeatFrom p mode bound _ furthest).found = one at hrel ⊢
        generalize (Parser.repeatFrom q mode bound' _ furthest').found = other at hrel ⊢
        cases hrel with
        | none => exact .none
        | some hparted =>
            obtain ⟨last, hlast, hle, hnext⟩ := hparted.rest
            exact .some ⟨rfl, hparted.fault, last, hlast, by omega, hnext⟩

theorem skipManyUntil : Local behind size whole left (skipMany p) (skipMany q) := by
  intro text htext hsize first second hfirst hsecond mode start start'
  refine h.repeatFrom hspends hstop htext hsize ?_ ?_ hfirst hsecond rfl mode start start' .none .none
  · simp only [List.length_append]
    omega
  · simp only [List.length_append]
    omega

end

theorem skipMany {p q : Parser Unit} (h : Local behind size whole whole p q)
    (hspends : Spends p fun _ => 1) : Local behind size whole whole (skipMany p) (skipMany q) :=
  h.skipManyUntil hspends fun _ hrest _ _ _ _ _ => hrest

end Local

end GoTrace.Parser
