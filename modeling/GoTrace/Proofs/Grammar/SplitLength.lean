import GoTrace.Proofs.Grammar.Progress
import GoTrace.Proofs.Parser.Blames
import GoTrace.Proofs.Resolve.Coherence

/-!
# The grammar breaks off over array lengths only

Every rule inherits that it breaks off only over a length in brackets, but for arrays themselves:
there the text between the brackets is what the reading breaks off over.
-/

namespace GoTrace

open Lexeme

namespace Grammar

open GoTrace.Parser

variable {α : Type}

set_option synthInstance.maxSize 32768

/-! ## Words, literals and groups -/

instance : Blames gap := by unfold gap; infer_instance

instance (p : Parser α) [Advances p] [Blames p] : Blames (repeated p) := by
  unfold repeated
  infer_instance

instance (text : String) : Blames (mark text) := by unfold mark; infer_instance

instance : Blames newline := by unfold newline; infer_instance

instance (p : Parser Unit) [Advances p] [Blames p] : Blames (atLeastOnce p) := by
  unfold atLeastOnce
  infer_instance

instance : Blames newlines := by unfold newlines; infer_instance

instance : Blames separator := by unfold separator; infer_instance

instance (name : Rule) (word : String) : Blames (keyword name word) := by
  unfold keyword
  infer_instance

instance : Blames identifier := by unfold identifier; infer_instance

instance : Blames identifierList := by unfold identifierList; infer_instance

instance : Blames qualifiedIdent := by
  unfold qualifiedIdent
  have (first : Ident) (second : Option Ident) : Blames (match second with
      | none => (pure (none, first.name) : Parser (Option String × String))
      | some name => pure (some first.name, name.name)) := by
    cases second <;> infer_instance
  infer_instance

instance : Blames stringLiteral := by unfold stringLiteral; infer_instance

instance : Blames stringValue := by
  unfold stringValue
  have (read : List Char × Span) : Blames (match read with
      | (literal, span) => match Literal.unquote? literal with
        | some text => (pure text : Parser String)
        | none => do
            note (.invalidString (String.ofList literal) span)
            return "") := by
    obtain ⟨literal, span⟩ := read
    dsimp only
    cases Literal.unquote? literal <;> infer_instance
  infer_instance

instance (opening closing : String) (spec : Parser α) [Advances spec] [Blames spec] :
    Blames (block opening closing spec) := by
  unfold block
  infer_instance

instance (accepts : Char → Bool) : Blames (one accepts) := by unfold one; infer_instance

instance (stops : List Char) : Blames (plainExcept stops) := by
  unfold plainExcept
  infer_instance

instance (inside : Parser Unit) [Advances inside] [Blames inside] (opening closing : String) :
    Blames (bracketed inside opening closing) := by
  unfold bracketed
  infer_instance

instance (inside : Parser Unit) [Advances inside] [Blames inside] : Blames (enclosedWith inside) := by
  unfold enclosedWith
  infer_instance

instance (depth : Nat) : Blames (groupPieceUpTo depth) := by
  induction depth with
  | zero => exact (inferInstance : Blames (fail : Parser Unit))
  | succ depth ih =>
      exact (inferInstance : Blames (enclosedWith (skipMany (groupPieceUpTo depth))
        <|> take Lexeme.lineComment?
        <|> take Lexeme.blockComment?
        <|> one fun c => !([')', ']', '}'].contains c)))

instance : Blames groupInside where
  splitLength h := Blames.splitLength (p := skipMany (groupPieceUpTo _)) h

instance : Blames enclosed := by unfold enclosed; infer_instance

instance (p : Parser Unit) [Advances p] [Blames p] : Blames (textOf p) := by
  unfold textOf
  infer_instance

/-! ## Types -/

section

variable (type : Parser TypeExpr) [Advances type] [Blames type]

instance : Blames (pointerType type) := by unfold pointerType; infer_instance

instance : Blames (sliceType type) := by unfold sliceType; infer_instance

theorem rest_eq_of_mark {text : String} {mode : Mode} {cursor : Cursor} {found : Found Unit}
    (h : (mark text mode cursor).found = some found) :
    cursor.rest = text.toList ++ found.next.rest := by
  unfold mark literal at h
  simp only [found_take, Option.map_eq_some_iff, Option.ite_none_right_eq_some,
    Option.some.injEq] at h
  obtain ⟨count, ⟨hstarts, rfl⟩, rfl⟩ := h
  obtain ⟨rest, hrest⟩ := List.isPrefixOf_iff_prefix.mp hstarts
  rw [Cursor.skip, ← hrest, List.drop_left]

theorem exists_lead_of_gap {mode : Mode} {cursor : Cursor} {found : Found Unit}
    (h : (gap mode cursor).found = some found) :
    ∃ lead, cursor.rest = lead ++ found.next.rest ∧ lead.length ≤ blanks cursor.rest := by
  unfold gap at h
  rw [found_gapBy, Option.some.injEq] at h
  subst h
  split
  · exact ⟨cursor.rest.take (blanks cursor.rest), (List.take_append_drop _ _).symm,
      List.length_take_le _ _⟩
  · exact ⟨[], rfl, Nat.zero_le _⟩

theorem textTo_of_precedes {start stop : Cursor} (h : start.Precedes stop) :
    start.rest = start.textTo stop ++ stop.rest := by
  obtain ⟨taken, hrest, -⟩ := h
  rw [Cursor.textTo, hrest, List.length_append, Nat.add_sub_cancel, List.take_left]

theorem found_lengthOfText {text : List Char} {mode : Mode} {cursor : Cursor}
    {found : Found ArrayLength} (h : (lengthOfText text mode cursor).found = some found) :
    found.next = cursor ∧
      (found.fault = some .splitCharacter → Literal.readInt (Text.trim text) = .splitCharacter) := by
  unfold lengthOfText at h
  cases hreading : Literal.readInt (Text.trim text) with
  | value n =>
      simp only [hreading] at h
      cases h
      exact ⟨rfl, nofun⟩
  | notInteger =>
      simp only [hreading] at h
      cases h
      exact ⟨rfl, nofun⟩
  | splitCharacter =>
      simp only [hreading] at h
      cases h
      exact ⟨rfl, fun _ => rfl⟩

/-- Reading the length of an array breaks off over an array inside it, or over all of it. -/
theorem splitLength_lengthExpr {mode : Mode} {cursor : Cursor} {found : Found ArrayLength}
    (h : (lengthExpr mode cursor).found = some found) (hfault : found.fault = some .splitCharacter) :
    SplitLength cursor.rest ∨ ∃ length, cursor.rest = length ++ found.next.rest ∧
      Literal.readInt (Text.trim length) = .splitCharacter := by
  unfold lengthExpr at h
  simp only [found_bind, Option.bind_eq_some_iff, Option.map_eq_some_iff] at h
  obtain ⟨read, hread, last, hlast, rfl⟩ := h
  rcases orElse_eq_some hfault with hsplit | hsplit
  · exact .inl (Blames.splitLength hread hsplit)
  · obtain ⟨hnext, hlength⟩ := found_lengthOfText hlast
    have hprecedes := Advances.precedes hread
    rw [found_rule, textOf, found_hidden, found_captured, Option.map_eq_some_iff] at hread
    obtain ⟨inner, -, rfl⟩ := hread
    refine .inr ⟨_, ?_, hlength hsplit⟩
    rw [hnext]
    exact textTo_of_precedes hprecedes

theorem splitLength_arrayLength {mode : Mode} {cursor : Cursor} {found : Found ArrayLength}
    (h : (arrayLength mode cursor).found = some found) (hfault : found.fault = some .splitCharacter) :
    SplitLength cursor.rest ∨ ∃ length, cursor.rest = length ++ found.next.rest ∧
      Literal.readInt (Text.trim length) = .splitCharacter := by
  unfold arrayLength at h
  rw [found_rule, found_orElse, found_orElse, Option.or_eq_some_iff, Option.or_eq_some_iff] at h
  rcases h with h | ⟨-, h | ⟨-, h⟩⟩
  · exact .inl (Blames.splitLength h hfault)
  · exact .inl (Blames.splitLength h hfault)
  · exact splitLength_lengthExpr h hfault

def arrayRest (length : ArrayLength) : Parser TypeExpr := do
  gap
  mark "]"
  gap
  return .array length (← type)

instance (length : ArrayLength) : Blames (arrayRest type length) := by
  unfold arrayRest
  infer_instance

/-- What follows the length of an array starts with the bracket that closes it. -/
theorem exists_trail_of_arrayRest {type : Parser TypeExpr} {length : ArrayLength} {mode : Mode}
    {cursor : Cursor} {found : Found TypeExpr}
    (h : (arrayRest type length mode cursor).found = some found) :
    ∃ trail after, cursor.rest = trail ++ ']' :: after ∧ trail.length ≤ blanks cursor.rest := by
  unfold arrayRest at h
  simp only [found_bind (p := gap), Option.bind_eq_some_iff, Option.map_eq_some_iff] at h
  obtain ⟨passed, hpassed, rest, hrest, -⟩ := h
  simp only [found_bind (p := mark "]"), Option.bind_eq_some_iff] at hrest
  obtain ⟨closed, hclosed, -⟩ := hrest
  obtain ⟨trail, htrail, hlength⟩ := exists_lead_of_gap hpassed
  exact ⟨trail, closed.next.rest, by rw [htrail, rest_eq_of_mark hclosed]; rfl, hlength⟩

instance : Blames (arrayType type) where
  splitLength {mode cursor found} h hfault := by
    have heq : arrayType type = Parser.rule .arrayType (do
        mark "["
        gap
        let length ← arrayLength
        arrayRest type length) := rfl
    simp only [heq, found_rule, found_bind, Option.bind_eq_some_iff, Option.map_eq_some_iff] at h
    obtain ⟨opened, hopened, _, ⟨passed, hpassed, _, ⟨read, hread, rest, hrest, rfl⟩, rfl⟩, rfl⟩ := h
    have hfirst := Advances.precedes hopened
    have hsecond := hfirst.trans (Advances.precedes hpassed)
    have hthird := hsecond.trans (Advances.precedes hread)
    rcases orElse_eq_some hfault with hsplit | hsplit
    · exact Blames.splitLength hopened hsplit
    rcases orElse_eq_some hsplit with hsplit | hsplit
    · exact hfirst.splitLength (Blames.splitLength hpassed hsplit)
    rcases orElse_eq_some hsplit with hsplit | hsplit
    · rcases splitLength_arrayLength hread hsplit with hinside | ⟨length, hlength, hunread⟩
      · exact hsecond.splitLength hinside
      · obtain ⟨lead, hlead, hbefore⟩ := exists_lead_of_gap hpassed
        obtain ⟨trail, after, htrail, hbehind⟩ := exists_trail_of_arrayRest hrest
        rw [hlead, hlength, htrail] at hbefore
        rw [htrail] at hbehind
        refine ⟨[], lead, length, trail, after, ?_, hbefore, hbehind, hunread⟩
        rw [rest_eq_of_mark hopened, hlead, hlength, htrail]
        rfl
    · exact hthird.splitLength (Blames.splitLength hrest hsplit)

instance : Blames (mapType type) := by unfold mapType; infer_instance

instance : Blames (chanType type) := by unfold chanType; infer_instance

instance : Blames (parenType type) := by unfold parenType; infer_instance

instance (opening closing : String) (part : Parser α) [Advances part] [Blames part] :
    Blames (listed opening closing part) := by
  unfold listed
  infer_instance

instance : Blames (typeName type) := by unfold typeName; infer_instance

instance : Blames variadicMark := by unfold variadicMark; infer_instance

instance : Blames (parameterDecl type) := by unfold parameterDecl; infer_instance

instance : Blames (parameters type) := by unfold parameters; infer_instance

instance : Blames (results type) := by unfold results; infer_instance

instance : Blames (signature type) := by unfold signature; infer_instance

instance : Blames (funcType type) := by unfold funcType; infer_instance

instance : Blames (typeTerm type) := by unfold typeTerm; infer_instance

instance : Blames (typeUnion type) := by unfold typeUnion; infer_instance

instance : Blames (interfaceElement type) := by
  unfold interfaceElement
  have (read : (Ident × Signature ⊕ List TypeTerm) × Span) : Blames (match read with
      | (element, span) => match element with
        | .inl (name, signature) => (pure (.method name signature span) : Parser Element)
        | .inr terms => pure (.embed terms span)) := by
    obtain ⟨element, span⟩ := read
    cases element <;> infer_instance
  infer_instance

instance : Blames (interfaceType type) := by unfold interfaceType; infer_instance

instance : Blames (fieldShape type) := by unfold fieldShape; infer_instance

instance : Blames (fieldDecl type) := by unfold fieldDecl; infer_instance

instance : Blames (structType type) := by unfold structType; infer_instance

instance : Blames (typeWith type) := by unfold typeWith; infer_instance

end

instance (depth : Nat) : Blames (typeUpTo depth) := by
  induction depth with
  | zero => exact (inferInstance : Blames (fail : Parser TypeExpr))
  | succ depth ih => exact (inferInstance : Blames (typeWith (typeUpTo depth)))

instance : Blames typeExpr where
  splitLength h := Blames.splitLength (p := typeUpTo _) h

/-! ## Declarations -/

instance : Blames packageClause := by unfold packageClause; infer_instance

instance : Blames importName := by unfold importName; infer_instance

instance : Blames importSpec := by unfold importSpec; infer_instance

instance (decl word : Rule) (text : String) (spec : Parser α) [Advances spec] [Blames spec] :
    Blames (specs decl word text spec) := by
  unfold specs
  infer_instance

instance : Blames importDecl := by unfold importDecl; infer_instance

instance : Blames typeParamDecl := by unfold typeParamDecl; infer_instance

instance : Blames typeParams := by unfold typeParams; infer_instance

instance : Blames typeSpec := by unfold typeSpec; infer_instance

instance : Blames constValue := by unfold constValue; infer_instance

instance : Blames constSpec := by unfold constSpec; infer_instance

instance : Blames varSpec := by unfold varSpec; infer_instance

instance : Blames funcBody := by unfold funcBody; infer_instance

instance : Blames funcDecl := by unfold funcDecl; infer_instance

instance : Blames topLevelDecl := by unfold topLevelDecl; infer_instance

instance (sourceName : Option String) : Blames (sourceFile sourceName) := by
  unfold sourceFile
  infer_instance

instance : Blames loneType := by unfold loneType; infer_instance

end Grammar

/-! ## Whole texts -/

theorem Parser.splitLength_of_run {α : Type} {p : Parser α} [Blames p] {name text : String}
    (h : p.run name text = .error .splitCharacter) : SplitLength text.toList := by
  unfold run at h
  dsimp only at h
  split at h
  · cases h
  · cases h
  · rename_i value next furthest hreply
    exact Blames.splitLength (congrArg Reply.found hreply) rfl
  · cases h

/-- A result that is a value or an error: nothing was broken off. -/
def Ended {ε α : Type} (result : Except (Failure ε) α) : Prop :=
  ∀ failure, result = .error failure → ∃ cause, failure = .error cause

theorem Parser.ended_of_not_splitLength {α : Type} (p : Parser α) [Blames p] (name : String)
    {text : String} (h : ¬ SplitLength text.toList) : Ended (p.run name text) := by
  intro failure hfailure
  cases failure with
  | error cause => exact ⟨cause, rfl⟩
  | splitCharacter => exact absurd (splitLength_of_run hfailure) h
  | exhausted => exact absurd hfailure (run_ne_exhausted p name text)

end GoTrace
