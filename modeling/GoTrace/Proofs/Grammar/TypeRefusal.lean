import GoTrace.Grammar.Type
import GoTrace.Proofs.Grammar.Words

/-!
# Where no type starts

Each rule for types fails on a text that does not begin as the rule does, and no type starts at a
comma, a dot or a closing mark.
-/

namespace GoTrace.Grammar

open GoTrace.Lexeme GoTrace.Parser

variable {mode : Mode} {text rest : List Char}

variable (type : Parser TypeExpr)

theorem refuses_pointerType (h : text.head? ≠ some '*') : Refuses (pointerType type) mode text :=
  ((refuses_mark rfl h).bind_left).rule

theorem refuses_sliceType (h : text.head? ≠ some '[') : Refuses (sliceType type) mode text :=
  ((refuses_mark rfl h).bind_left).rule

theorem refuses_sliceType_of_length (h : (skipBlanks rest).head? ≠ some ']') :
    Refuses (sliceType type) .spaced ('[' :: rest) := by
  refine Refuses.rule (Refuses.bind (Reads.literal "[" rest) fun _ _ => ?_)
  refine Refuses.bind (reads_gap rest) fun _ _ => ?_
  exact (refuses_mark rfl h).bind_left

theorem refuses_arrayType (h : text.head? ≠ some '[') : Refuses (arrayType type) mode text :=
  ((refuses_mark rfl h).bind_left).rule

theorem refuses_mapType (h : wordAhead text ≠ "map".toList) : Refuses (mapType type) mode text :=
  ((refuses_keyword h).bind_left).rule

theorem refuses_chanType (h : wordAhead text ≠ "chan".toList) (harrow : text.head? ≠ some '<') :
    Refuses (chanType type) mode text := by
  refine Refuses.rule (.orElse ?_ (.orElse ?_ ?_))
  · exact ((refuses_mark rfl harrow).bind_left).rule
  · exact ((refuses_keyword h).bind_left).rule
  · exact ((refuses_keyword h).bind_left).rule

theorem refuses_funcType (h : wordAhead text ≠ "func".toList) : Refuses (funcType type) mode text :=
  ((refuses_keyword h).bind_left).rule

theorem refuses_interfaceType (h : wordAhead text ≠ "interface".toList) :
    Refuses (interfaceType type) mode text :=
  ((refuses_keyword h).bind_left).rule

theorem refuses_structType (h : wordAhead text ≠ "struct".toList) :
    Refuses (structType type) mode text :=
  ((refuses_keyword h).bind_left).rule

theorem refuses_parenType (h : text.head? ≠ some '(') : Refuses (parenType type) mode text :=
  ((refuses_mark rfl h).bind_left).rule

theorem refuses_qualifiedIdent (h : identifier? text = none) : Refuses qualifiedIdent mode text :=
  (((refuses_identifier h).bind_left).rule).tight

theorem refuses_typeName (h : identifier? text = none) : Refuses (typeName type) mode text :=
  ((refuses_qualifiedIdent h).bind_left).rule

def startsNoType (c : Char) : Bool :=
  !(c = '*' || c = '[' || c = '<' || c = '(' || isIdentChar c)

def NoType : List Char → Prop
  | [] => True
  | c :: _ => startsNoType c = true

theorem wordAhead_of_noType (h : NoType text) : wordAhead text = [] := by
  cases text with
  | nil => rfl
  | cons c rest =>
      have hc : startsNoType c = true := h
      simp only [startsNoType, Bool.not_eq_true', Bool.or_eq_false_iff] at hc
      simp [wordAhead, hc.2]

theorem head?_of_noType (h : NoType text) {c : Char} (hc : startsNoType c = false) :
    text.head? ≠ some c := by
  cases text with
  | nil => nofun
  | cons first rest =>
      intro heq
      cases heq
      exact absurd (h.symm.trans hc) (by decide)

theorem identifier?_of_noType (h : NoType text) : identifier? text = none := by
  unfold identifier?
  rw [wordAhead_of_noType h]

theorem refuses_typeWith (h : NoType text) : Refuses (typeWith type) mode text := by
  have hword := wordAhead_of_noType h
  have hkeyword {word : String} (hne : word.toList ≠ []) : wordAhead text ≠ word.toList := by
    rw [hword]
    exact hne.symm
  have hstar := head?_of_noType h (show startsNoType '*' = false by decide)
  have hbracket := head?_of_noType h (show startsNoType '[' = false by decide)
  have harrow := head?_of_noType h (show startsNoType '<' = false by decide)
  have hparen := head?_of_noType h (show startsNoType '(' = false by decide)
  exact Refuses.rule <| .orElse (refuses_pointerType type hstar) <|
    .orElse (refuses_sliceType type hbracket) <| .orElse (refuses_arrayType type hbracket) <|
    .orElse (refuses_mapType type (hkeyword (by decide))) <|
    .orElse (refuses_chanType type (hkeyword (by decide)) harrow) <|
    .orElse (refuses_funcType type (hkeyword (by decide))) <|
    .orElse (refuses_interfaceType type (hkeyword (by decide))) <|
    .orElse (refuses_structType type (hkeyword (by decide))) <|
    .orElse (refuses_parenType type hparen) (refuses_typeName type (identifier?_of_noType h))

theorem refuses_typeUpTo (depth : Nat) (h : NoType text) :
    Refuses (typeUpTo depth) mode text := by
  cases depth with
  | zero => exact fun _ => rfl
  | succ depth => exact refuses_typeWith (typeUpTo depth) h

end GoTrace.Grammar
