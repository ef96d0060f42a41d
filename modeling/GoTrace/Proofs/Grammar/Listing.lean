import GoTrace.Proofs.Grammar.SignatureText
import GoTrace.Proofs.Signature.Reading

/-!
# Written types and their beginnings

How the text of a type begins, and how the texts of a list stand one behind the other.
-/

namespace GoTrace

open Lexeme

/-- A name of a type that is written so that it reads back. -/
structure NameWritten (qualify : Qualifier) (names : Naming) (change : PackageRef → PackageRef)
    (package : Option PackageRef) (name : String) : Prop where
  identifier : IsIdentifier name
  aliasName : ∀ aliasName, package.bind qualify = some aliasName → IsIdentifier aliasName
  reads : names (package.bind qualify) name = some (package.map change)

/-- The texts of a list behind its first, with commas between them. -/
def listTail : List (List Char) → List Char → List Char
  | [], rest => rest
  | text :: texts, rest => ',' :: ' ' :: (text ++ listTail texts rest)

def listText : List (List Char) → List Char → List Char
  | [], rest => rest
  | text :: texts, rest => text ++ listTail texts rest

theorem intercalate_append (texts : List (List Char)) (rest : List Char) :
    [',', ' '].intercalate texts ++ rest = listText texts rest := by
  have htail (text : List Char) (texts : List (List Char)) :
      [',', ' '].intercalate (text :: texts) ++ rest = text ++ listTail texts rest := by
    induction texts generalizing text with
    | nil => simp [listTail]
    | cons next texts ih => simp [List.intercalate_cons_cons, listTail, ih]
  cases texts with
  | nil => rfl
  | cons text texts => exact htail text texts

theorem listText_append (texts : List (List Char)) (rest more : List Char) :
    listText texts rest ++ more = listText texts (rest ++ more) := by
  rw [← intercalate_append, ← intercalate_append, List.append_assoc]

theorem skipBlanks_listTail (texts : List (List Char)) (rest : List Char) :
    skipBlanks (listTail texts (')' :: rest)) = listTail texts (')' :: rest) := by
  cases texts with
  | nil => exact skipBlanks_of_isSolid (by decide) rest
  | cons text texts => exact skipBlanks_of_isSolid (by decide) _

theorem length_le_listTail {texts : List (List Char)} {text : List Char} (h : text ∈ texts)
    (rest : List Char) : text.length ≤ (listTail texts rest).length := by
  induction texts with
  | nil => cases h
  | cons first texts ih =>
      simp only [listTail, List.length_cons, List.length_append]
      rcases List.mem_cons.mp h with rfl | hmem
      · omega
      · have := ih hmem
        omega

theorem length_le_listText {texts : List (List Char)} {text : List Char} (h : text ∈ texts)
    (rest : List Char) : text.length ≤ (listText texts rest).length := by
  cases texts with
  | nil => cases h
  | cons first texts =>
      simp only [listText, List.length_append]
      rcases List.mem_cons.mp h with rfl | hmem
      · omega
      · have := length_le_listTail hmem rest
        omega

namespace Descriptor

variable {qualify : Qualifier} {names : Naming} {change : PackageRef → PackageRef}

def slotTexts (qualify : Qualifier) (slots : List Parameter) : List (List Char) :=
  (renderAll qualify slots).map String.toList

@[simp] theorem slotTexts_nil : slotTexts qualify [] = [] := rfl

@[simp] theorem slotTexts_cons (slot : Parameter) (slots : List Parameter) :
    slotTexts qualify (slot :: slots) =
      (slot.type.render qualify).toList :: slotTexts qualify slots := rfl

theorem toList_render_named_bare {package : Option PackageRef} (name : String)
    (h : package.bind qualify = none) :
    ((Descriptor.named package name).render qualify).toList = name.toList := by
  rw [render, h]

theorem toList_render_named_dotted {package : Option PackageRef} (name : String)
    {aliasName : String} (h : package.bind qualify = some aliasName) :
    ((Descriptor.named package name).render qualify).toList =
      aliasName.toList ++ '.' :: name.toList := by
  rw [render, h]
  simp

/-- Whether the type is a channel that only gives values. -/
def isReceive : Descriptor → Bool
  | .channel .receive _ => true
  | _ => false

theorem toList_render_both {element : Descriptor} (h : element.isReceive = false) :
    ((Descriptor.channel .both element).render qualify).toList =
      "chan ".toList ++ (element.render qualify).toList := by
  rw [render, String.toList_append]
  intro inner heq
  rw [heq] at h
  cases h

theorem toList_render_both_receive {element : Descriptor} (h : element.isReceive = true) :
    ((Descriptor.channel .both element).render qualify).toList =
      "chan (".toList ++ ((element.render qualify).toList ++ [')']) := by
  unfold isReceive at h
  split at h
  · simp [render]
  · cases h

/-- The characters with which the text of a type begins. -/
inductive Begins : Descriptor → Char → Prop
  | word {type : Descriptor} {c : Char} : isIdentStart c = true → Begins type c
  | star {type : Descriptor} : Begins type '*'
  | bracket {type : Descriptor} : Begins type '['
  | arrow {type : Descriptor} : type.isReceive = true → Begins type '<'
  | dots {element : Descriptor} : Begins (.variadic element) '.'

theorem exists_begins {type : Descriptor} {isParam : Bool}
    (h : type.Plain (NameWritten qualify names change) isParam) :
    ∃ c tail, (type.render qualify).toList = c :: tail ∧ Begins type c := by
  cases type with
  | named package name =>
      cases hqualify : package.bind qualify with
      | none =>
          obtain ⟨c, tail, heq, hstart⟩ := h.identifier.exists_cons
          exact ⟨c, tail, by rw [toList_render_named_bare _ hqualify, heq], .word hstart⟩
      | some aliasName =>
          obtain ⟨c, tail, heq, hstart⟩ := (h.aliasName aliasName hqualify).exists_cons
          refine ⟨c, tail ++ '.' :: name.toList, ?_, .word hstart⟩
          rw [toList_render_named_dotted _ hqualify, heq, List.cons_append]
  | pointer target => exact ⟨'*', _, by simp [render]; rfl, .star⟩
  | sequence length element =>
      cases length with
      | none => exact ⟨'[', _, by simp [render]; rfl, .bracket⟩
      | some n => exact ⟨'[', _, by simp [render]; rfl, .bracket⟩
  | map key value => exact ⟨'m', _, by simp [render]; rfl, .word (by decide)⟩
  | channel direction element =>
      cases direction with
      | send => exact ⟨'c', _, by simp [render]; rfl, .word (by decide)⟩
      | receive => exact ⟨'<', _, by simp [render]; rfl, .arrow rfl⟩
      | both =>
          cases hreceive : element.isReceive with
          | true => exact ⟨'c', _, toList_render_both_receive hreceive, .word (by decide)⟩
          | false => exact ⟨'c', _, toList_render_both hreceive, .word (by decide)⟩
  | function params results => exact ⟨'f', _, by simp [render]; rfl, .word (by decide)⟩
  | variadic element => exact ⟨'.', _, by simp [render]; rfl, .dots⟩
  | emptyInterface => exact ⟨'i', "nterface\x7b\x7d".toList, by rw [render]; rfl, .word (by decide)⟩
  | emptyStruct => exact ⟨'s', "truct\x7b\x7d".toList, by rw [render]; rfl, .word (by decide)⟩

theorem isSolid_of_isIdentChar {c : Char} (h : isIdentChar c = true) : isSolid c = true := by
  have hspace := isIdentChar_ne h (show isIdentChar ' ' = false by decide)
  have htab := isIdentChar_ne h (show isIdentChar '\t' = false by decide)
  have hmark := isIdentChar_ne h (show isIdentChar '\uFEFF' = false by decide +kernel)
  have hslash := isIdentChar_ne h (show isIdentChar '/' = false by decide)
  simp [isSolid, hspace, htab, hmark, hslash]

theorem isSolid_of_isIdentStart {c : Char} (h : isIdentStart c = true) : isSolid c = true :=
  isSolid_of_isIdentChar (by rw [isIdentChar, h, Bool.true_or])

namespace Begins

variable {type : Descriptor} {c : Char} (h : Begins type c)

include h

theorem isSolid : isSolid c = true := by
  cases h with
  | word hstart => exact isSolid_of_isIdentStart hstart
  | star => decide
  | bracket => decide
  | arrow _ => decide
  | dots => decide

theorem ne {d : Char} (hd : isIdentStart d = false) (hmark : d ∉ ['*', '[', '<', '.']) : c ≠ d := by
  rintro rfl
  cases h with
  | word hstart => exact absurd (hd.symm.trans hstart) (by decide)
  | star => simp at hmark
  | bracket => simp at hmark
  | arrow _ => simp at hmark
  | dots => simp at hmark

theorem ne_arrow (hreceive : type.isReceive = false) : c ≠ '<' := by
  rintro rfl
  cases h with
  | word hstart => exact absurd hstart (by decide)
  | arrow heq => exact absurd (hreceive.symm.trans heq) (by decide)

theorem ne_dot (hdots : type.isVariadic = false) : c ≠ '.' := by
  rintro rfl
  cases h with
  | word hstart => exact absurd hstart (by decide)
  | dots => cases hdots

end Begins

variable {type : Descriptor} {isParam : Bool}
  (h : type.Plain (NameWritten qualify names change) isParam) (rest : List Char)

include h

theorem skipBlanks_render :
    skipBlanks ((type.render qualify).toList ++ rest) = (type.render qualify).toList ++ rest := by
  obtain ⟨c, tail, heq, hbegins⟩ := exists_begins h
  rw [heq]
  exact skipBlanks_of_isSolid hbegins.isSolid _

theorem head?_render_ne {d : Char} (hd : isIdentStart d = false)
    (hmark : d ∉ ['*', '[', '<', '.']) :
    ((type.render qualify).toList ++ rest).head? ≠ some d := by
  obtain ⟨c, tail, heq, hbegins⟩ := exists_begins h
  rw [heq]
  exact Grammar.head?_ne rfl (hbegins.ne hd hmark)

theorem newline?_render : newline? ((type.render qualify).toList ++ rest) = none := by
  obtain ⟨c, tail, heq, hbegins⟩ := exists_begins h
  have hfeed : c ≠ '\n' := hbegins.ne (by decide) (by decide)
  have hreturn : c ≠ '\r' := hbegins.ne (by decide) (by decide)
  rw [heq, List.cons_append]
  unfold newline?
  split <;> simp_all

theorem identifier?_render (hname : ∀ package name, type ≠ .named package name) :
    identifier? ((type.render qualify).toList ++ rest) = none := by
  have hmark {c : Char} {tail : List Char} (hc : isIdentStart c = false)
      (heq : (type.render qualify).toList = c :: tail) :
      identifier? ((type.render qualify).toList ++ rest) = none := by
    rw [heq]
    exact identifier?_cons hc _
  have hword {word : String} {c : Char} {tail : List Char} (hmem : word ∈ keywords)
      (hall : word.toList.all isIdentChar = true) (hc : isIdentChar c = false)
      (heq : (type.render qualify).toList = word.toList ++ c :: tail) :
      identifier? ((type.render qualify).toList ++ rest) = none := by
    rw [heq, List.append_assoc]
    exact identifier?_keyword hmem hall hc
  cases type with
  | named package name => exact absurd rfl (hname package name)
  | pointer target => exact hmark (c := '*') (by decide) (by simp [render]; rfl)
  | sequence length element =>
      cases length with
      | none => exact hmark (c := '[') (by decide) (by simp [render]; rfl)
      | some n => exact hmark (c := '[') (by decide) (by simp [render]; rfl)
  | map key value =>
      exact hword (show "map" ∈ keywords by decide) (by decide) (show isIdentChar '[' = false by decide)
        (by simp [render]; rfl)
  | channel direction element =>
      have hchan : "chan" ∈ keywords := by decide
      have hspace : isIdentChar ' ' = false := by decide
      cases direction with
      | send =>
          exact hword hchan (by decide) (show isIdentChar '<' = false by decide)
            (by simp [render]; rfl)
      | receive => exact hmark (c := '<') (by decide) (by simp [render]; rfl)
      | both =>
          cases hreceive : element.isReceive with
          | true => exact hword hchan (by decide) hspace (toList_render_both_receive hreceive)
          | false => exact hword hchan (by decide) hspace (toList_render_both hreceive)
  | function params results =>
      exact hword (show "func" ∈ keywords by decide) (by decide)
        (show isIdentChar '(' = false by decide) (by simp [render]; rfl)
  | variadic element => exact hmark (c := '.') (by decide) (by simp [render]; rfl)
  | emptyInterface =>
      exact hword (show "interface" ∈ keywords by decide) (by decide)
        (show isIdentChar '\x7b' = false by decide) (by rw [render]; rfl)
  | emptyStruct =>
      exact hword (show "struct" ∈ keywords by decide) (by decide)
        (show isIdentChar '\x7b' = false by decide) (by rw [render]; rfl)

end Descriptor

end GoTrace
