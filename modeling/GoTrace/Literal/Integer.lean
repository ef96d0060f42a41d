import GoTrace.Text.Cut

/-!
# Integer literals

The value of an integer literal in base 10, 16, 8 or 2, with `_` between digits. A radix mark is
looked for in the first two bytes, so a text whose second byte ends inside a character has no
reading at all: that outcome is kept apart from "not an integer".
-/

namespace GoTrace.Literal

/-- What reading a text as an integer gives. -/
inductive IntReading where
  /-- The text is an integer of at most 64 bits. -/
  | value (n : Nat)
  /-- The text is not an integer, or needs more than 64 bits. -/
  | notInteger
  /-- The first two bytes of the text end inside a character. -/
  | splitCharacter
deriving DecidableEq, Repr

def digitValue? (c : Char) : Option Nat :=
  if c.isDigit then some (c.toNat - '0'.toNat)
  else if 'a' ≤ c && c ≤ 'f' then some (c.toNat - 'a'.toNat + 10)
  else if 'A' ≤ c && c ≤ 'F' then some (c.toNat - 'A'.toNat + 10)
  else none

def digitBelow? (base : Nat) (c : Char) : Option Nat :=
  (digitValue? c).filter (· < base)

def digitsFrom? (base : Nat) : Nat → List Char → Option Nat
  | value, [] => some value
  | value, c :: rest => (digitBelow? base c).bind fun d => digitsFrom? base (value * base + d) rest

/-- The value of a sequence of digits, which may start with one plus sign. -/
def digits? (base : Nat) (text : List Char) : Option Nat :=
  let unsigned := match text with
    | '+' :: rest => rest
    | _ => text
  if unsigned.isEmpty then none else digitsFrom? base 0 unsigned

/-- Whether the first two bytes of `text` end inside a character. -/
def splitsAtTwo (text : List Char) : Bool :=
  match text with
  | [] => false
  | [c] => 2 < c.utf8Size
  | c :: d :: _ => if c.utf8Size = 1 then 1 < d.utf8Size else 2 < c.utf8Size

def radix (text : List Char) : Nat × List Char :=
  match text with
  | '0' :: 'x' :: rest | '0' :: 'X' :: rest => (16, rest)
  | '0' :: 'o' :: rest | '0' :: 'O' :: rest => (8, rest)
  | '0' :: 'b' :: rest | '0' :: 'B' :: rest => (2, rest)
  | '0' :: c :: rest => (8, c :: rest)
  | _ => (10, text)

/-- Reads an integer literal, ignoring white space around it and `_` inside it. -/
def readInt (text : List Char) : IntReading :=
  let literal := Text.trim text
  if literal.isEmpty || literal.head? = some '_' || literal.getLast? = some '_' then .notInteger
  else if splitsAtTwo literal then .splitCharacter
  else
    let (base, digits) := radix literal
    match digits? base (digits.filter (· ≠ '_')) with
    | some n => if n < UInt64.size then .value n else .notInteger
    | none => .notInteger

end GoTrace.Literal
