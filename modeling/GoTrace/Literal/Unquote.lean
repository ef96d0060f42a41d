import GoTrace.Literal.Integer

/-!
# String literals

The text that a string literal stands for. A raw literal between backquotes is taken as it is, less
its carriage returns. In an interpreted literal between double quotes an escape stands for a
character or for a single byte, so the text is put together from bytes and has to be UTF-8.
-/

namespace GoTrace.Literal

def takeDigits? (base : Nat) : Nat → List Char → Option (Nat × List Char) :=
  go 0
where
  go (value : Nat) : Nat → List Char → Option (Nat × List Char)
    | 0, rest => some (value, rest)
    | _ + 1, [] => none
    | count + 1, c :: rest =>
        match digitBelow? base c with
        | some d => go (value * base + d) count rest
        | none => none

def codePoint? (code : Nat) : Option (List UInt8) :=
  if h : code.isValidChar then some (String.utf8EncodeChar (Char.ofNatAux code h)) else none

def simpleEscape? : Char → Option UInt8
  | 'a' => some 0x07
  | 'b' => some 0x08
  | 'f' => some 0x0C
  | 'n' => some 0x0A
  | 'r' => some 0x0D
  | 't' => some 0x09
  | 'v' => some 0x0B
  | '\\' => some 0x5C
  | '"' => some 0x22
  | _ => none

def escape? : List Char → Option (List UInt8 × List Char)
  | [] => none
  | 'x' :: rest => do
      let (value, rest) ← takeDigits? 16 2 rest
      some ([value.toUInt8], rest)
  | 'u' :: rest => do
      let (value, rest) ← takeDigits? 16 4 rest
      some (← codePoint? value, rest)
  | 'U' :: rest => do
      let (value, rest) ← takeDigits? 16 8 rest
      some (← codePoint? value, rest)
  | c :: rest =>
      match simpleEscape? c with
      | some byte => some ([byte], rest)
      | none => do
          let (value, rest) ← takeDigits? 8 3 (c :: rest)
          if value < 256 then some ([value.toUInt8], rest) else none

/-- The bytes that the inside of an interpreted literal stands for. The bound is on the number of
characters still to be read. -/
def unescape? : Nat → List Char → Option (List UInt8)
  | _, [] => some []
  | 0, _ :: _ => none
  | bound + 1, '\\' :: rest => do
      let (bytes, rest) ← escape? rest
      some (bytes ++ (← unescape? bound rest))
  | bound + 1, c :: rest => do
      some (String.utf8EncodeChar c ++ (← unescape? bound rest))

/-- The inside of a text that starts and ends with `mark`, each with a character of its own. -/
def inside? (mark : Char) : List Char → Option (List Char)
  | c :: rest => if c = mark then Text.dropLast? mark rest else none
  | [] => none

/-- The text that a string literal stands for; nothing for a text that is no literal. -/
def unquote? (literal : List Char) : Option String :=
  match inside? '\x60' literal with
  | some raw => some (String.ofList (raw.filter (· ≠ '\r')))
  | none =>
      (inside? '"' literal).bind fun body =>
        (unescape? body.length body).bind fun bytes => String.fromUTF8? bytes.toByteArray

end GoTrace.Literal
