import GoTrace.Text.Class

/-!
# Quoted text

The one-line form of a string between double quotes: the quote, the backslash and the usual
controls have short escapes, a character without a glyph of its own is written by its code point.
-/

namespace GoTrace.Text

/-- A code point between `\u{` and `}`, in lower case hexadecimal without leading zeros. -/
def escapeCodePoint (c : Char) : List Char :=
  ['\\', 'u', '\x7b'] ++ Nat.toDigits 16 c.toNat ++ ['\x7d']

def escape (c : Char) : List Char :=
  match c with
  | '\x00' => ['\\', '0']
  | '\t' => ['\\', 't']
  | '\r' => ['\\', 'r']
  | '\n' => ['\\', 'n']
  | '"' => ['\\', '"']
  | '\\' => ['\\', '\\']
  | _ => if isExtender c || !isPrintable c then escapeCodePoint c else [c]

def quote (text : String) : String :=
  String.ofList ('"' :: text.toList.flatMap escape ++ ['"'])

end GoTrace.Text
