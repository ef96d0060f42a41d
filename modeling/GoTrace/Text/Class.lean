import GoTrace.Text.Letter
import GoTrace.Text.Uppercase
import GoTrace.Text.Alphabetic
import GoTrace.Text.Numeric
import GoTrace.Text.Unprintable

/-!
# Character classes

The classes of characters that identifiers, directives and quoted text depend on. Below 128 each
class is decided by an ASCII rule, above by the published table of the property.
-/

namespace GoTrace.Text

/-- A letter: general category Lu, Ll, Lt, Lm or Lo. -/
def isLetter (c : Char) : Bool :=
  if c.toNat < 0x80 then c.isAlpha else letters.contains c

/-- A decimal digit: general category Nd. -/
def isDecimalDigit (c : Char) : Bool :=
  if c.toNat < 0x80 then c.isDigit else decimalDigits.contains c

/-- An upper case character, by the property Uppercase. -/
def isUppercase (c : Char) : Bool :=
  if c.toNat < 0x80 then c.isUpper else uppercase.contains c

/-- An alphabetic character, by the property Alphabetic. -/
def isAlphabetic (c : Char) : Bool :=
  if c.toNat < 0x80 then c.isAlpha else alphabetic.contains c

/-- A numeric character: general category Nd, Nl or No. -/
def isNumeric (c : Char) : Bool :=
  if c.toNat < 0x80 then c.isDigit else numeric.contains c

def isAlphanumeric (c : Char) : Bool :=
  isAlphabetic c || isNumeric c

/-- White space, by the property White_Space. -/
def isBlank (c : Char) : Bool :=
  (0x9 ≤ c.toNat && c.toNat ≤ 0xD) || c = ' ' ||
    Ranges.contains
      [(0x85, 0x85), (0xA0, 0xA0), (0x1680, 0x1680), (0x2000, 0x200A), (0x2028, 0x2029),
       (0x202F, 0x202F), (0x205F, 0x205F), (0x3000, 0x3000)] c

/-- A character with a glyph of its own, the space included. -/
def isPrintable (c : Char) : Bool :=
  if c.toNat < 0x80 then 0x20 ≤ c.toNat && c.toNat < 0x7F else !unprintable.contains c

/-- A character that joins the one before it, by the property Grapheme_Extend. -/
def isExtender (c : Char) : Bool :=
  0x80 ≤ c.toNat && extenders.contains c

end GoTrace.Text
