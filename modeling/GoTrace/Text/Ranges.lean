/-!
# Character sets as ranges

A set of characters given by inclusive ranges of code points, the form in which the standard
publishes its character properties.
-/

namespace GoTrace.Text

abbrev Ranges := List (Nat × Nat)

def Ranges.contains (ranges : Ranges) (c : Char) : Bool :=
  ranges.any fun range => range.1 ≤ c.toNat && c.toNat ≤ range.2

end GoTrace.Text
