/-!
# Ranges of characters

A property of characters that has no rule of its own is kept as a list of closed ranges of code
points. The tables are data of the Unicode standard, version 17.
-/

namespace SqlGuard.Text

/-- Whether the code point of `c` lies in one of the closed ranges. -/
def inRanges (ranges : List (Nat × Nat)) (c : Char) : Bool :=
  ranges.any fun range => range.1 ≤ c.toNat && c.toNat ≤ range.2

end SqlGuard.Text
