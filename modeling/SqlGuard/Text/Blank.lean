import SqlGuard.Text.Ranges

/-!
# White space

The characters that separate tokens, and that are cut off both ends of statements and type names:
those with the Unicode property White_Space.
-/

namespace SqlGuard.Text

/-- The code points with the property White_Space. -/
def blankRanges : List (Nat × Nat) :=
  [ (0x9, 0xd), (0x20, 0x20), (0x85, 0x85), (0xa0, 0xa0), (0x1680, 0x1680), (0x2000, 0x200a),
    (0x2028, 0x2029), (0x202f, 0x202f), (0x205f, 0x205f), (0x3000, 0x3000) ]

/-- Whether a character is white space. -/
def isBlank (c : Char) : Bool := inRanges blankRanges c

/-- Cuts white space off the front of a list of characters. -/
def trimStart (cs : List Char) : List Char := cs.dropWhile isBlank

/-- Cuts white space off both ends of a list of characters. -/
def trimList (cs : List Char) : List Char := (trimStart (trimStart cs).reverse).reverse

/-- Cuts white space off both ends of a text. -/
def trim (s : String) : String := String.ofList (trimList s.toList)

end SqlGuard.Text
