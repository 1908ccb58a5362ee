/-!
# Letter case of ASCII

Keywords, column names, qualifiers and type suffixes are compared without regard to the case of
ASCII letters. All other characters are compared as they are.
-/

namespace SqlGuard.Text

/-- The characters of a text, its ASCII letters in lower case. -/
def asciiFold (s : String) : List Char := s.toList.map Char.toLower

/-- Whether two texts differ at most in the case of ASCII letters. -/
def sameIgnoringCase (s t : String) : Bool := asciiFold s == asciiFold t

theorem sameIgnoringCase_iff {s t : String} :
    sameIgnoringCase s t = true ↔ asciiFold s = asciiFold t := by
  simp [sameIgnoringCase]

theorem sameIgnoringCase_refl (s : String) : sameIgnoringCase s s = true := by
  simp [sameIgnoringCase]

theorem sameIgnoringCase_comm (s t : String) : sameIgnoringCase s t = sameIgnoringCase t s := by
  rw [Bool.eq_iff_iff, sameIgnoringCase_iff, sameIgnoringCase_iff, eq_comm]

end SqlGuard.Text
