import SqlGuard.Expr
import SqlGuard.Grammar.Expression
import SqlGuard.Proofs.Token.Forms
import SqlGuard.Text.AsciiCase

/-!
# Letter case of characters and texts

What does not change when the ASCII letters of a text are put in lower case: the kinds of its
characters, its form in lower case, the kind of a number and the type of a literal. Main statements:
`Text.lower_folded` and `LiteralKind.type_folded`.
-/

namespace SqlGuard

/-! ### Characters -/

/-- A capital ASCII letter moves by 32, and all other characters stay where they are. -/
theorem toLower_cases (c : Char) :
    (65 ≤ c.toNat ∧ c.toNat ≤ 90) ∧ c.toLower.toNat = c.toNat + 32 ∨
      ¬ (65 ≤ c.toNat ∧ c.toNat ≤ 90) ∧ c.toLower = c := by
  have hupper := Token.isUpper_iff_toNat (c := c)
  cases h : c.isUpper with
  | true =>
    have hrange := hupper.1 h
    have hval : c.val ≥ 'A'.val ∧ c.val ≤ 'Z'.val := of_decide_eq_true h
    have hlower : c.toLower.toNat = (c.val + 32).toNat :=
      congrArg (fun d : Char => d.val.toNat) (dif_pos hval)
    refine .inl ⟨hrange, ?_⟩
    rw [hlower, UInt32.toNat_add]
    show (c.toNat + 32) % 2 ^ 32 = c.toNat + 32
    omega
  | false =>
    rw [h] at hupper
    exact .inr ⟨fun hrange => Bool.noConfusion (hupper.2 hrange), Token.toLower_eq_self h⟩

@[simp]
theorem toLower_toLower (c : Char) : c.toLower.toLower = c.toLower := by
  rcases toLower_cases c with ⟨hrange, hlower⟩ | ⟨-, hsame⟩
  · rcases toLower_cases c.toLower with ⟨hrange', -⟩ | ⟨-, hsame⟩
    · omega
    · exact hsame
  · rw [hsame, hsame]

theorem isAlpha_iff_toNat {c : Char} :
    c.isAlpha = true ↔ (65 ≤ c.toNat ∧ c.toNat ≤ 90) ∨ (97 ≤ c.toNat ∧ c.toNat ≤ 122) := by
  rw [← Token.isUpper_iff_toNat, ← Token.isLower_iff_toNat, ← Bool.or_eq_true]
  rfl

/-- A character that is no letter is met in lower case exactly where it stands. -/
theorem toLower_eq_iff {c d : Char} (noLetter : d.isAlpha = false) : c.toLower = d ↔ c = d := by
  rw [Bool.eq_false_iff, ne_eq, isAlpha_iff_toNat] at noLetter
  rcases toLower_cases c with ⟨hrange, hlower⟩ | ⟨-, hsame⟩
  · constructor
    · rintro rfl
      omega
    · rintro rfl
      omega
  · rw [hsame]

section Kinds

variable (c : Char)

@[simp]
theorem isDigit_toLower : c.toLower.isDigit = c.isDigit := by
  rw [Bool.eq_iff_iff, Char.isDigit_iff_toNat, Char.isDigit_iff_toNat]
  rcases toLower_cases c with ⟨hrange, hlower⟩ | ⟨-, hsame⟩
  · show 48 ≤ c.toLower.toNat ∧ c.toLower.toNat ≤ 57 ↔ 48 ≤ c.toNat ∧ c.toNat ≤ 57
    omega
  · rw [hsame]

@[simp]
theorem isAlpha_toLower : c.toLower.isAlpha = c.isAlpha := by
  rw [Bool.eq_iff_iff, isAlpha_iff_toNat, isAlpha_iff_toNat]
  rcases toLower_cases c with ⟨hrange, hlower⟩ | ⟨-, hsame⟩
  · omega
  · rw [hsame]

theorem beq_toLower {d : Char} (noLetter : d.isAlpha = false) : (c.toLower == d) = (c == d) := by
  rw [Bool.eq_iff_iff, beq_iff_eq, beq_iff_eq, toLower_eq_iff noLetter]

/-- Marks are found alike. -/
theorem contains_toLower {marks : List Char} (noLetters : marks.any Char.isAlpha = false) :
    marks.contains c.toLower = marks.contains c := by
  have same : ∀ d ∈ marks, c.toLower = d ↔ c = d := by
    intro d hmem
    rw [List.any_eq_false] at noLetters
    exact toLower_eq_iff (Bool.eq_false_iff.2 (noLetters d hmem))
  rw [Bool.eq_iff_iff, List.contains_iff_mem, List.contains_iff_mem]
  constructor
  · intro hmem
    rwa [(same _ hmem).1 rfl]
  · intro hmem
    rwa [(same _ hmem).2 rfl]

@[simp]
theorem isWordChar_toLower : Token.isWordChar c.toLower = Token.isWordChar c := by
  rw [Token.isWordChar, Token.isWordChar, Char.isAlphanum, Char.isAlphanum, isAlpha_toLower,
    isDigit_toLower, beq_toLower c (by decide)]

@[simp]
theorem isWordStart_toLower : Token.isWordStart c.toLower = Token.isWordStart c := by
  rw [Token.isWordStart, Token.isWordStart, isAlpha_toLower, beq_toLower c (by decide)]

@[simp]
theorem isBlank_toLower : Text.isBlank c.toLower = Text.isBlank c := by
  rcases toLower_cases c with ⟨hrange, hlower⟩ | ⟨-, hsame⟩
  · rw [Token.not_isBlank (by omega) (by omega), Token.not_isBlank (by omega) (by omega)]
  · rw [hsame]

end Kinds

/-! ### Texts -/

namespace Text

/-- The text with its ASCII letters in lower case. -/
def folded (s : String) : String := String.ofList (asciiFold s)

@[simp]
theorem toList_folded (s : String) : (folded s).toList = s.toList.map Char.toLower :=
  String.toList_ofList

@[simp]
theorem asciiFold_folded (s : String) : asciiFold (folded s) = asciiFold s := by
  simp [asciiFold, Function.comp_def]

theorem asciiFold_append (s t : String) : asciiFold (s ++ t) = asciiFold s ++ asciiFold t := by
  simp [asciiFold]

theorem folded_eq_iff {s t : String} : folded s = folded t ↔ asciiFold s = asciiFold t := by
  unfold folded
  exact ⟨fun h => by simpa using congrArg String.toList h, congrArg String.ofList⟩

@[simp]
theorem folded_folded (s : String) : folded (folded s) = folded s :=
  folded_eq_iff.2 (asciiFold_folded s)

@[simp]
theorem isEmpty_folded (s : String) : (folded s).isEmpty = s.isEmpty := by
  rw [Bool.eq_iff_iff, String.isEmpty_iff, String.isEmpty_iff, ← String.toList_eq_nil_iff,
    ← String.toList_eq_nil_iff]
  simp

/-- Comparisons that ignore letter case. -/
theorem sameIgnoringCase_congr {s s' t t' : String} (hs : folded s = folded s')
    (ht : folded t = folded t') : sameIgnoringCase s t = sameIgnoringCase s' t' := by
  rw [sameIgnoringCase, sameIgnoringCase, folded_eq_iff.1 hs, folded_eq_iff.1 ht]

/-! ### The form in lower case -/

/-- Characters outside ASCII stay where they are. -/
theorem toLower_of_not_ascii {c : Char} (h : ¬ c.toNat < 0x80) : c.toLower = c := by
  rcases toLower_cases c with ⟨hrange, -⟩ | ⟨-, hsame⟩
  · omega
  · exact hsame

theorem toNat_toLower_lt {c : Char} (h : c.toNat < 0x80) : c.toLower.toNat < 0x80 := by
  rcases toLower_cases c with ⟨hrange, hlower⟩ | ⟨-, hsame⟩
  · omega
  · rwa [hsame]

@[simp]
theorem isCased_toLower (c : Char) : isCased c.toLower = isCased c := by
  by_cases h : c.toNat < 0x80
  · rw [isCased, isCased, if_pos h, if_pos (toNat_toLower_lt h), isAlpha_toLower]
  · rw [toLower_of_not_ascii h]

@[simp]
theorem isCaseIgnorable_toLower (c : Char) : isCaseIgnorable c.toLower = isCaseIgnorable c := by
  by_cases h : c.toNat < 0x80
  · rw [isCaseIgnorable, isCaseIgnorable, if_pos h, if_pos (toNat_toLower_lt h)]
    exact contains_toLower c rfl
  · rw [toLower_of_not_ascii h]

@[simp]
theorem lowerChar_toLower (c : Char) : lowerChar c.toLower = lowerChar c := by
  by_cases h : c.toNat < 0x80
  · rw [lowerChar, lowerChar, if_pos h, if_pos (toNat_toLower_lt h), toLower_toLower]
  · rw [toLower_of_not_ascii h]

theorem meetsLetter_map (cs : List Char) : meetsLetter (cs.map Char.toLower) = meetsLetter cs := by
  have hsame : isCaseIgnorable ∘ Char.toLower = isCaseIgnorable := funext isCaseIgnorable_toLower
  unfold meetsLetter
  rw [List.dropWhile_map, hsame]
  cases cs.dropWhile isCaseIgnorable with
  | nil => rfl
  | cons c _ => exact isCased_toLower c

theorem lowerList_map (before cs : List Char) :
    lowerList (before.map Char.toLower) (cs.map Char.toLower) = lowerList before cs := by
  induction cs generalizing before with
  | nil => rfl
  | cons c cs ih =>
    have hsigma : (c.toLower = 'Σ') = (c = 'Σ') := propext (toLower_eq_iff (by decide))
    have hmore := ih (c :: before)
    rw [List.map_cons] at hmore
    simp only [List.map_cons, lowerList, lowerBetween, hsigma, meetsLetter_map, lowerChar_toLower,
      hmore]

/-- Texts that differ in the case of ASCII letters have one form in lower case. -/
theorem lower_folded (s : String) : lower (folded s) = lower s := by
  rw [lower, lower, toList_folded, ← lowerList_map [] s.toList, List.map_nil]

end Text

/-! ### Numbers -/

@[simp]
theorem suffixLetter_toLower (c : Char) :
    Grammar.suffixLetter c.toLower = Grammar.suffixLetter c := by
  have others : ∀ d ∈ ['ß', 'ſ', 'ﬂ', 'ﬄ'], (c.toLower = d) = (c = d) := by
    have noLetters : ['ß', 'ſ', 'ﬂ', 'ﬄ'].all (fun d => !d.isAlpha) = true := rfl
    intro d hd
    have noLetter := List.all_eq_true.1 noLetters d hd
    rw [Bool.not_eq_true'] at noLetter
    exact propext (toLower_eq_iff noLetter)
  simp only [List.forall_mem_cons, List.not_mem_nil, false_implies, implies_true, and_true]
    at others
  obtain ⟨eszett, longS, ligature, ligature'⟩ := others
  simp only [Grammar.suffixLetter, eszett, longS, ligature, ligature', toLower_toLower]

theorem LiteralKind.ofNumber_folded (text : String) :
    ofNumber (Text.folded text) = ofNumber text := by
  have hpoint : '.' ∈ text.toList.map Char.toLower ↔ '.' ∈ text.toList := by
    rw [List.mem_map]
    constructor
    · rintro ⟨c, hmem, hc⟩
      rwa [← (toLower_eq_iff (by decide)).1 hc]
    · exact fun hmem => ⟨'.', hmem, rfl⟩
  simp only [ofNumber, Text.toList_folded, hpoint]

theorem utf8Size_toLower (c : Char) : c.toLower.utf8Size = c.utf8Size := by
  by_cases h : c.toNat < 0x80
  · have hone : ∀ d : Char, d.toNat < 0x80 → d.utf8Size = 1 := by
      intro d hd
      rw [Char.utf8Size_eq_one_iff, UInt32.le_iff_toNat_le]
      exact Nat.le_of_lt_succ hd
    rw [hone _ h, hone _ (Text.toNat_toLower_lt h)]
  · rw [Text.toLower_of_not_ascii h]

theorem utf8Length_map (cs : List Char) : utf8Length (cs.map Char.toLower) = utf8Length cs := by
  induction cs with
  | nil => rfl
  | cons c cs ih => rw [List.map_cons, utf8Length, utf8Length, utf8Size_toLower, ih]

theorem decimalType_map (number : List Char) :
    decimalType (number.map Char.toLower) = decimalType number := by
  have hsign : ((· == '-') : Char → Bool) ∘ Char.toLower = (· == '-') :=
    funext fun c => beq_toLower c (by decide)
  have hpoint : ((· != '.') : Char → Bool) ∘ Char.toLower = (· != '.') :=
    funext fun c => congrArg (! ·) (beq_toLower c (by decide))
  simp only [decimalType, List.dropWhile_map, List.takeWhile_map, ← List.map_drop, hsign, hpoint,
    utf8Length_map]

theorem decimalLiteralType?_folded (text : String) :
    decimalLiteralType? (Text.folded text) = decimalLiteralType? text := by
  unfold decimalLiteralType?
  rw [Text.toList_folded, ← List.map_reverse]
  match text.toList.reverse with
  | [] => rfl
  | [d] => rfl
  | d :: b :: number =>
    simp only [List.map_cons, toLower_toLower, ← List.map_reverse, decimalType_map]

/-- The type of a literal does not depend on letter case. -/
theorem LiteralKind.type_folded (kind : LiteralKind) (text : String) :
    kind.type (Text.folded text) = kind.type text := by
  cases kind with
  | int =>
    simp only [type, Text.toList_folded, List.getLast?_map, Option.any_map]
    congr 3
    funext c
    simp
  | float => simp only [type, decimalLiteralType?_folded]
  | string => rfl

end SqlGuard
