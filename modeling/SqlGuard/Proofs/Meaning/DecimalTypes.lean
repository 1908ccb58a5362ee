import Mathlib.Data.List.Basic
import SqlGuard.Proofs.Meaning.NumberKinds

/-!
# The types of decimal literals

A literal that ends in `BD` is a decimal whatever stands before that. Its precision and scale are
the numbers of bytes on the two sides of its first point, limited so that they always make a valid
type; where digits stand there, and no more than 38, they are the numbers of digits. Main statement:
`decimalLiteralType?_exact`.
-/

namespace SqlGuard

/-- The parts of a text that ends in `BD`: the minus signs in front, what is written before its
    first point, and what is written behind that, if there is a point. -/
structure DecimalParts (text whole fraction : String) : Prop where
  split : ∃ signs point letters : String, text = signs ++ whole ++ point ++ letters ∧
    (∀ c ∈ signs.toList, c = '-') ∧ (point = "" ∧ fraction = "" ∨ point = "." ++ fraction) ∧
    letters.toList.map Char.toLower = ['b', 'd']
  unsigned : whole.toList.head? ≠ some '-'
  noPoint : '.' ∉ whole.toList

/-- A decimal literal with a sign or without: the digits before its point, and those behind it, if
    there is a point. -/
def IsDecimalLiteral (text whole fraction : String) : Prop :=
  ∃ sign point letters : String, text = sign ++ whole ++ point ++ letters ∧
    (sign = "" ∨ sign = "-") ∧ whole ≠ "" ∧ whole.toList.all Char.isDigit = true ∧
    (point = "" ∧ fraction = "" ∨
      point = "." ++ fraction ∧ fraction ≠ "" ∧ fraction.toList.all Char.isDigit = true) ∧
    letters.toList.map Char.toLower = ['b', 'd']

/-! ### Numbers of bytes -/

theorem utf8Length_eq (cs : List Char) : utf8Length cs = (String.ofList cs).utf8ByteSize := by
  induction cs with
  | nil => rw [utf8Length, String.ofList_nil, String.utf8ByteSize_empty]
  | cons c cs ih =>
    have hsplit : String.ofList (c :: cs) = String.singleton c ++ String.ofList cs := by
      rw [String.singleton_eq_ofList, ← String.ofList_append]
      rfl
    rw [utf8Length, ih, hsplit, String.utf8ByteSize_append, String.utf8ByteSize_singleton]

theorem utf8Length_toList (s : String) : utf8Length s.toList = s.utf8ByteSize := by
  rw [utf8Length_eq, String.ofList_toList]

/-- Digits take a byte each. -/
theorem utf8ByteSize_of_digits {s : String} (digits : s.toList.all Char.isDigit = true) :
    s.utf8ByteSize = s.length := by
  have hbytes : ∀ ds : List Char, ds.all Char.isDigit = true → utf8Length ds = ds.length := by
    intro ds hds
    induction ds with
    | nil => rfl
    | cons d ds ih =>
      rw [List.all_cons, Bool.and_eq_true] at hds
      have hrange := Token.toNat_of_isDigit hds.1
      have hone : d.utf8Size = 1 := by
        rw [Char.utf8Size_eq_one_iff, UInt32.le_iff_toNat_le]
        show d.toNat ≤ 127
        omega
      rw [utf8Length, ih hds.2, hone, List.length_cons, Nat.add_comm]
  rw [← utf8Length_toList, hbytes _ digits, String.length_toList]

/-! ### Precision and scale -/

theorem toNat_max_byte (m n : UInt8) : (max m n).toNat = max m.toNat n.toNat := by
  show (if m ≤ n then n else m).toNat = _
  split
  · rename_i hle
    exact (Nat.max_eq_right (UInt8.le_iff_toNat_le.1 hle)).symm
  · rename_i hle
    exact (Nat.max_eq_left (Nat.le_of_not_le (mt UInt8.le_iff_toNat_le.2 hle))).symm

/-- The limits come before the bytes, so nothing is cut off. -/
theorem exists_decimalOfDigits_eq (whole fraction : Nat) :
    ∃ precision scale, decimalOfDigits whole fraction = .decimal precision scale ∧
      scale.toNat = min fraction 38 ∧
      precision.toNat = max (max 1 (min (whole + fraction) 38)) (min fraction 38) := by
  have hbyte : ∀ n, n ≤ 38 → (UInt8.ofNat n).toNat = n := fun n hn =>
    UInt8.toNat_ofNat_of_lt' (Nat.lt_of_le_of_lt hn (by decide))
  have hscale := hbyte (min fraction 38) (Nat.min_le_right _ _)
  have hprecision := hbyte (max 1 (min (whole + fraction) 38)) (by omega)
  refine ⟨_, _, rfl, hscale, ?_⟩
  rw [toNat_max_byte, hprecision, hscale]

/-! ### Parts of texts -/

/-- The letters at the end decide whether there is a decimal type, and all before them its size. -/
theorem decimalLiteralType?_eq_some_iff {text : String} {type : DataType} :
    decimalLiteralType? text = some type ↔
      ∃ number letters : List Char, text.toList = number ++ letters ∧
        letters.map Char.toLower = ['b', 'd'] ∧ decimalType number = type := by
  unfold decimalLiteralType?
  constructor
  · intro h
    split at h
    · rename_i d b number hreverse
      split at h
      · rename_i hletters
        cases h
        refine ⟨number.reverse, [b, d], ?_, by simp [hletters], rfl⟩
        rw [← List.reverse_reverse text.toList, hreverse]
        simp
      · cases h
    · cases h
  · rintro ⟨number, letters, htext, hletters, rfl⟩
    obtain ⟨b, tail, rfl, hb, htail⟩ := List.map_eq_cons_iff.1 hletters
    obtain ⟨d, tail, rfl, hd, htail⟩ := List.map_eq_cons_iff.1 htail
    cases List.map_eq_nil_iff.1 htail
    rw [htext]
    simp [hb, hd]

/-- All minus signs in front are passed over, and the point is no digit. -/
theorem decimalType_of_parts {signs whole point fraction : List Char}
    (hsigns : ∀ c ∈ signs, c = '-') (unsigned : whole.head? ≠ some '-') (noPoint : '.' ∉ whole)
    (hpoint : point = [] ∧ fraction = [] ∨ point = '.' :: fraction) :
    decimalType (signs ++ (whole ++ point)) =
      decimalOfDigits (utf8Length whole) (utf8Length fraction) := by
  have hdigits : (signs ++ (whole ++ point)).dropWhile (· == '-') = whole ++ point := by
    refine Token.dropWhile_of_stopsAt (by simpa using hsigns) fun c hc => ?_
    cases whole with
    | nil =>
      rcases hpoint with ⟨rfl, -⟩ | rfl
      · cases hc
      · cases hc
        rfl
    | cons d whole =>
      cases hc
      simpa using unsigned
  have hwhole : whole.all (· != '.') = true := by
    rw [List.all_bne', List.contains_eq_mem, decide_eq_false noPoint, Bool.not_false]
  have hstops : Token.StopsAt (· != '.') point := by
    rcases hpoint with ⟨rfl, -⟩ | rfl
    · nofun
    · rintro c ⟨⟩
      rfl
  have hfraction : point.drop 1 = fraction := by
    rcases hpoint with ⟨rfl, rfl⟩ | rfl <;> rfl
  simp only [decimalType, hdigits, Token.takeWhile_of_stopsAt hwhole hstops,
    Token.dropWhile_of_stopsAt hwhole hstops, hfraction]

/-- Any characters have such parts. -/
theorem exists_parts (number : List Char) : ∃ signs whole point fraction : List Char,
    number = signs ++ (whole ++ point) ∧ (∀ c ∈ signs, c = '-') ∧ whole.head? ≠ some '-' ∧
      '.' ∉ whole ∧ (point = [] ∧ fraction = [] ∨ point = '.' :: fraction) := by
  have hunsigned := Token.stopsAt_dropWhile (· == '-') number
  have hpoint := Token.stopsAt_dropWhile (· != '.') (number.dropWhile (· == '-'))
  refine ⟨number.takeWhile (· == '-'), (number.dropWhile (· == '-')).takeWhile (· != '.'),
    (number.dropWhile (· == '-')).dropWhile (· != '.'),
    ((number.dropWhile (· == '-')).dropWhile (· != '.')).drop 1, ?_, ?_, ?_, ?_, ?_⟩
  · rw [List.takeWhile_append_dropWhile, List.takeWhile_append_dropWhile]
  · intro c hc
    simpa using List.all_eq_true.1 List.all_takeWhile c hc
  · -- the first character is that of all digits, unless it is the point
    cases hdigits : number.dropWhile (· == '-') with
    | nil => nofun
    | cons d digits =>
      have hd := hunsigned d (by rw [hdigits, List.head?_cons])
      rw [List.takeWhile_cons]
      split
      · simpa using hd
      · nofun
  · intro hmem
    simpa using List.all_eq_true.1 List.all_takeWhile _ hmem
  · cases hcase : (number.dropWhile (· == '-')).dropWhile (· != '.') with
    | nil => exact .inl ⟨rfl, rfl⟩
    | cons c rest =>
      have hc := hpoint c (by rw [hcase, List.head?_cons])
      rw [bne_eq_false_iff_eq] at hc
      exact .inr (congrArg (· :: rest) hc)

namespace DecimalParts

variable {text whole fraction : String}

/-- What stands before the first point and behind it decides the type. -/
theorem type_eq (h : DecimalParts text whole fraction) :
    decimalLiteralType? text =
      some (decimalOfDigits whole.utf8ByteSize fraction.utf8ByteSize) := by
  obtain ⟨⟨signs, point, letters, rfl, hsigns, hpoint, hletters⟩, hunsigned, noPoint⟩ := h
  rw [decimalLiteralType?_eq_some_iff, ← utf8Length_toList, ← utf8Length_toList]
  refine ⟨(signs ++ whole ++ point).toList, letters.toList, String.toList_append .., hletters, ?_⟩
  rw [String.toList_append, String.toList_append, List.append_assoc]
  refine decimalType_of_parts hsigns hunsigned noPoint ?_
  rcases hpoint with ⟨rfl, rfl⟩ | rfl
  · exact .inl ⟨rfl, rfl⟩
  · exact .inr (String.toList_append ..)

/-- A text that has a decimal type has such parts. -/
theorem exists_of_type {type : DataType} (h : decimalLiteralType? text = some type) :
    ∃ whole fraction, DecimalParts text whole fraction := by
  obtain ⟨number, letters, htext, hletters, -⟩ := decimalLiteralType?_eq_some_iff.1 h
  obtain ⟨signs, whole, point, fraction, rfl, hsigns, hunsigned, noPoint, hpoint⟩ :=
    exists_parts number
  refine ⟨.ofList whole, .ofList fraction,
    ⟨.ofList signs, .ofList point, .ofList letters, ?_, ?_, ?_, ?_⟩, ?_, ?_⟩
  · rw [← String.toList_inj, htext]
    simp
  · rwa [String.toList_ofList]
  · rcases hpoint with ⟨rfl, rfl⟩ | rfl
    · exact .inl ⟨rfl, rfl⟩
    · refine .inr ?_
      show String.ofList (['.'] ++ fraction) = "." ++ String.ofList fraction
      rw [String.ofList_append]
  · rwa [String.toList_ofList]
  · rwa [String.toList_ofList]
  · rwa [String.toList_ofList]

end DecimalParts

/-- Digits with a sign or without are such parts. -/
theorem IsDecimalLiteral.parts {text whole fraction : String}
    (h : IsDecimalLiteral text whole fraction) : DecimalParts text whole fraction := by
  obtain ⟨sign, point, letters, rfl, hsign, -, hwhole, hpoint, hletters⟩ := h
  have hdigit : ∀ c, c.isDigit = false → c ∉ whole.toList := by
    intro c hc hmem
    rw [List.all_eq_true.1 hwhole c hmem] at hc
    cases hc
  refine ⟨⟨sign, point, letters, rfl, ?_, ?_, hletters⟩, ?_, hdigit '.' rfl⟩
  · rcases hsign with rfl | rfl
    · nofun
    · exact fun c hc => List.mem_singleton.1 hc
  · exact hpoint.imp id And.left
  · exact fun hhead => hdigit '-' rfl (List.mem_of_head? hhead)

theorem IsDecimalLiteral.bytes {text whole fraction : String}
    (h : IsDecimalLiteral text whole fraction) :
    whole.utf8ByteSize = whole.length ∧ fraction.utf8ByteSize = fraction.length ∧
      0 < whole.length := by
  obtain ⟨sign, point, letters, -, -, hne, hwhole, hpoint, -⟩ := h
  refine ⟨utf8ByteSize_of_digits hwhole, ?_, ?_⟩
  · rcases hpoint with ⟨-, rfl⟩ | ⟨-, -, hfraction⟩
    · rfl
    · exact utf8ByteSize_of_digits hfraction
  · rw [← String.length_toList, List.length_pos_iff]
    exact mt String.toList_eq_nil_iff.1 hne

/-- A minus sign makes no difference, in front of any text. -/
theorem decimalLiteralType?_negative (text : String) :
    decimalLiteralType? ("-" ++ text) = decimalLiteralType? text := by
  unfold decimalLiteralType?
  have hreverse : ("-" ++ text).toList.reverse = text.toList.reverse ++ ['-'] := by simp
  rw [hreverse]
  match text.toList.reverse with
  | [] => rfl
  | [d] => simp
  | d :: b :: number => simp [NumberLiteral.decimalType_negative]

/-- The type of a decimal literal is valid, and its precision and scale are the limited numbers of
    bytes before the first point and behind it, of which nothing is cut off. For a literal of up to
    38 digits they are the number of its digits and of those behind the point. A sign makes no
    difference. -/
theorem decimalLiteralType?_exact (text : String) :
    (∀ type, decimalLiteralType? text = some type →
      ∃ precision scale whole fraction, type = .decimal precision scale ∧
        1 ≤ precision ∧ precision ≤ 38 ∧ scale ≤ precision ∧ DecimalParts text whole fraction ∧
        scale.toNat = min fraction.utf8ByteSize 38 ∧
        precision.toNat = max (max 1 (min (whole.utf8ByteSize + fraction.utf8ByteSize) 38))
          (min fraction.utf8ByteSize 38)) ∧
    (∀ whole fraction, IsDecimalLiteral text whole fraction →
      whole.length + fraction.length ≤ 38 →
      ∃ precision scale, decimalLiteralType? text = some (.decimal precision scale) ∧
        precision.toNat = whole.length + fraction.length ∧ scale.toNat = fraction.length) ∧
    decimalLiteralType? ("-" ++ text) = decimalLiteralType? text := by
  refine ⟨fun type htype => ?_, fun whole fraction literal short => ?_,
    decimalLiteralType?_negative text⟩
  · obtain ⟨whole, fraction, parts⟩ := DecimalParts.exists_of_type htype
    obtain ⟨precision, scale, hsize, hscale, hprecision⟩ :=
      exists_decimalOfDigits_eq whole.utf8ByteSize fraction.utf8ByteSize
    have heq := htype.symm.trans parts.type_eq
    rw [hsize, Option.some.injEq] at heq
    refine ⟨precision, scale, whole, fraction, heq, ?_, ?_, ?_, parts, hscale, hprecision⟩
    all_goals
      rw [UInt8.le_iff_toNat_le]
      simp only [hscale, hprecision, UInt8.reduceToNat]
      omega
  · obtain ⟨hwhole, hfraction, hpos⟩ := literal.bytes
    obtain ⟨precision, scale, hsize, hscale, hprecision⟩ :=
      exists_decimalOfDigits_eq whole.utf8ByteSize fraction.utf8ByteSize
    refine ⟨precision, scale, ?_, ?_, ?_⟩
    · rw [literal.parts.type_eq, hsize]
    · rw [hprecision, hwhole, hfraction]
      omega
    · rw [hscale, hfraction]
      omega

/-- A signed literal with a zero in front, which counts as a digit. -/
theorem decimalLiteralType?_exact_signed :
    decimalLiteralType? "-012.50bD" = some (.decimal 5 2) ∧
      (∃ whole fraction, DecimalParts "-012.50bD" whole fraction) ∧
      IsDecimalLiteral "-012.50bD" "012" "50" ∧
      ∃ precision scale, decimalLiteralType? "-012.50bD" = some (.decimal precision scale) ∧
        precision.toNat = 5 ∧ scale.toNat = 2 := by
  have htype : decimalLiteralType? "-012.50bD" = some (.decimal 5 2) := by decide +kernel
  have literal : IsDecimalLiteral "-012.50bD" "012" "50" :=
    ⟨"-", ".50", "bD", by decide +kernel, .inr rfl, by decide, by decide,
      .inr ⟨by decide +kernel, by decide, by decide⟩, by decide⟩
  obtain ⟨valid, exact, -⟩ := decimalLiteralType?_exact "-012.50bD"
  obtain ⟨_, _, whole, fraction, -, -, -, -, parts, -⟩ := valid _ htype
  exact ⟨htype, ⟨whole, fraction, parts⟩, literal, exact "012" "50" literal (by decide)⟩

end SqlGuard
