import Mathlib.Data.List.Basic
import Mathlib.Data.List.TakeWhile
import SqlGuard.Proofs.Catalog.KnownTypes
import SqlGuard.Proofs.LetterCase.Letters

/-!
# The names of types

Which texts name a type, said apart from how they are read: a listed name, or `decimal` with a
precision and perhaps a scale in parentheses, in any letter case and with white space around it. The
written form of a type is such a name. Main statement: `DataType.ofName_reads`.
-/

namespace SqlGuard

namespace Text

/-! ### White space around texts -/

variable {before after : List Char}

theorem trimStart_append (blank : before.all isBlank = true) (cs : List Char) :
    trimStart (before ++ cs) = trimStart cs :=
  List.dropWhile_append_of_pos (List.all_eq_true.1 blank)

theorem trimList_append_right (blank : after.all isBlank = true) (cs : List Char) :
    trimList (cs ++ after) = trimList cs := by
  have hback : after.reverse.all isBlank = true := by rwa [List.all_reverse]
  have hafter : after.dropWhile isBlank = [] :=
    List.dropWhile_eq_nil_iff.2 (List.all_eq_true.1 blank)
  cases hcs : cs.dropWhile isBlank with
  | nil =>
    simp only [trimList, trimStart, List.dropWhile_append, hcs, hafter, List.isEmpty_nil, if_true]
  | cons c rest =>
    have hstart : trimStart (cs ++ after) = (c :: rest) ++ after := by
      rw [trimStart, List.dropWhile_append, hcs, List.isEmpty_cons, if_neg Bool.false_ne_true]
    rw [trimList, hstart, List.reverse_append, trimStart_append hback, ← hcs]
    rfl

/-- White space around a text is cut off with that of its own ends. -/
theorem trimList_around (blank : before.all isBlank = true) (blank' : after.all isBlank = true)
    (cs : List Char) : trimList (before ++ cs ++ after) = trimList cs := by
  rw [trimList_append_right blank', trimList, trimStart_append blank, trimList]

theorem trimList_map (cs : List Char) :
    trimList (cs.map Char.toLower) = (trimList cs).map Char.toLower := by
  have hsame : isBlank ∘ Char.toLower = isBlank := funext isBlank_toLower
  simp only [trimList, trimStart, List.dropWhile_map, ← List.map_reverse, hsame]

/-! ### Texts without white space and capitals -/

/-- A character that is neither white space nor a letter with another form in lower case. -/
def isPlain (c : Char) : Bool := 32 < c.toNat && c.toNat < 127 && !c.isUpper

theorem isPlain_iff {c : Char} :
    isPlain c = true ↔ 32 < c.toNat ∧ c.toNat < 127 ∧ c.isUpper = false := by
  simp [isPlain, and_assoc]

theorem trimStart_of_plain {cs : List Char} (plain : cs.all isPlain = true) :
    trimStart cs = cs := by
  cases cs with
  | nil => rfl
  | cons c cs =>
    obtain ⟨low, high, -⟩ := isPlain_iff.1 (List.all_eq_true.1 plain c List.mem_cons_self)
    rw [trimStart, List.dropWhile_cons, Token.not_isBlank low high, if_neg Bool.false_ne_true]

theorem trimList_of_plain {cs : List Char} (plain : cs.all isPlain = true) :
    trimList cs = cs := by
  have hback : cs.reverse.all isPlain = true := by rwa [List.all_reverse]
  rw [trimList, trimStart_of_plain plain, trimStart_of_plain hback, List.reverse_reverse]

theorem lowerList_of_plain {cs : List Char} (plain : cs.all isPlain = true) (before : List Char) :
    lowerList before cs = cs := by
  induction cs generalizing before with
  | nil => rfl
  | cons c cs ih =>
    obtain ⟨hc, hcs⟩ := Bool.and_eq_true_iff.1 plain
    obtain ⟨-, high, small⟩ := isPlain_iff.1 hc
    have noSigma : c ≠ 'Σ' := by
      rintro rfl
      cases hc
    rw [lowerList, lowerBetween, if_neg noSigma, lowerChar, if_pos (by omega),
      Token.toLower_eq_self small, ih hcs, List.singleton_append]

/-- A plain text stays as it is when it is read. -/
theorem lower_trim_of_plain {s : String} (plain : s.toList.all isPlain = true) :
    lower (trim s) = s := by
  rw [lower, trim, String.toList_ofList, trimList_of_plain plain, lowerList_of_plain plain,
    String.ofList_toList]

theorem isPlain_of_isDigit {c : Char} (h : c.isDigit = true) : isPlain c = true := by
  have hrange := Token.toNat_of_isDigit h
  have small : c.isUpper = false := by
    rw [Bool.eq_false_iff, ne_eq, Token.isUpper_iff_toNat]
    omega
  exact isPlain_iff.2 ⟨by omega, by omega, small⟩

end Text

namespace DataType

/-- The names without parentheses. -/
def listedNames : List (String × DataType) :=
  [("int", .int), ("integer", .int), ("smallint", .int), ("tinyint", .int), ("bigint", .bigInt),
    ("float", .float), ("double", .double), ("string", .string), ("varchar", .string),
    ("char", .string), ("boolean", .boolean), ("bool", .boolean), ("decimal", .decimal 10 0)]

/-- A number as it is written between parentheses: decimal digits, a plus sign before them or none,
    and white space around them. -/
def WritesByte (part : String) (n : UInt8) : Prop :=
  ∃ sign digits : String, Text.trim part = sign ++ digits ∧ (sign = "" ∨ sign = "+") ∧
    digits ≠ "" ∧ digits.toList.all Char.isDigit = true ∧
    Nat.ofDigitChars 10 digits.toList 0 = n.toNat

/-- The names of types in lower case and without white space around them. What stands between
    parentheses is cut at its first comma. -/
inductive Named : String → DataType → Prop
  | listed {name : String} {type : DataType} (listed : (name, type) ∈ listedNames) :
      Named name type
  | whole {part : String} {precision : UInt8} (noComma : ',' ∉ part.toList)
      (digits : WritesByte part precision) :
      Named ("decimal(" ++ part ++ ")") (.decimal precision 0)
  | scaled {first second : String} {precision scale : UInt8} (noComma : ',' ∉ first.toList)
      (digits : WritesByte first precision) (scaleDigits : WritesByte second scale) :
      Named ("decimal(" ++ (first ++ "," ++ second) ++ ")") (.decimal precision scale)

/-! ### Numbers -/

theorem ofDigits_eq (digits : List Char) : ofDigits digits = Nat.ofDigitChars 10 digits 0 := by
  rw [ofDigits, Nat.ofDigitChars_eq_foldl]

/-- One plus sign is cut off, and no digit is one. -/
theorem exists_withoutPlus (cs : List Char) :
    ∃ sign, (sign = [] ∨ sign = ['+']) ∧ cs = sign ++ withoutPlus cs := by
  unfold withoutPlus
  split
  · exact ⟨['+'], .inr rfl, rfl⟩
  · exact ⟨[], .inl rfl, rfl⟩

theorem withoutPlus_append {sign digits : List Char} (hsign : sign = [] ∨ sign = ['+'])
    (hdigits : digits.all Char.isDigit = true) : withoutPlus (sign ++ digits) = digits := by
  rcases hsign with rfl | rfl
  · rw [List.nil_append]
    unfold withoutPlus
    split
    · cases List.all_eq_true.1 hdigits '+' List.mem_cons_self
    · rfl
  · rfl

theorem ofByteDigits?_eq_some_iff {cs : List Char} {n : UInt8} :
    ofByteDigits? cs = some n ↔
      ∃ sign digits, cs = sign ++ digits ∧ (sign = [] ∨ sign = ['+']) ∧ digits ≠ [] ∧
        digits.all Char.isDigit = true ∧ Nat.ofDigitChars 10 digits 0 = n.toNat := by
  simp only [ofByteDigits?, ofDigits_eq]
  constructor
  · intro h
    split at h
    · rename_i hdigits
      obtain ⟨hne, hall, hle⟩ := hdigits
      obtain ⟨sign, hsign, hcs⟩ := exists_withoutPlus cs
      cases h
      have hvalue := UInt8.toNat_ofNat_of_lt' (Nat.lt_succ_of_le hle)
      exact ⟨sign, _, hcs, hsign, hne, hall, hvalue.symm⟩
    · cases h
  · rintro ⟨sign, digits, rfl, hsign, hne, hall, hvalue⟩
    have hsize : n.toNat ≤ 255 := Nat.le_of_lt_succ n.toNat_lt
    rw [withoutPlus_append hsign hall, if_pos ⟨hne, hall, hvalue ▸ hsize⟩, hvalue,
      UInt8.ofNat_toNat]

theorem writesByte_iff {part : List Char} {n : UInt8} :
    ofByteDigits? (Text.trimList part) = some n ↔ WritesByte (String.ofList part) n := by
  rw [ofByteDigits?_eq_some_iff]
  constructor
  · rintro ⟨sign, digits, htrim, hsign, hne, hall, hvalue⟩
    refine ⟨.ofList sign, .ofList digits, ?_, ?_, ?_, by rwa [String.toList_ofList],
      by rwa [String.toList_ofList]⟩
    · rw [Text.trim, String.toList_ofList, htrim, String.ofList_append]
    · exact hsign.imp (congrArg String.ofList) (congrArg String.ofList)
    · rwa [ne_eq, ← String.toList_eq_nil_iff, String.toList_ofList]
  · rintro ⟨sign, digits, htrim, hsign, hne, hall, hvalue⟩
    refine ⟨sign.toList, digits.toList, ?_, ?_, mt String.toList_eq_nil_iff.1 hne, hall, hvalue⟩
    · rw [← String.toList_append, ← htrim, Text.trim, String.toList_ofList, String.toList_ofList]
    · exact hsign.imp (congrArg String.toList) (congrArg String.toList)

/-! ### Names with parentheses -/

theorem all_ne_comma {cs : List Char} (noComma : ',' ∉ cs) : cs.all (· != ',') = true := by
  rw [List.all_bne', List.contains_eq_mem, decide_eq_false noComma, Bool.not_false]

theorem cutAtComma_of_not_mem {cs : List Char} (noComma : ',' ∉ cs) :
    cutAtComma cs = (cs, none) := by
  have hdrop : (cs ++ []).dropWhile (· != ',') = [] :=
    Token.dropWhile_of_stopsAt (all_ne_comma noComma) nofun
  rw [List.append_nil] at hdrop
  rw [cutAtComma, hdrop]

theorem cutAtComma_append {first : List Char} (noComma : ',' ∉ first) (second : List Char) :
    cutAtComma (first ++ ',' :: second) = (first, some second) := by
  have hall := all_ne_comma noComma
  have hstops : Token.StopsAt (· != ',') (',' :: second) := by
    rintro c ⟨⟩
    rfl
  rw [cutAtComma, Token.dropWhile_of_stopsAt hall hstops, Token.takeWhile_of_stopsAt hall hstops]

theorem ofDecimalArguments?_of_not_mem {arguments : List Char} (noComma : ',' ∉ arguments)
    {type : DataType} :
    ofDecimalArguments? arguments = some type ↔
      ∃ precision, WritesByte (String.ofList arguments) precision ∧
        type = .decimal precision 0 := by
  simp only [← writesByte_iff, ofDecimalArguments?, cutAtComma_of_not_mem noComma, Option.map_none]
  constructor
  · intro h
    split at h
    · rename_i precision hprecision _
      cases h
      exact ⟨precision, hprecision, rfl⟩
    · rename_i heq
      cases heq
    · cases h
  · rintro ⟨precision, hprecision, rfl⟩
    rw [hprecision]

theorem ofDecimalArguments?_append {first second : List Char} (noComma : ',' ∉ first)
    {type : DataType} :
    ofDecimalArguments? (first ++ ',' :: second) = some type ↔
      ∃ precision scale, WritesByte (String.ofList first) precision ∧
        WritesByte (String.ofList second) scale ∧ type = .decimal precision scale := by
  simp only [← writesByte_iff, ofDecimalArguments?, cutAtComma_append noComma, Option.map_some,
    Function.comp_apply]
  constructor
  · intro h
    split at h
    · rename_i heq
      cases heq
    · rename_i precision scale hprecision hscale
      cases h
      exact ⟨precision, scale, hprecision, Option.some.inj hscale, rfl⟩
    · cases h
  · rintro ⟨precision, scale, hprecision, hscale, rfl⟩
    rw [hprecision, hscale]

theorem decimalArguments?_eq_some_iff {cs arguments : List Char} :
    decimalArguments? cs = some arguments ↔ cs = "decimal(".toList ++ (arguments ++ [')']) := by
  have hdrop : ∀ rest : List Char, ("decimal(".toList ++ rest).drop "decimal(".length = rest :=
    fun rest => rfl
  unfold decimalArguments?
  constructor
  · intro h
    split at h
    · rename_i hprefix
      obtain ⟨rest, rfl⟩ := List.isPrefixOf_iff_prefix.1 hprefix
      simp only [hdrop] at h
      split at h
      · rename_i hlast
        cases h
        rw [List.dropLast_append_getLast? ')' hlast]
      · cases h
    · cases h
  · rintro rfl
    rw [if_pos (List.isPrefixOf_iff_prefix.2 (List.prefix_append _ _)), hdrop]
    simp

/-! ### Names that are listed -/

theorem ofLowerName?_of_listed {name : String} {type : DataType}
    (listed : (name, type) ∈ listedNames) : ofLowerName? name.toList = some type := by
  have hall : ∀ entry ∈ listedNames, ofLowerName? entry.1.toList = some entry.2 := by
    decide +kernel
  exact hall _ listed

theorem ofLowerName?_of_not_listed {cs : List Char}
    (notListed : ∀ name ∈ listedNames.map Prod.fst, cs ≠ name.toList) :
    ofLowerName? cs = decimalArguments? cs >>= ofDecimalArguments? := by
  have hany : ∀ names ⊆ listedNames.map Prod.fst, ¬ names.any (·.toList == cs) = true := by
    intro names hnames h
    obtain ⟨name, hname, hcs⟩ := List.any_eq_true.1 h
    exact notListed name (hnames hname) (beq_iff_eq.1 hcs).symm
  rw [ofLowerName?, if_neg (hany _ (by decide)), if_neg (notListed _ (by decide)),
    if_neg (notListed _ (by decide)), if_neg (notListed _ (by decide)), if_neg (hany _ (by decide)),
    if_neg (hany _ (by decide)), if_neg (notListed _ (by decide))]

/-! ### All names -/

/-- No listed name goes on with a parenthesis. -/
theorem ofLowerName?_decimal (arguments : List Char) :
    ofLowerName? ("decimal(".toList ++ (arguments ++ [')'])) = ofDecimalArguments? arguments := by
  have notListed : ∀ name ∈ listedNames.map Prod.fst,
      "decimal(".toList ++ (arguments ++ [')']) ≠ name.toList := by
    intro name hname heq
    have hprefix : ∀ name ∈ listedNames.map Prod.fst,
        ("decimal(".toList.isPrefixOf name.toList) = false := by decide +kernel
    have hfalse := hprefix name hname
    rw [← heq, List.isPrefixOf_iff_prefix.2 (List.prefix_append _ _)] at hfalse
    cases hfalse
  rw [ofLowerName?_of_not_listed notListed, decimalArguments?_eq_some_iff.2 rfl]
  rfl

theorem ofList_decimal (arguments : List Char) :
    String.ofList ("decimal(".toList ++ (arguments ++ [')'])) =
      "decimal(" ++ String.ofList arguments ++ ")" := by
  rw [String.ofList_append, String.ofList_append, String.ofList_toList, String.append_assoc]

theorem ofList_comma (first second : List Char) :
    String.ofList (first ++ ',' :: second) =
      String.ofList first ++ "," ++ String.ofList second := by
  rw [List.append_cons, String.ofList_append, String.ofList_append]

/-- A name in lower case is read as the type that it stands for. -/
theorem ofLowerName?_eq_some_iff {name : String} {type : DataType} :
    ofLowerName? name.toList = some type ↔ Named name type := by
  constructor
  · intro h
    by_cases hlisted : ∃ entry ∈ listedNames, name.toList = entry.1.toList
    · obtain ⟨⟨listed, type'⟩, hmem, hname⟩ := hlisted
      obtain rfl := String.toList_inj.1 hname
      rw [ofLowerName?_of_listed hmem, Option.some.injEq] at h
      rw [← h]
      exact .listed hmem
    · have notListed : ∀ listed ∈ listedNames.map Prod.fst, name.toList ≠ listed.toList := by
        intro listed hmem hname
        obtain ⟨entry, hentry, rfl⟩ := List.mem_map.1 hmem
        exact hlisted ⟨entry, hentry, hname⟩
      rw [ofLowerName?_of_not_listed notListed] at h
      obtain ⟨arguments, harguments, htype⟩ := Option.bind_eq_some_iff.1 h
      rw [← String.ofList_toList (s := name), decimalArguments?_eq_some_iff.1 harguments,
        ofList_decimal]
      by_cases hcomma : ',' ∈ arguments
      · obtain ⟨first, second, rfl, noComma⟩ := List.eq_append_cons_of_mem hcomma
        obtain ⟨precision, scale, hfirst, hsecond, rfl⟩ :=
          (ofDecimalArguments?_append noComma).1 htype
        rw [ofList_comma]
        exact .scaled (by rwa [String.toList_ofList]) hfirst hsecond
      · obtain ⟨precision, hprecision, rfl⟩ := (ofDecimalArguments?_of_not_mem hcomma).1 htype
        exact .whole (by rwa [String.toList_ofList]) hprecision
  · intro named
    cases named with
    | listed listed => exact ofLowerName?_of_listed listed
    | whole noComma digits =>
      rw [String.toList_append, String.toList_append, List.append_assoc]
      refine (ofLowerName?_decimal _).trans ((ofDecimalArguments?_of_not_mem noComma).2 ?_)
      exact ⟨_, by rwa [String.ofList_toList], rfl⟩
    | @scaled first second precision scale noComma digits scaleDigits =>
      have hcut : (first ++ "," ++ second).toList = first.toList ++ ',' :: second.toList := by
        rw [String.toList_append, String.toList_append, List.append_cons]
        rfl
      rw [String.toList_append, String.toList_append, List.append_assoc, hcut]
      refine (ofLowerName?_decimal _).trans ((ofDecimalArguments?_append noComma).2 ?_)
      exact ⟨_, _, by rwa [String.ofList_toList], by rwa [String.ofList_toList], rfl⟩

theorem ofName_eq_ok_iff {s : String} {type : DataType} :
    ofName s = .ok type ↔ ofName? s = some type := by
  unfold ofName
  cases ofName? s with
  | none => simp
  | some type' => simp

theorem ofName?_eq_some_iff {s : String} {type : DataType} :
    ofName? s = some type ↔ Named (Text.lower (Text.trim s)) type := by
  have hlower : (Text.lower (Text.trim s)).toList =
      Text.lowerList [] (Text.trimList s.toList) := by
    rw [Text.lower, Text.trim, String.toList_ofList, String.toList_ofList]
  rw [← ofLowerName?_eq_some_iff, hlower, ofName?]

/-! ### White space and letter case -/

/-- The type that a text names depends neither on the case of its ASCII letters nor on white space
    around it. -/
theorem ofName?_around {before after s s' : String} (blank : before.toList.all Text.isBlank = true)
    (blank' : after.toList.all Text.isBlank = true) (same : Text.sameIgnoringCase s' s = true) :
    ofName? (before ++ s' ++ after) = ofName? s := by
  have hlower (cs : List Char) : Text.lowerList [] (Text.trimList (cs.map Char.toLower)) =
      Text.lowerList [] (Text.trimList cs) := by
    rw [Text.trimList_map, ← List.map_nil, Text.lowerList_map, List.map_nil]
  rw [ofName?, String.toList_append, String.toList_append, Text.trimList_around blank blank',
    ← hlower, ← Text.asciiFold, Text.sameIgnoringCase_iff.1 same, Text.asciiFold, hlower, ofName?]

/-! ### Written forms -/

theorem toList_toString (n : UInt8) : (toString n).toList = Nat.toDigits 10 n.toNat :=
  Nat.toList_repr

theorem all_isDigit_toString (n : UInt8) : (toString n).toList.all Char.isDigit = true := by
  rw [toList_toString, List.all_eq_true]
  exact fun c hc => Nat.isDigit_of_mem_toDigits (by decide) (by decide) hc

theorem isPlain_toString (n : UInt8) : (toString n).toList.all Text.isPlain = true := by
  rw [List.all_eq_true]
  intro c hc
  exact Text.isPlain_of_isDigit (List.all_eq_true.1 (all_isDigit_toString n) c hc)

theorem writesByte_toString (n : UInt8) : WritesByte (toString n) n := by
  refine ⟨"", toString n, ?_, .inl rfl, ?_, all_isDigit_toString n, ?_⟩
  · rw [Text.trim, Text.trimList_of_plain (isPlain_toString n), String.ofList_toList,
      String.empty_append]
  · rw [ne_eq, ← String.toList_eq_nil_iff, toList_toString]
    exact Nat.toDigits_ne_nil
  · rw [toList_toString, Nat.ofDigitChars_ten_toDigits]

theorem isPlain_render (type : DataType) : type.render.toList.all Text.isPlain = true := by
  cases type with
  | decimal precision scale =>
    simp only [render, String.toList_append, List.all_append, isPlain_toString, Bool.and_true]
    decide
  | _ => decide

/-- The written form of a type that is known is one of its names. -/
theorem named_render {type : DataType} (known : type ≠ .unknown) : Named type.render type := by
  cases type with
  | unknown => exact absurd rfl known
  | decimal precision scale =>
    have noComma : ',' ∉ (toString precision).toList := by
      intro hmem
      cases List.all_eq_true.1 (all_isDigit_toString precision) ',' hmem
    have named := Named.scaled noComma (writesByte_toString precision) (writesByte_toString scale)
    simpa only [render, String.append_assoc] using named
  | _ => exact .listed (by decide)

/-- A text stands for a type exactly if it names it without the white space around it and in lower
    case. Other texts are the error as they stand, no text stands for the unknown type, the written
    form of every other type stands for it, and neither white space around a text nor the case of
    its ASCII letters changes its type. -/
theorem ofName_reads (s : String) :
    (∀ type, ofName s = .ok type ↔ Named (Text.lower (Text.trim s)) type) ∧
    ((¬ ∃ type, Named (Text.lower (Text.trim s)) type) → ofName s = .error ⟨s⟩) ∧
    ofName s ≠ .ok .unknown ∧
    (∀ type, type ≠ .unknown → ofName type.render = .ok type) ∧
    ∀ (before after s' : String) (type : DataType), before.toList.all Text.isBlank = true →
      after.toList.all Text.isBlank = true → Text.sameIgnoringCase s' s = true →
      (ofName (before ++ s' ++ after) = .ok type ↔ ofName s = .ok type) := by
  refine ⟨fun type => ofName_eq_ok_iff.trans ofName?_eq_some_iff, ?_, ?_, ?_, ?_⟩
  · intro unnamed
    unfold ofName
    cases h : ofName? s with
    | none => rfl
    | some type => exact absurd ⟨type, ofName?_eq_some_iff.1 h⟩ unnamed
  · exact fun h => ne_unknown_of_ofName? (ofName_eq_ok_iff.1 h) rfl
  · intro type known
    rw [ofName_eq_ok_iff, ofName?_eq_some_iff, Text.lower_trim_of_plain (isPlain_render type)]
    exact named_render known
  · intro before after s' type blank blank' same
    rw [ofName_eq_ok_iff, ofName_eq_ok_iff, ofName?_around blank blank' same]

theorem ofName_reads_signed :
    ofName "\tDecimal( +12 , 3)\n" = .ok (.decimal 12 3) ∧
      ofName " Decimal(12, +-3)" = .error ⟨" Decimal(12, +-3)"⟩ ∧
      ofName "decimal(12,3)" = .ok (.decimal 12 3) := by
  obtain ⟨named, -, -, written, around⟩ := ofName_reads "decimal( +12 , 3)"
  obtain ⟨-, unnamed, -⟩ := ofName_reads " Decimal(12, +-3)"
  refine ⟨?_, ?_, written (.decimal 12 3) nofun⟩
  · refine (around "\t" "\n" "Decimal( +12 , 3)" _ (by decide) (by decide) (by decide)).2 ?_
    have lowered : Text.lower (Text.trim "decimal( +12 , 3)") =
        "decimal(" ++ (" +12 " ++ "," ++ " 3") ++ ")" := by decide +kernel
    rw [named, lowered]
    refine .scaled (by decide) ⟨"+", "12", by decide +kernel, .inr rfl, ?_⟩
      ⟨"", "3", by decide +kernel, .inl rfl, ?_⟩
    all_goals decide
  · refine unnamed ?_
    rintro ⟨type, hnamed⟩
    have none : ofName? " Decimal(12, +-3)" = none := by decide +kernel
    cases none.symm.trans (ofName?_eq_some_iff.2 hnamed)

end DataType

end SqlGuard
