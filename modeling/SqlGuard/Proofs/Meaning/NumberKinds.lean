import Mathlib.Data.List.Basic
import SqlGuard.Proofs.Meaning.Rules
import SqlGuard.Proofs.Token.Forms

/-!
# The kinds and types of numbers

What the suffix letters of a number make of it. The kind of a number follows its digits unless it
has a point and the suffix of an integer, which wins over the point; a sign never makes a
difference. Main statements: `NumberLiteral.isTyped_of_isNumber`,
`NumberLiteral.IsTyped.followsDigits_iff` and `NumberLiteral.ofText_negative`.
-/

namespace SqlGuard

/-- A number as a literal: its kind, and its text with the sign and the suffix. -/
structure NumberLiteral where
  kind : LiteralKind
  text : String
  deriving DecidableEq, Repr

namespace NumberLiteral

/-- The literal that a number with this text means. -/
def ofText (text : String) : NumberLiteral := ⟨.ofSuffix text, text⟩

/-- The type of the literal. -/
def type (n : NumberLiteral) : DataType := n.kind.type n.text

/-- Whether the number is written with a decimal point. -/
def hasPoint (n : NumberLiteral) : Bool := n.text.toList.contains '.'

/-- The letters at the end of the number, as small ones. -/
def suffix (n : NumberLiteral) : List Char :=
  (n.text.toList.reverse.takeWhile Char.isAlpha).reverse.map Char.toLower

/-- The kind and the type are those of the digits: a point makes a fractional number, whatever the
    suffix, and without a point only `BD` makes one and only `L` makes a wide integer. -/
structure FollowsDigits (n : NumberLiteral) : Prop where
  point : n.hasPoint = true →
    n.kind = .float ∧ (n.type = .double ∨ ∃ precision scale, n.type = .decimal precision scale)
  decimal : n.hasPoint = false → n.suffix = ['b', 'd'] →
    n.kind = .float ∧ ∃ precision scale, n.type = .decimal precision scale
  bigInt : n.hasPoint = false → n.suffix = ['l'] → n.kind = .int ∧ n.type = .bigInt
  int : n.hasPoint = false → n.suffix ≠ ['b', 'd'] → n.suffix ≠ ['l'] →
    n.kind = .int ∧ n.type = .int

/-- The number has a point and the suffix of an integer. -/
def IsMixed (n : NumberLiteral) : Prop :=
  n.hasPoint = true ∧ n.suffix ∈ [['l'], ['s'], ['y']]

instance (n : NumberLiteral) : Decidable n.IsMixed := inferInstanceAs (Decidable (_ ∧ _))

/-- The kind and the type by the suffix; without one, by the point. -/
inductive IsTyped (n : NumberLiteral) : Prop
  | plain (noSuffix : n.suffix = []) (kind : n.kind = if n.hasPoint then .float else .int)
      (type : n.type = if n.hasPoint then .double else .int)
  | bigInt (long : n.suffix = ['l']) (kind : n.kind = .int) (type : n.type = .bigInt)
  | int (short : n.suffix = ['s'] ∨ n.suffix = ['y']) (kind : n.kind = .int) (type : n.type = .int)
  | decimal (exact : n.suffix = ['b', 'd']) (kind : n.kind = .float)
      (type : ∃ precision scale, n.type = .decimal precision scale)

namespace IsTyped

variable {n : NumberLiteral}

/-- Only the suffix of an integer behind a point leaves the digits. -/
theorem followsDigits_iff (h : n.IsTyped) : n.FollowsDigits ↔ ¬ n.IsMixed := by
  constructor
  · intro follows mixed
    obtain ⟨hpoint, hsuffix⟩ := mixed
    have hkind := (follows.point hpoint).1
    cases h with
    | plain noSuffix => exact absurd hsuffix (by rw [noSuffix]; decide)
    | bigInt long kind => cases kind.symm.trans hkind
    | int short kind => cases kind.symm.trans hkind
    | decimal exact => exact absurd hsuffix (by rw [exact]; decide)
  · intro notMixed
    have noPoint : n.suffix ∈ [['l'], ['s'], ['y']] → n.hasPoint = false :=
      fun hsuffix => Bool.eq_false_iff.2 fun hpoint => notMixed ⟨hpoint, hsuffix⟩
    cases h with
    | plain noSuffix kind type =>
      refine ⟨fun hpoint => ?_, fun _ hsuffix => ?_, fun _ hsuffix => ?_, fun hpoint _ _ => ?_⟩
      · rw [if_pos hpoint] at kind type
        exact ⟨kind, .inl type⟩
      · cases noSuffix.symm.trans hsuffix
      · cases noSuffix.symm.trans hsuffix
      · rw [hpoint] at kind type
        exact ⟨kind, type⟩
    | bigInt long kind type =>
      have hpoint := noPoint (by rw [long]; decide)
      refine ⟨fun h => ?_, fun _ h => ?_, fun _ _ => ⟨kind, type⟩, fun _ _ h => absurd long h⟩
      · cases hpoint.symm.trans h
      · cases long.symm.trans h
    | int short kind type =>
      have hpoint := noPoint (by rcases short with h | h <;> rw [h] <;> decide)
      refine ⟨fun h => ?_, fun _ h => ?_, fun _ h => ?_, fun _ _ _ => ⟨kind, type⟩⟩
      · cases hpoint.symm.trans h
      · rcases short with short | short <;> cases short.symm.trans h
      · rcases short with short | short <;> cases short.symm.trans h
    | decimal exact kind type =>
      refine ⟨fun _ => ⟨kind, .inr type⟩, fun _ _ => ⟨kind, type⟩, fun _ h => ?_,
        fun _ h => absurd exact h⟩
      cases exact.symm.trans h

/-- Behind a point the suffix of an integer still makes an integer. -/
theorem of_isMixed (h : n.IsTyped) (mixed : n.IsMixed) :
    n.kind = .int ∧ n.type = if n.suffix = ['l'] then .bigInt else .int := by
  obtain ⟨-, hsuffix⟩ := mixed
  cases h with
  | plain noSuffix => exact absurd hsuffix (by rw [noSuffix]; decide)
  | bigInt long kind type => exact ⟨kind, by rw [if_pos long, type]⟩
  | int short kind type =>
    refine ⟨kind, ?_⟩
    rw [if_neg (by rcases short with h | h <;> rw [h] <;> decide), type]
  | decimal exact => exact absurd hsuffix (by rw [exact]; decide)

end IsTyped

/-! ### Texts of numbers -/

/-- A text that ends with a digit and a suffix behind it. -/
structure HasForm (text : String) (before : List Char) (digit : Char) (letters : List Char) :
    Prop where
  text : text.toList = before ++ digit :: letters
  digit : digit.isDigit = true
  suffix : Token.IsSuffix letters

/-- A number ends with a digit and its suffix, and a sign stands before that. -/
theorem exists_hasForm {text : String} (h : Token.IsNumber text) :
    ∃ before digit letters, HasForm text before digit letters ∧
      HasForm ("-" ++ text) ('-' :: before) digit letters := by
  obtain ⟨digits, fraction, letters, htext, hne, hdigits, hfraction, hsuffix⟩ := h
  have hlast : ∃ before digit, digits ++ fraction = before ++ [digit] ∧ digit.isDigit = true := by
    have hends : ∀ ds : List Char, ds ≠ [] → ds.all Char.isDigit = true →
        ∃ before digit, ds = before ++ [digit] ∧ digit.isDigit = true := by
      intro ds hne hall
      obtain rfl | ⟨before, digit, rfl⟩ := List.eq_nil_or_concat' ds
      · exact absurd rfl hne
      · exact ⟨before, digit, rfl, List.all_eq_true.1 hall _ (by simp)⟩
    rcases hfraction with rfl | ⟨ds, rfl, hds, hall⟩
    · rw [List.append_nil]
      exact hends digits hne hdigits
    · obtain ⟨before, digit, rfl, hdigit⟩ := hends ds hds hall
      exact ⟨digits ++ '.' :: before, digit, by simp, hdigit⟩
  obtain ⟨before, digit, hbody, hdigit⟩ := hlast
  have hform : text.toList = before ++ digit :: letters := by
    rw [htext, hbody, List.append_assoc]
    rfl
  refine ⟨before, digit, letters, ⟨hform, hdigit, hsuffix⟩, ⟨?_, hdigit, hsuffix⟩⟩
  rw [String.toList_append, hform]
  rfl

/-! ### Letters -/

section Letters

variable {c d : Char}

theorem suffixLetter_of_toLower (h : c.toLower = d) (hd : d ∈ ['l', 's', 'y', 'b', 'd']) :
    Grammar.suffixLetter c = d := by
  unfold Grammar.suffixLetter
  split
  · rename_i hc
    rcases hc with rfl | rfl <;> exact absurd (h ▸ hd) (by decide)
  split
  · rename_i hc
    rcases hc with rfl | rfl <;> exact absurd (h ▸ hd) (by decide)
  · exact h

theorem suffixLetter_of_isDigit (h : c.isDigit = true) : Grammar.suffixLetter c = c := by
  have hrange := Token.toNat_of_isDigit h
  have hupper : c.isUpper = false := by
    rw [Bool.eq_false_iff, ne_eq, Token.isUpper_iff_toNat]
    omega
  unfold Grammar.suffixLetter
  split
  · rename_i hc
    rcases hc with rfl | rfl <;> cases h
  split
  · rename_i hc
    rcases hc with rfl | rfl <;> cases h
  · exact Token.toLower_eq_self hupper

theorem not_isAlpha_of_isDigit (h : c.isDigit = true) : c.isAlpha = false := by
  have hrange := Token.toNat_of_isDigit h
  have halpha : c.isAlpha = (c.isUpper || c.isLower) := rfl
  rw [Bool.eq_false_iff, ne_eq, halpha, Bool.or_eq_true, Token.isUpper_iff_toNat,
    Token.isLower_iff_toNat]
  omega

end Letters

/-! ### What a form makes of a number -/

namespace HasForm

variable {text : String} {before letters : List Char} {digit : Char}

theorem reverse_toList (h : HasForm text before digit letters) :
    text.toList.reverse = letters.reverse ++ digit :: before.reverse := by
  rw [h.text]
  simp

theorem toLower_mem (h : HasForm text before digit letters) {c : Char} (hc : c ∈ letters) :
    c.toLower ∈ ['l', 's', 'y', 'b', 'd'] := by
  rcases Token.isSuffix_iff.1 h.suffix with rfl | ⟨d, rfl, hd⟩ | ⟨b, d, rfl, hb, hd⟩
  · cases hc
  · rw [List.mem_singleton.1 hc]
    rcases Token.isIntSuffix_iff.1 hd with hd | hd | hd <;> simp [hd]
  · rcases List.mem_pair.1 hc with rfl | rfl
    · simp [hb]
    · simp [hd]

theorem suffix_ofText (h : HasForm text before digit letters) :
    (ofText text).suffix = letters.map Char.toLower := by
  have halpha : letters.reverse.all Char.isAlpha = true := by
    rw [List.all_reverse, List.all_eq_true]
    intro c hc
    have hletters : ['l', 's', 'y', 'b', 'd'].all Char.isAlpha = true := by decide
    exact Token.isAlpha_of_toLower rfl (List.all_eq_true.1 hletters _ (h.toLower_mem hc))
  have stops : Token.StopsAt Char.isAlpha (digit :: before.reverse) := by
    rintro c ⟨⟩
    exact not_isAlpha_of_isDigit h.digit
  rw [NumberLiteral.suffix, ofText, h.reverse_toList, Token.takeWhile_of_stopsAt halpha stops,
    List.reverse_reverse]

theorem hasPoint_ofText (h : HasForm text before digit letters) :
    (ofText text).hasPoint = before.contains '.' := by
  have hdigit : digit ≠ '.' := by
    rintro rfl
    cases h.digit
  have hletters : '.' ∉ letters := fun hmem => absurd (h.toLower_mem hmem) (by decide)
  rw [hasPoint, ofText, h.text]
  simp [hletters, hdigit.symm]

/-- The kind by the suffix; without one the point decides. -/
theorem kind_ofText (h : HasForm text before digit letters) :
    (ofText text).kind =
      if letters = [] then if (ofText text).hasPoint then .float else .int
      else if letters.map Char.toLower = ['b', 'd'] then .float else .int := by
  have hreverse := h.reverse_toList
  have hnumber : LiteralKind.ofNumber text = if (ofText text).hasPoint then .float else .int := by
    simp [LiteralKind.ofNumber, hasPoint, ofText]
  show LiteralKind.ofSuffix text = _
  rw [LiteralKind.ofSuffix, hreverse]
  rcases Token.isSuffix_iff.1 h.suffix with rfl | ⟨c, rfl, hc⟩ | ⟨b, d, rfl, hb, hd⟩
  · have hdigit : ∀ c ∈ ['d', 'l', 's', 'y'], digit ≠ c := by
      rintro c hc rfl
      have hletters : ['d', 'l', 's', 'y'].all (!Char.isDigit ·) = true := by decide
      have := List.all_eq_true.1 hletters _ hc
      simp [h.digit] at this
    rw [List.reverse_nil, List.nil_append, List.map_cons, suffixLetter_of_isDigit h.digit]
    split
    case h_5 => exact hnumber
    -- no suffix starts with a digit
    all_goals
      rename_i heq
      exact absurd (List.cons.inj heq).1 (hdigit _ (by decide))
  · have hint : [c].map Char.toLower ≠ ['b', 'd'] := by simp
    rw [List.reverse_singleton, List.singleton_append, List.map_cons, if_neg (List.cons_ne_nil c []),
      if_neg hint]
    rcases Token.isIntSuffix_iff.1 hc with hc | hc | hc <;>
      rw [suffixLetter_of_toLower hc (by decide)] <;> rfl
  · have hdecimal : [b, d].map Char.toLower = ['b', 'd'] := by simp [hb, hd]
    rw [List.reverse_cons, List.reverse_singleton, List.singleton_append, List.cons_append,
      List.singleton_append, List.map_cons, List.map_cons, suffixLetter_of_toLower hb (by decide),
      suffixLetter_of_toLower hd (by decide), if_neg (List.cons_ne_nil b [d]), if_pos hdecimal]
    rfl

theorem digit_toLower (h : HasForm text before digit letters) {c : Char}
    (hc : c.isDigit = false) : digit.toLower ≠ c := by
  intro hlower
  have := Token.not_isDigit_of_toLower hlower hc
  rw [h.digit] at this
  cases this

/-- An integer is wide by its suffix alone. -/
theorem type_int (h : HasForm text before digit letters) :
    LiteralKind.int.type text = if letters.map Char.toLower = ['l'] then .bigInt else .int := by
  have hlast : text.toList.getLast? = (letters.reverse ++ digit :: before.reverse).head? := by
    rw [List.getLast?_eq_head?_reverse, h.reverse_toList]
  rw [LiteralKind.type, hlast]
  rcases Token.isSuffix_iff.1 h.suffix with rfl | ⟨c, rfl, -⟩ | ⟨b, d, rfl, -, hd⟩
  · simp [h.digit_toLower (c := 'l') rfl]
  · simp
  · simp [hd]

/-- A fractional number is a decimal by its suffix alone. -/
theorem type_float (h : HasForm text before digit letters) :
    LiteralKind.float.type text =
      if letters.map Char.toLower = ['b', 'd'] then decimalType (before ++ [digit])
      else .double := by
  rw [LiteralKind.type, decimalLiteralType?, h.reverse_toList]
  rcases Token.isSuffix_iff.1 h.suffix with rfl | ⟨c, rfl, -⟩ | ⟨b, d, rfl, hb, hd⟩
  · cases before.reverse <;> simp [h.digit_toLower (c := 'd') rfl]
  · simp [h.digit_toLower (c := 'b') rfl]
  · simp [hb, hd]

theorem isTyped_ofText (h : HasForm text before digit letters) : (ofText text).IsTyped := by
  have hkind := h.kind_ofText
  have hsuffix := h.suffix_ofText
  have htype : (ofText text).type = (ofText text).kind.type text := rfl
  rcases Token.isSuffix_iff.1 h.suffix with rfl | ⟨c, rfl, hc⟩ | ⟨b, d, rfl, hb, hd⟩
  · rw [if_pos rfl] at hkind
    refine .plain hsuffix hkind ?_
    rw [htype, hkind]
    cases (ofText text).hasPoint with
    | true => exact h.type_float
    | false => exact h.type_int
  · rw [if_neg (List.cons_ne_nil c []), if_neg (by simp)] at hkind
    rw [hkind, h.type_int] at htype
    rw [List.map_singleton] at hsuffix htype
    rcases Token.isIntSuffix_iff.1 hc with hc | hc | hc <;> rw [hc] at hsuffix htype
    · exact .bigInt hsuffix hkind htype
    · exact .int (.inl hsuffix) hkind htype
    · exact .int (.inr hsuffix) hkind htype
  · have hdecimal : [b, d].map Char.toLower = ['b', 'd'] := by simp [hb, hd]
    rw [if_neg (List.cons_ne_nil b [d]), if_pos hdecimal] at hkind
    rw [hkind, h.type_float, if_pos hdecimal] at htype
    exact .decimal (hsuffix.trans hdecimal) hkind ⟨_, _, htype⟩

end HasForm

/-- A number has its kind and type by its letters and its point, with a sign or without. -/
theorem isTyped_of_isNumber {text : String} (h : Token.IsNumber text) :
    (ofText text).IsTyped ∧ (ofText ("-" ++ text)).IsTyped := by
  obtain ⟨before, digit, letters, unsigned, signed⟩ := exists_hasForm h
  exact ⟨unsigned.isTyped_ofText, signed.isTyped_ofText⟩

/-- A sign is no digit of a decimal. -/
theorem decimalType_negative (number : List Char) :
    decimalType ('-' :: number) = decimalType number := by
  simp [decimalType]

/-- A sign makes no difference to the kind and the type of a number. -/
theorem ofText_negative {text : String} (h : Token.IsNumber text) :
    (ofText ("-" ++ text)).kind = (ofText text).kind ∧
      (ofText ("-" ++ text)).type = (ofText text).type := by
  obtain ⟨before, digit, letters, unsigned, signed⟩ := exists_hasForm h
  have hpoint : (ofText ("-" ++ text)).hasPoint = (ofText text).hasPoint := by
    rw [unsigned.hasPoint_ofText, signed.hasPoint_ofText]
    simp
  have hkind : (ofText ("-" ++ text)).kind = (ofText text).kind := by
    rw [unsigned.kind_ofText, signed.kind_ofText, hpoint]
  refine ⟨hkind, ?_⟩
  show (ofText ("-" ++ text)).kind.type ("-" ++ text) = (ofText text).kind.type text
  rw [hkind]
  cases (ofText text).kind with
  | int => rw [unsigned.type_int, signed.type_int]
  | float =>
    rw [unsigned.type_float, signed.type_float, List.cons_append, decimalType_negative]
  | string => rfl

end NumberLiteral

end SqlGuard
