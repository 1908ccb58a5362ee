import SqlGuard.Token.Scan

/-!
# The forms of words, numbers and strings

What a name, a number or a string looks like where it is written without backticks, apart from how
it is scanned, and that such a text is scanned as one token. Main statements: `scan_word`,
`scan_number` and `scan_string`.
-/

namespace SqlGuard

namespace Token

/-- Whether a name can be written without backticks: it starts with a letter or an underscore, goes
    on with letters, digits and underscores, and is no keyword. -/
def isPlainName (name : String) : Bool :=
  match name.toList with
  | [] => false
  | c :: cs => isWordStart c && cs.all isWordChar && (Keyword.ofWord? (c :: cs)).isNone

/-- The part of a number behind its digits: nothing, or a point and more digits. -/
def IsFraction (cs : List Char) : Prop :=
  cs = [] ∨ ∃ ds, cs = '.' :: ds ∧ ds ≠ [] ∧ ds.all Char.isDigit = true

/-- The suffix that gives a number its type: none, or `L`, `S`, `Y` or `BD` in any letter case. -/
def IsSuffix (cs : List Char) : Prop :=
  cs.map Char.toLower ∈ [[], ['l'], ['s'], ['y'], ['b', 'd']]

/-- The text of a number without a sign: digits, an optional fraction and an optional suffix. -/
def IsNumber (text : String) : Prop :=
  ∃ digits fraction suffix, text.toList = digits ++ fraction ++ suffix ∧ digits ≠ [] ∧
    digits.all Char.isDigit = true ∧ IsFraction fraction ∧ IsSuffix suffix

/-- Text between quotes, in which the quote stands behind a backslash only, and a backslash before
    another character only. -/
inductive IsEscaped (quote : Char) : List Char → Prop
  | nil : IsEscaped quote []
  | char {c : Char} {cs : List Char} (noQuote : c ≠ quote) (noSlash : c ≠ '\x5c')
      (rest : IsEscaped quote cs) : IsEscaped quote (c :: cs)
  | escape (c : Char) {cs : List Char} (rest : IsEscaped quote cs) :
      IsEscaped quote ('\x5c' :: c :: cs)

/-- The text of a string: single or double quotes around escaped text. -/
def IsQuoted (text : String) : Prop :=
  ∃ quote body, (quote = '\x27' ∨ quote = '\x22') ∧ IsEscaped quote body ∧
    text.toList = quote :: (body ++ [quote])

/-! ### Characters -/

theorem not_isBlank {c : Char} (low : 32 < c.toNat) (high : c.toNat < 127) :
    Text.isBlank c = false := by
  simp only [Text.isBlank, Text.inRanges, Text.blankRanges, List.any_cons, List.any_nil,
    Bool.or_false, Bool.or_eq_false_iff, Bool.and_eq_false_iff, decide_eq_false_iff_not]
  omega

theorem isUpper_iff_toNat {c : Char} : c.isUpper = true ↔ 65 ≤ c.toNat ∧ c.toNat ≤ 90 := by
  have hupper : c.isUpper = decide (65 ≤ c.val ∧ c.val ≤ 90) := rfl
  rw [hupper, decide_eq_true_iff, UInt32.le_iff_toNat_le, UInt32.le_iff_toNat_le]
  rfl

theorem isLower_iff_toNat {c : Char} : c.isLower = true ↔ 97 ≤ c.toNat ∧ c.toNat ≤ 122 := by
  have hlower : c.isLower = (decide (97 ≤ c.val) && decide (c.val ≤ 122)) := rfl
  rw [hlower, Bool.and_eq_true, decide_eq_true_iff, decide_eq_true_iff, UInt32.le_iff_toNat_le,
    UInt32.le_iff_toNat_le]
  rfl

theorem toNat_of_isWordStart {c : Char} (h : isWordStart c = true) :
    (65 ≤ c.toNat ∧ c.toNat ≤ 90) ∨ c.toNat = 95 ∨ (97 ≤ c.toNat ∧ c.toNat ≤ 122) := by
  have halpha : c.isAlpha = (c.isUpper || c.isLower) := rfl
  rw [isWordStart, halpha, Bool.or_eq_true, Bool.or_eq_true, isUpper_iff_toNat, isLower_iff_toNat,
    beq_iff_eq] at h
  rcases h with (h | h) | rfl
  · exact .inl h
  · exact .inr (.inr h)
  · exact .inr (.inl rfl)

theorem toNat_of_isDigit {c : Char} (h : c.isDigit = true) : 48 ≤ c.toNat ∧ c.toNat ≤ 57 :=
  Char.isDigit_iff_toNat.1 h

/-! ### One token at the front of a text -/

theorem scan_nil : scan [] = .ok [.eof] := by
  rw [scan]
  rfl

theorem scan_blank {c : Char} {cs : List Char} (h : Text.isBlank c = true) :
    scan (c :: cs) = scan cs := by
  rw [scan, scan, List.dropWhile_cons_of_pos h]

theorem scan_cons {c : Char} {cs rest : List Char} {t : Token} (h : Text.isBlank c = false)
    (ht : scanToken c cs = .ok (t, rest)) : scan (c :: cs) = (scan rest).map (t :: ·) := by
  have hdrop : (c :: cs).dropWhile Text.isBlank = c :: cs := by
    rw [List.dropWhile_cons_of_neg (by simp [h])]
  rw [scan]
  split
  · rename_i hnil
    rw [hdrop] at hnil
    cases hnil
  · rename_i c' cs' hcons
    rw [hdrop] at hcons
    cases hcons
    split
    · rename_i herr
      rw [ht] at herr
      cases herr
    · rename_i hok
      rw [ht] at hok
      cases hok
      rfl

/-- The characters start with none that satisfies the condition. -/
def StopsAt (p : Char → Bool) (rest : List Char) : Prop :=
  ∀ c, rest.head? = some c → p c = false

theorem stopsAt_dropWhile (p : Char → Bool) (cs : List Char) : StopsAt p (cs.dropWhile p) := by
  intro c hc
  have hhead := List.head?_dropWhile_not p cs
  rw [hc] at hhead
  simpa using hhead

theorem stopsAt_iff_takeWhile {p : Char → Bool} {cs : List Char} :
    StopsAt p cs ↔ cs.takeWhile p = [] := by
  cases cs with
  | nil => simp [StopsAt]
  | cons c cs => simp [StopsAt, List.takeWhile_cons]

theorem takeWhile_of_stopsAt {p : Char → Bool} {cs rest : List Char} (h : cs.all p = true)
    (stops : StopsAt p rest) : (cs ++ rest).takeWhile p = cs := by
  rw [List.takeWhile_append_of_pos (List.all_eq_true.1 h), stopsAt_iff_takeWhile.1 stops,
    List.append_nil]

theorem dropWhile_of_stopsAt {p : Char → Bool} {cs rest : List Char} (h : cs.all p = true)
    (stops : StopsAt p rest) : (cs ++ rest).dropWhile p = rest := by
  have hrest : rest.dropWhile p = rest := by
    cases rest with
    | nil => rfl
    | cons c rest => rw [List.dropWhile_cons_of_neg (by simp [stops c rfl])]
  rw [List.dropWhile_append_of_pos (List.all_eq_true.1 h), hrest]

theorem isWordChar_of_isWordStart {c : Char} (h : isWordStart c = true) : isWordChar c = true := by
  simp only [isWordStart, isWordChar, Char.isAlphanum, Bool.or_eq_true] at h ⊢
  rcases h with h | h
  · exact .inl (.inl h)
  · exact .inr h

theorem not_isBlank_of_isWordStart {c : Char} (h : isWordStart c = true) :
    Text.isBlank c = false := by
  have hrange := toNat_of_isWordStart h
  exact not_isBlank (by omega) (by omega)

/-- A letter or an underscore starts a word, as far as its characters go. -/
theorem scanToken_of_isWordStart {c : Char} (start : isWordStart c = true) (cs : List Char) :
    scanToken c cs =
      .ok (ofWord ((c :: cs).takeWhile isWordChar), (c :: cs).dropWhile isWordChar) := by
  have hrange := toNat_of_isWordStart start
  have hquote : ¬ (c = '\x27' ∨ c = '\x22') := by
    rintro (rfl | rfl) <;> simp at hrange
  have hbacktick : c ≠ '\x60' := by
    rintro rfl
    simp at hrange
  have hdigit : ¬ c.isDigit = true := by
    intro h
    have := toNat_of_isDigit h
    omega
  rw [scanToken, if_neg hquote, if_neg hbacktick, if_neg hdigit, if_pos start]

/-- A word is scanned as the keyword or the name that it is. -/
theorem scan_word {c : Char} {cs rest : List Char} (start : isWordStart c = true)
    (more : cs.all isWordChar = true) (stops : StopsAt isWordChar rest) :
    scan (c :: cs ++ rest) = (scan rest).map (ofWord (c :: cs) :: ·) := by
  have hall : (c :: cs).all isWordChar = true := by
    simp [isWordChar_of_isWordStart start, more]
  show scan (c :: (cs ++ rest)) = _
  apply scan_cons (not_isBlank_of_isWordStart start)
  rw [scanToken_of_isWordStart start, ← List.cons_append, takeWhile_of_stopsAt hall stops,
    dropWhile_of_stopsAt hall stops]

/-- A plain name is scanned as itself. -/
theorem scan_name {name : String} {rest : List Char} (plain : isPlainName name = true)
    (stops : StopsAt isWordChar rest) :
    scan (name.toList ++ rest) = (scan rest).map (.ident name :: ·) := by
  unfold isPlainName at plain
  cases hname : name.toList with
  | nil => simp [hname] at plain
  | cons c cs =>
    simp only [hname, Bool.and_eq_true, Option.isNone_iff_eq_none] at plain
    obtain ⟨⟨start, more⟩, noKeyword⟩ := plain
    have hword : ofWord (c :: cs) = .ident name := by
      rw [ofWord, noKeyword, ← hname, String.ofList_toList]
    rw [scan_word start more stops, hword]

/-! ### Numbers -/

/-- Whether a character may go on a number: it can stand in a word, or is a point. -/
def isNumberChar (c : Char) : Bool := isWordChar c || c == '.'

theorem toLower_eq_self {c : Char} (h : c.isUpper = false) : c.toLower = c := by
  have hupper : c.isUpper = decide (65 ≤ c.val ∧ c.val ≤ 90) := rfl
  rw [hupper, decide_eq_false_iff_not] at h
  exact dif_neg h

theorem not_isDigit_of_toLower {c d : Char} (h : c.toLower = d) (hd : d.isDigit = false) :
    c.isDigit = false := by
  cases hupper : c.isUpper with
  | false => rw [← toLower_eq_self hupper, h, hd]
  | true =>
    cases hc : c.isDigit with
    | false => rfl
    | true =>
      have hrange := toNat_of_isDigit hc
      have hletter := isUpper_iff_toNat.1 hupper
      omega

theorem isWordChar_of_toLower {c d : Char} (h : c.toLower = d) (hd : isWordChar d = true) :
    isWordChar c = true := by
  cases hupper : c.isUpper with
  | false => rw [← toLower_eq_self hupper, h, hd]
  | true =>
    have halpha : c.isAlpha = true := Bool.or_eq_true_iff.2 (.inl hupper)
    simp [isWordChar, Char.isAlphanum, halpha]

theorem isAlpha_of_toLower {c d : Char} (h : c.toLower = d) (hd : d.isAlpha = true) :
    c.isAlpha = true := by
  cases hupper : c.isUpper with
  | false => rw [← toLower_eq_self hupper, h, hd]
  | true => exact Bool.or_eq_true_iff.2 (.inl hupper)

theorem ne_point_of_toLower {c d : Char} (h : c.toLower = d) (hd : d ≠ '.') : c ≠ '.' := by
  rintro rfl
  exact hd h.symm

/-- A suffix is empty, a letter for an integer type, or `BD`. -/
theorem isSuffix_iff {cs : List Char} :
    IsSuffix cs ↔ cs = [] ∨ (∃ c, cs = [c] ∧ isIntSuffix c = true) ∨
      ∃ b d, cs = [b, d] ∧ b.toLower = 'b' ∧ d.toLower = 'd' := by
  unfold IsSuffix isIntSuffix
  match cs with
  | [] => simp
  | [c] => simp
  | [b, d] => simp [and_assoc]
  | _ :: _ :: _ :: _ => simp

theorem isIntSuffix_iff {c : Char} :
    isIntSuffix c = true ↔ c.toLower = 'l' ∨ c.toLower = 's' ∨ c.toLower = 'y' := by
  simp [isIntSuffix]

theorem isWordChar_of_isIntSuffix {c : Char} (h : isIntSuffix c = true) : isWordChar c = true := by
  rcases isIntSuffix_iff.1 h with h | h | h
  · exact isWordChar_of_toLower h (by decide)
  · exact isWordChar_of_toLower h (by decide)
  · exact isWordChar_of_toLower h (by decide)

/-- Behind a number there is no digit and no point. -/
theorem stopsAt_suffix {suffix rest : List Char} (h : IsSuffix suffix)
    (stops : StopsAt isNumberChar rest) :
    StopsAt (fun c => c.isDigit || c == '.') (suffix ++ rest) := by
  intro c hc
  rcases isSuffix_iff.1 h with rfl | ⟨d, rfl, hd⟩ | ⟨b, d, rfl, hb, hd⟩
  · have := stops c hc
    simp only [isNumberChar, isWordChar, Char.isAlphanum, Bool.or_eq_false_iff] at this ⊢
    exact ⟨this.1.1.2, this.2⟩
  · cases hc
    rw [Bool.or_eq_false_iff, beq_eq_false_iff_ne]
    rcases isIntSuffix_iff.1 hd with hd | hd | hd
    · exact ⟨not_isDigit_of_toLower hd rfl, ne_point_of_toLower hd (by decide)⟩
    · exact ⟨not_isDigit_of_toLower hd rfl, ne_point_of_toLower hd (by decide)⟩
    · exact ⟨not_isDigit_of_toLower hd rfl, ne_point_of_toLower hd (by decide)⟩
  · cases hc
    rw [Bool.or_eq_false_iff, beq_eq_false_iff_ne]
    exact ⟨not_isDigit_of_toLower hb rfl, ne_point_of_toLower hb (by decide)⟩

/-- A suffix behind which no word goes on is taken as a whole. -/
theorem scanSuffix_of_isSuffix {suffix rest : List Char} (h : IsSuffix suffix)
    (stops : StopsAt isWordChar rest) : scanSuffix (suffix ++ rest) = (suffix, rest) := by
  rcases isSuffix_iff.1 h with rfl | ⟨c, rfl, hc⟩ | ⟨b, d, rfl, hb, hd⟩
  · cases rest with
    | nil => rfl
    | cons c rest =>
      have hc := stops c rfl
      have hdecimal : startsDecimalSuffix (c :: rest) = false := by
        cases rest with
        | nil => rfl
        | cons d rest =>
          rw [startsDecimalSuffix, Bool.and_eq_false_iff, beq_eq_false_iff_ne]
          left
          intro hb
          rw [isWordChar_of_toLower hb (by decide)] at hc
          cases hc
      have hint : isIntSuffix c = false := by
        rw [Bool.eq_false_iff]
        intro hint
        rw [isWordChar_of_isIntSuffix hint] at hc
        cases hc
      simp [scanSuffix, hdecimal, hint]
  · have hnext : rest.head?.any isWordChar = false := by
      cases rest with
      | nil => rfl
      | cons d rest => simpa using stops d rfl
    have hdecimal : startsDecimalSuffix (c :: rest) = false := by
      cases rest with
      | nil => rfl
      | cons d rest =>
        rw [startsDecimalSuffix, Bool.and_eq_false_iff, beq_eq_false_iff_ne]
        left
        intro hb
        simp [isIntSuffix, hb] at hc
    simp [scanSuffix, hdecimal, hc, hnext]
  · simp [scanSuffix, startsDecimalSuffix, hb, hd]

theorem scanFraction_of_isFraction {fraction rest : List Char} (h : IsFraction fraction)
    (stops : StopsAt (fun c => c.isDigit || c == '.') rest) :
    scanFraction (fraction ++ rest) = (fraction, rest) := by
  have hdigit : StopsAt Char.isDigit rest := fun c hc => (Bool.or_eq_false_iff.1 (stops c hc)).1
  rcases h with rfl | ⟨ds, rfl, hne, hall⟩
  · cases rest with
    | nil => rfl
    | cons c rest =>
      have hpoint : c ≠ '.' := by
        have := (Bool.or_eq_false_iff.1 (stops c rfl)).2
        simpa using this
      rw [List.nil_append, scanFraction]
      intro d ds heq
      exact hpoint (List.cons.inj heq).1
  · cases ds with
    | nil => exact absurd rfl hne
    | cons d ds =>
      have hd : d.isDigit = true := (List.all_eq_true.1 hall) d List.mem_cons_self
      have htake := takeWhile_of_stopsAt hall hdigit
      have hdrop := dropWhile_of_stopsAt hall hdigit
      rw [List.cons_append] at htake hdrop
      simp only [List.cons_append, scanFraction, hd, if_true, htake, hdrop]

/-- A digit starts a number. -/
theorem scanToken_of_isDigit {c : Char} (hdigit : c.isDigit = true) (cs : List Char) :
    scanToken c cs =
      .ok (.number (String.ofList (scanNumber (c :: cs)).1), (scanNumber (c :: cs)).2) := by
  have hrange := toNat_of_isDigit hdigit
  have hquote : ¬ (c = '\x27' ∨ c = '\x22') := by
    rintro (rfl | rfl) <;> simp at hrange
  have hbacktick : c ≠ '\x60' := by
    rintro rfl
    simp at hrange
  rw [scanToken, if_neg hquote, if_neg hbacktick, if_pos hdigit]

/-- A number is scanned as itself. -/
theorem scan_number {text : String} {rest : List Char} (number : IsNumber text)
    (stops : StopsAt isNumberChar rest) :
    scan (text.toList ++ rest) = (scan rest).map (.number text :: ·) := by
  obtain ⟨digits, fraction, suffix, htext, hne, hdigits, hfraction, hsuffix⟩ := number
  have hbehind := stopsAt_suffix hsuffix stops
  have hword : StopsAt isWordChar rest := fun c hc => (Bool.or_eq_false_iff.1 (stops c hc)).1
  have hdigit : StopsAt Char.isDigit (fraction ++ (suffix ++ rest)) := by
    rcases hfraction with rfl | ⟨ds, rfl, -⟩
    · exact fun c hc => (Bool.or_eq_false_iff.1 (hbehind c hc)).1
    · intro c hc
      cases hc
      rfl
  have hscan : scanNumber (text.toList ++ rest) = (text.toList, rest) := by
    rw [htext, List.append_assoc, List.append_assoc, scanNumber,
      takeWhile_of_stopsAt hdigits hdigit, dropWhile_of_stopsAt hdigits hdigit,
      scanFraction_of_isFraction hfraction hbehind]
    simp only [scanSuffix_of_isSuffix hsuffix hword]
  cases digits with
  | nil => exact absurd rfl hne
  | cons c digits =>
    have hc : c.isDigit = true := List.all_eq_true.1 hdigits c List.mem_cons_self
    have hrange := toNat_of_isDigit hc
    have htext' : text.toList ++ rest = c :: (digits ++ fraction ++ suffix ++ rest) := by
      rw [htext]
      rfl
    rw [htext'] at hscan ⊢
    apply scan_cons (not_isBlank (by omega) (by omega))
    rw [scanToken_of_isDigit hc, hscan, String.ofList_toList]

/-! ### Strings and marks -/

theorem scanQuoted_of_isEscaped {quote : Char} {body rest : List Char} (slash : quote ≠ '\x5c')
    (h : IsEscaped quote body) :
    scanQuoted quote (body ++ quote :: rest) = some (body ++ [quote], rest) := by
  induction h with
  | nil =>
    rw [List.nil_append, scanQuoted, if_neg slash, if_pos rfl, List.nil_append]
    intro c cs hquote
    exact absurd hquote slash
  | @char c cs noQuote noSlash _ ih =>
    rw [List.cons_append, scanQuoted, if_neg noSlash, if_neg noQuote, ih]
    · rfl
    · intro d ds hc
      exact absurd hc noSlash
  | escape c _ ih =>
    rw [List.cons_append, List.cons_append, scanQuoted, ih]
    rfl

/-- A string is scanned as itself. -/
theorem scan_string {text : String} {rest : List Char} (quoted : IsQuoted text) :
    scan (text.toList ++ rest) = (scan rest).map (.string text :: ·) := by
  obtain ⟨quote, body, hquote, escaped, htext⟩ := quoted
  have slash : quote ≠ '\x5c' := by
    rcases hquote with rfl | rfl <;> decide
  have blank : Text.isBlank quote = false := by
    rcases hquote with rfl | rfl <;> decide
  have hstring : String.ofList (quote :: (body ++ [quote])) = text := by
    rw [← htext, String.ofList_toList]
  have hscan : scanQuoted quote (body ++ [quote] ++ rest) = some (body ++ [quote], rest) := by
    rw [List.append_assoc]
    exact scanQuoted_of_isEscaped slash escaped
  rw [htext, List.cons_append]
  apply scan_cons blank
  rw [scanToken, if_pos hquote, hscan]
  simp only [hstring]

/-- A mark of one character is scanned as itself. -/
theorem scan_mark {c : Char} {m : Mark} (h : markOf? c = some m) (rest : List Char) :
    scan (c :: rest) = (scan rest).map (.mark m :: ·) := by
  apply scan_cons
  · unfold markOf? at h
    split at h <;> first | rfl | cases h
  · unfold markOf? at h
    split at h <;> cases h <;> rfl

end Token

end SqlGuard
