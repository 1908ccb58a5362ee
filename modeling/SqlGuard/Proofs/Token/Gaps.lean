import Mathlib
import SqlGuard.Grammar.Statement
import SqlGuard.Proofs.Token.Scanned

/-!
# White space between texts

No scanner takes a different turn at the end of a text when white space stands there and any other
text behind it. So a text is scanned by itself, whatever it is set apart from by white space, and
which white space that is makes no difference. Main statements: `Token.scan_append_of_ok`,
`Token.scan_append_of_error` and `SyntaxTree.ofText_set_apart`.
-/

namespace SqlGuard

/-- White space of one character at least. -/
structure Text.IsGap (gap : String) : Prop where
  blank : gap.toList.all Text.isBlank = true
  notEmpty : gap ≠ ""

namespace Token

/-- Whether a scanner looks for the character behind what it has read: as one that goes on a word
    or a number, or as the second one of a comparison. -/
def isLookedFor (c : Char) : Bool := isNumberChar c || c == '=' || c == '>'

/-- White space is none of the printable characters of ASCII. -/
theorem toNat_of_isBlank {c : Char} (h : Text.isBlank c = true) : c.toNat ≤ 32 ∨ 127 ≤ c.toNat := by
  rcases Nat.lt_or_ge 32 c.toNat with low | low
  · rcases Nat.lt_or_ge c.toNat 127 with high | high
    · rw [not_isBlank low high] at h
      cases h
    · exact .inr high
  · exact .inl low

theorem not_isLookedFor_of_isBlank {c : Char} (h : Text.isBlank c = true) :
    isLookedFor c = false := by
  have hrange := toNat_of_isBlank h
  have hdigit : c.isDigit = false := by
    rw [Bool.eq_false_iff]
    intro hdigit
    have := toNat_of_isDigit hdigit
    omega
  have hstart : isWordStart c = false := by
    rw [Bool.eq_false_iff]
    intro hstart
    have := toNat_of_isWordStart hstart
    omega
  have hne : ∀ d : Char, 32 < d.toNat → d.toNat < 127 → c ≠ d := by
    rintro d low high rfl
    omega
  simp only [isWordStart, Bool.or_eq_false_iff] at hstart
  simp [isLookedFor, isNumberChar, isWordChar, Char.isAlphanum, hdigit, hstart.1, hstart.2,
    hne '.' (by decide) (by decide), hne '=' (by decide) (by decide),
    hne '>' (by decide) (by decide)]

theorem stopsAt_of_blank {blanks : List Char} (blank : blanks.all Text.isBlank = true)
    (notEmpty : blanks ≠ []) (rest : List Char) : StopsAt isLookedFor (blanks ++ rest) := by
  cases blanks with
  | nil => exact absurd rfl notEmpty
  | cons b blanks =>
    rintro c ⟨⟩
    exact not_isLookedFor_of_isBlank (List.all_eq_true.1 blank _ List.mem_cons_self)

/-! ### Scanners in front of other text -/

section Scanners

variable {more : List Char}

theorem takeWhile_append_of_stopsAt {p : Char → Bool} (stops : StopsAt p more) (cs : List Char) :
    (cs ++ more).takeWhile p = cs.takeWhile p := by
  induction cs with
  | nil => exact takeWhile_of_stopsAt rfl stops
  | cons c cs ih =>
    rw [List.cons_append, List.takeWhile_cons, List.takeWhile_cons, ih]

theorem dropWhile_append_of_stopsAt {p : Char → Bool} (stops : StopsAt p more) (cs : List Char) :
    (cs ++ more).dropWhile p = cs.dropWhile p ++ more := by
  induction cs with
  | nil => exact dropWhile_of_stopsAt rfl stops
  | cons c cs ih =>
    rw [List.cons_append, List.dropWhile_cons, List.dropWhile_cons, ih]
    split <;> rfl

theorem scanQuoted_append {quote : Char} {cs body rest : List Char} (slash : quote ≠ '\x5c')
    (h : scanQuoted quote cs = some (body, rest)) (more : List Char) :
    scanQuoted quote (cs ++ more) = some (body, rest ++ more) := by
  obtain ⟨inner, escaped, rfl, rfl⟩ := scanQuoted_eq_some h
  rw [List.append_assoc, List.append_assoc]
  exact scanQuoted_of_isEscaped slash escaped

theorem scanBackticked_of_not_mem {body : List Char} (noBacktick : '\x60' ∉ body)
    (rest : List Char) : scanBackticked (body ++ '\x60' :: rest) = some (body, rest) := by
  induction body with
  | nil => rfl
  | cons c body ih =>
    rw [List.mem_cons, not_or] at noBacktick
    rw [List.cons_append, scanBackticked, if_neg (Ne.symm noBacktick.1), ih noBacktick.2]
    rfl

theorem scanBackticked_append {cs body rest : List Char}
    (h : scanBackticked cs = some (body, rest)) (more : List Char) :
    scanBackticked (cs ++ more) = some (body, rest ++ more) := by
  obtain ⟨noBacktick, rfl⟩ := scanBackticked_eq_some h
  rw [List.append_assoc]
  exact scanBackticked_of_not_mem noBacktick _

variable (stops : StopsAt isLookedFor more)

include stops

theorem stopsAt_isNumberChar : StopsAt isNumberChar more := by
  intro c hc
  have := stops c hc
  simp only [isLookedFor, Bool.or_eq_false_iff] at this
  exact this.1.1

theorem stopsAt_isWordChar : StopsAt isWordChar more :=
  fun c hc => (Bool.or_eq_false_iff.1 (stopsAt_isNumberChar stops c hc)).1

theorem stopsAt_isDigit : StopsAt Char.isDigit more := by
  intro c hc
  have := stopsAt_isWordChar stops c hc
  simp only [isWordChar, Char.isAlphanum, Bool.or_eq_false_iff] at this
  exact this.1.2

/-- A point at the end of the text is none of a number, for no digit follows it. -/
theorem scanFraction_append_of_stopsAt (cs : List Char) :
    scanFraction (cs ++ more) = ((scanFraction cs).1, (scanFraction cs).2 ++ more) := by
  have hdigit := stopsAt_isDigit stops
  by_cases h : ∃ d ds, cs = '.' :: d :: ds ∧ d.isDigit = true
  · obtain ⟨d, ds, rfl, hd⟩ := h
    have htake := takeWhile_append_of_stopsAt hdigit (d :: ds)
    have hdrop := dropWhile_append_of_stopsAt hdigit (d :: ds)
    rw [List.cons_append] at htake hdrop
    rw [List.cons_append, List.cons_append, scanFraction_point hd, scanFraction_point hd, htake,
      hdrop]
  · have hnone : ∀ d ds, cs = '.' :: d :: ds → d.isDigit = false :=
      fun d ds hcs => Bool.eq_false_iff.2 fun hd => h ⟨d, ds, hcs, hd⟩
    rw [scanFraction_none hnone, scanFraction_none]
    intro d ds heq
    match cs, heq with
    | [], heq =>
      have hmore : more = '.' :: d :: ds := heq
      have := stops '.' (by rw [hmore]; rfl)
      cases this
    | [c], heq =>
      have hmore : more = d :: ds := (List.cons.inj heq).2
      exact hdigit d (by rw [hmore]; rfl)
    | c :: c' :: cs, heq =>
      obtain ⟨rfl, htail⟩ := List.cons.inj heq
      obtain ⟨rfl, -⟩ := List.cons.inj htail
      exact hnone c' cs rfl

theorem startsDecimalSuffix_append (cs : List Char) :
    startsDecimalSuffix (cs ++ more) = startsDecimalSuffix cs := by
  have hletter : ∀ c d, more.head? = some c → isWordChar d = true → c.toLower ≠ d := by
    intro c d hc hd hlower
    have := stopsAt_isWordChar stops c hc
    rw [isWordChar_of_toLower hlower hd] at this
    cases this
  rw [Bool.eq_iff_iff, startsDecimalSuffix_iff, startsDecimalSuffix_iff]
  match cs with
  | [] =>
    constructor
    · rintro ⟨b, d, rest, heq, hb, -⟩
      have hmore : more = b :: d :: rest := heq
      exact absurd hb (hletter b 'b' (by rw [hmore]; rfl) (by decide))
    · rintro ⟨b, d, rest, hnil, -⟩
      cases hnil
  | [c] =>
    constructor
    · rintro ⟨b, d, rest, heq, -, hd⟩
      have hmore : more = d :: rest := (List.cons.inj heq).2
      exact absurd hd (hletter d 'd' (by rw [hmore]; rfl) (by decide))
    · rintro ⟨b, d, rest, hshort, -⟩
      cases hshort
  | c :: c' :: cs =>
    simp [List.cons_append]

/-- A letter at the end of the text is a suffix there as it is in front of white space. -/
theorem scanSuffix_append_of_stopsAt (cs : List Char) :
    scanSuffix (cs ++ more) = ((scanSuffix cs).1, (scanSuffix cs).2 ++ more) := by
  cases cs with
  | nil =>
    exact scanSuffix_of_isSuffix (isSuffix_iff.2 (.inl rfl)) (stopsAt_isWordChar stops)
  | cons c cs =>
    have hany : (cs ++ more).head?.any isWordChar = cs.head?.any isWordChar := by
      cases cs with
      | cons d ds => rfl
      | nil =>
        cases more with
        | nil => rfl
        | cons d ds => exact stopsAt_isWordChar stops d rfl
    have hdecimal := startsDecimalSuffix_append stops (c :: cs)
    rw [List.cons_append] at hdecimal
    rw [List.cons_append, scanSuffix, scanSuffix, hdecimal]
    split
    · rename_i h
      obtain ⟨b, d, rest, hcs, -⟩ := startsDecimalSuffix_iff.1 h
      cases hcs
      rfl
    · simp only [hany]
      split <;> rfl

theorem scanNumber_append_of_stopsAt (cs : List Char) :
    scanNumber (cs ++ more) = ((scanNumber cs).1, (scanNumber cs).2 ++ more) := by
  have hdigit := stopsAt_isDigit stops
  simp only [scanNumber, takeWhile_append_of_stopsAt hdigit, dropWhile_append_of_stopsAt hdigit,
    scanFraction_append_of_stopsAt stops, scanSuffix_append_of_stopsAt stops]

theorem scanComparison_append (c : Char) (cs : List Char) :
    scanComparison c (cs ++ more) =
      (scanComparison c cs).map fun (m, rest) => (m, rest ++ more) := by
  cases cs with
  | cons d ds =>
    rw [List.cons_append]
    unfold scanComparison
    split <;> simp_all
  | nil =>
    rw [List.nil_append]
    cases more with
    | nil => cases scanComparison c [] <;> simp
    | cons d ds =>
      have hd := stops d rfl
      simp only [isLookedFor, Bool.or_eq_false_iff, beq_eq_false_iff_ne] at hd
      unfold scanComparison
      split <;> simp_all

/-! ### Tokens in front of other text -/

theorem scanToken_append_of_ok {c : Char} {cs rest : List Char} {t : Token}
    (h : scanToken c cs = .ok (t, rest)) :
    scanToken c (cs ++ more) = .ok (t, rest ++ more) := by
  cases scanToken_eq_ok_iff.1 h with
  | string quote closed =>
    have slash : c ≠ '\x5c' := by rcases quote with rfl | rfl <;> decide
    exact scanToken_eq_ok_iff.2 (.string quote (scanQuoted_append slash closed more))
  | backticked backtick closed =>
    exact scanToken_eq_ok_iff.2 (.backticked backtick (scanBackticked_append closed more))
  | number digit =>
    rw [scanToken_of_isDigit digit, ← List.cons_append, scanNumber_append_of_stopsAt stops]
  | word start =>
    have hword := stopsAt_isWordChar stops
    rw [scanToken_of_isWordStart start, ← List.cons_append, takeWhile_append_of_stopsAt hword,
      dropWhile_append_of_stopsAt hword]
  | mark single => exact scanToken_eq_ok_iff.2 (.mark single)
  | comparison scanned =>
    refine scanToken_eq_ok_iff.2 (.comparison ?_)
    rw [scanComparison_append stops, scanned]
    rfl

theorem scanToken_append_of_unexpectedChar {c d : Char} {cs : List Char}
    (h : scanToken c cs = .error (.unexpectedChar d)) :
    scanToken c (cs ++ more) = .error (.unexpectedChar d) := by
  unfold scanToken at h ⊢
  split at h
  · split at h <;> cases h
  rename_i hquote
  split at h
  · split at h <;> cases h
  rename_i hbacktick
  split at h
  · cases h
  rename_i hdigit
  split at h
  · cases h
  rename_i hstart
  rw [if_neg hquote, if_neg hbacktick, if_neg hdigit, if_neg hstart]
  split at h
  · cases h
  · rw [scanComparison_append stops]
    split at h
    · cases h
    · rename_i hscan
      rw [hscan]
      exact h

end Scanners

/-! ### Open quotes in front of other text -/

section Open

variable {more : List Char}

theorem scanQuoted_append_of_none {quote : Char} {cs : List Char} (slash : quote ≠ '\x5c')
    (h : scanQuoted quote cs = none) (noQuote : quote ∉ more) :
    scanQuoted quote (cs ++ more) = none := by
  have notClosed : ∀ inner rest, IsEscaped quote inner → cs ≠ inner ++ [quote] ++ rest := by
    rintro inner rest escaped rfl
    rw [List.append_assoc, List.singleton_append, scanQuoted_of_isEscaped slash escaped] at h
    cases h
  cases hscan : scanQuoted quote (cs ++ more) with
  | none => rfl
  | some p =>
    obtain ⟨inner, escaped, hbody, happend⟩ := scanQuoted_eq_some hscan
    rw [hbody] at happend
    rcases List.append_eq_append_iff.1 happend with ⟨front, hfront, hmore⟩ | ⟨rest, hcs, -⟩
    · -- the closing quote is the last character of the front part of `more`, if there is one
      rcases List.eq_nil_or_concat' front with rfl | ⟨before, last, rfl⟩
      · rw [List.append_nil] at hfront
        exact absurd (by rw [hfront, List.append_nil]) (notClosed inner [] escaped)
      · rw [← List.append_assoc] at hfront
        have hlast : [quote] = [last] := (List.append_inj' hfront rfl).2
        rw [hmore, List.singleton_inj.1 hlast] at noQuote
        simp at noQuote
    · exact absurd hcs (notClosed inner rest escaped)

theorem scanBackticked_eq_none_iff {cs : List Char} :
    scanBackticked cs = none ↔ '\x60' ∉ cs := by
  induction cs with
  | nil => simp [scanBackticked]
  | cons c cs ih =>
    rw [scanBackticked, List.mem_cons, not_or]
    split
    · rename_i hc
      simp [hc]
    · rename_i hc
      rw [Option.map_eq_none_iff, ih]
      exact ⟨fun h => ⟨Ne.symm hc, h⟩, And.right⟩

theorem scanToken_append_of_unterminated {c : Char} {cs : List Char} {e : ScanError}
    (noQuote : ∀ quote ∈ ['\x27', '\x22', '\x60'], quote ∉ more)
    (h : scanToken c cs = .error e) (unterminated : ∀ d, e ≠ .unexpectedChar d) :
    scanToken c (cs ++ more) = .error e := by
  unfold scanToken at h ⊢
  split at h
  · rename_i hquote
    have slash : c ≠ '\x5c' := by rcases hquote with rfl | rfl <;> decide
    have absent : c ∉ more := by rcases hquote with rfl | rfl <;> exact noQuote _ (by decide)
    split at h
    · cases h
    · rename_i hscan
      rw [if_pos hquote, scanQuoted_append_of_none slash hscan absent]
      exact h
  rename_i hquote
  split at h
  · rename_i hbacktick
    split at h
    · cases h
    · rename_i hscan
      have absent : '\x60' ∉ cs ++ more := by
        rw [List.mem_append, not_or]
        exact ⟨scanBackticked_eq_none_iff.1 hscan, noQuote _ (by decide)⟩
      rw [if_neg hquote, if_pos hbacktick, scanBackticked_eq_none_iff.2 absent]
      exact h
  split at h
  · cases h
  split at h
  · cases h
  split at h
  · cases h
  split at h <;> cases h
  exact absurd rfl (unterminated c)

end Open

/-! ### Texts in front of other text -/

section Texts

variable {more : List Char}

theorem dropWhile_isBlank_append {cs rest : List Char} {c : Char}
    (h : cs.dropWhile Text.isBlank = c :: rest) (more : List Char) :
    (cs ++ more).dropWhile Text.isBlank = c :: (rest ++ more) := by
  rw [List.dropWhile_append, h]
  rfl

theorem scan_append_of_blank {blanks : List Char} (blank : blanks.all Text.isBlank = true)
    (rest : List Char) : scan (blanks ++ rest) = scan rest := by
  rw [scan_eq, List.dropWhile_append_of_pos (List.all_eq_true.1 blank), ← scan_eq]

/-- A text that is scanned as tokens is scanned as them in front of any text that goes on with none
    of them, and then that text is scanned. -/
theorem scan_append_of_ok (stops : StopsAt isLookedFor more) {cs : List Char} {ts : List Token}
    (h : scan cs = .ok (ts ++ [.eof])) : scan (cs ++ more) = (scan more).map (ts ++ ·) := by
  rcases scan_eq_ok h with ⟨hdrop, hts⟩ | ⟨c, cs', t, rest, us, hdrop, htoken, hless, hrest, hts⟩
  · have hsame : ts ++ [.eof] = [] ++ [.eof] := hts
    obtain rfl := List.append_cancel_right hsame
    have hblank : (cs ++ more).dropWhile Text.isBlank = more.dropWhile Text.isBlank := by
      rw [List.dropWhile_append, hdrop]
      rfl
    rw [scan_eq, hblank, ← scan_eq]
    cases scan more <;> rfl
  · obtain ⟨us, rfl, -⟩ := scan_ends hrest
    have hsame : ts ++ [.eof] = (t :: us) ++ [.eof] := hts
    obtain rfl := List.append_cancel_right hsame
    rw [scan_eq, dropWhile_isBlank_append hdrop]
    simp only [scanToken_append_of_ok stops htoken]
    show (scan (rest ++ more)).map (t :: ·) = _
    rw [scan_append_of_ok stops hrest]
    cases scan more <;> rfl
termination_by cs.length

/-- An error that a token keeps in front of another text is kept by the whole text. -/
theorem scan_append_of_error (stops : StopsAt isLookedFor more) {e : ScanError}
    (token : ∀ c cs, scanToken c cs = .error e → scanToken c (cs ++ more) = .error e)
    {cs : List Char} (h : scan cs = .error e) : scan (cs ++ more) = .error e := by
  rw [scan_eq] at h
  match hdrop : cs.dropWhile Text.isBlank with
  | [] =>
    rw [hdrop] at h
    cases h
  | c :: cs' =>
    rw [hdrop] at h
    rw [scan_eq, dropWhile_isBlank_append hdrop]
    match htoken : scanToken c cs' with
    | .error e' =>
      simp only [htoken] at h
      cases h
      simp only [token c cs' htoken]
      rfl
    | .ok (t, rest) =>
      have hless : rest.length < cs.length := by
        have hshorter := scanToken_shorter htoken
        have hblank := (List.dropWhile_sublist Text.isBlank (l := cs)).length_le
        rw [hdrop] at hblank
        omega
      have hrest : scan rest = .error e := by
        simp only [htoken] at h
        cases hscan : scan rest with
        | ok us =>
          have hok : (scan rest).map (t :: ·) = .error e := h
          rw [hscan] at hok
          cases hok
        | error e' =>
          have herror : (scan rest).map (t :: ·) = .error e := h
          rw [hscan] at herror
          cases herror
          rfl
      simp only [scanToken_append_of_ok stops htoken]
      show (scan (rest ++ more)).map (t :: ·) = _
      rw [scan_append_of_error stops token hrest]
      rfl
termination_by cs.length

/-- White space behind a text changes nothing, whether or not the text is scanned. -/
theorem scan_append_blank {blanks : List Char} (blank : blanks.all Text.isBlank = true)
    (cs : List Char) : scan (cs ++ blanks) = scan cs := by
  by_cases hnil : blanks = []
  · rw [hnil, List.append_nil]
  have stops : StopsAt isLookedFor blanks := by
    have := stopsAt_of_blank blank hnil []
    rwa [List.append_nil] at this
  cases hscan : scan cs with
  | ok ts =>
    obtain ⟨us, rfl, -⟩ := scan_ends hscan
    have hend : scan blanks = .ok [.eof] := by
      have := scan_append_of_blank blank []
      rwa [List.append_nil, scan_nil] at this
    rw [scan_append_of_ok stops hscan, hend]
    rfl
  | error e =>
    refine scan_append_of_error stops (fun c cs' htoken => ?_) hscan
    cases e with
    | unexpectedChar d => exact scanToken_append_of_unexpectedChar stops htoken
    | unterminatedString | unterminatedIdent =>
      refine scanToken_append_of_unterminated (fun quote hquote hmem => ?_) htoken nofun
      have noBlank : ['\x27', '\x22', '\x60'].all (!Text.isBlank ·) = true := by decide
      have := List.all_eq_true.1 noBlank quote hquote
      simp [List.all_eq_true.1 blank quote hmem] at this

end Texts

variable {a gap : String}

theorem ofText_append_of_ok (isGap : Text.IsGap gap) {ts : List Token}
    (scanned : ofText a = .ok (ts ++ [.eof])) (b : String) :
    ofText (a ++ gap ++ b) = (ofText b).map (ts ++ ·) := by
  have stops := stopsAt_of_blank isGap.blank (by simpa using isGap.notEmpty) b.toList
  rw [ofText, String.toList_append, String.toList_append, List.append_assoc,
    scan_append_of_ok stops scanned, scan_append_of_blank isGap.blank]
  rfl

/-- No string literal and no backticked name is open at the end of the text. -/
def EndsOutside (sql : String) : Prop :=
  ∀ e, ofText sql = .error e → ∃ c, e = .unexpectedChar c

theorem ofText_append_of_unexpectedChar (isGap : Text.IsGap gap) {c : Char}
    (refused : ofText a = .error (.unexpectedChar c)) (b : String) :
    ofText (a ++ gap ++ b) = .error (.unexpectedChar c) := by
  have stops := stopsAt_of_blank isGap.blank (by simpa using isGap.notEmpty) b.toList
  rw [ofText, String.toList_append, String.toList_append, List.append_assoc]
  exact scan_append_of_error stops
    (fun _ _ htoken => scanToken_append_of_unexpectedChar stops htoken) refused

end Token

namespace SyntaxTree

theorem ofText_congr {sql sql' : String} (same : Token.ofText sql = Token.ofText sql') :
    ofText sql = ofText sql' := by
  rw [ofText, ofText, same]

/-- Scanning takes texts that are set apart by white space to tokens behind each other: the tokens
    of the first, and then all that becomes of the second. So a text is the same tree with other
    white space where no literal and no name is open, and with white space at either end. -/
theorem ofText_set_apart {gap : String} (isGap : Text.IsGap gap) (a b : String) :
    (∀ ts, Token.ofText a = .ok (ts ++ [.eof]) →
      Token.ofText (a ++ gap ++ b) = (Token.ofText b).map (ts ++ ·)) ∧
    (Token.EndsOutside a → ∀ gap', Text.IsGap gap' →
      ofText (a ++ gap ++ b) = ofText (a ++ gap' ++ b)) ∧
    ofText (gap ++ a) = ofText a ∧ ofText (a ++ gap) = ofText a := by
  refine ⟨fun ts scanned => Token.ofText_append_of_ok isGap scanned b, ?_, ?_, ?_⟩
  · intro outside gap' isGap'
    apply ofText_congr
    cases hscan : Token.ofText a with
    | ok ts =>
      obtain ⟨us, rfl, -⟩ := Token.scan_ends hscan
      rw [Token.ofText_append_of_ok isGap hscan, Token.ofText_append_of_ok isGap' hscan]
    | error e =>
      obtain ⟨c, rfl⟩ := outside e hscan
      rw [Token.ofText_append_of_unexpectedChar isGap hscan,
        Token.ofText_append_of_unexpectedChar isGap' hscan]
  · apply ofText_congr
    rw [Token.ofText, String.toList_append]
    exact Token.scan_append_of_blank isGap.blank a.toList
  · apply ofText_congr
    rw [Token.ofText, String.toList_append]
    exact Token.scan_append_blank isGap.blank a.toList

/-- A number that would be a decimal and a name that would go on, were they not set apart. -/
theorem ofText_set_apart_suffix :
    let ts : List Token :=
      [.keyword .SELECT, .number "1.5", .mark .minus, .number "1", .ident "b"]
    Text.IsGap "\n\t" ∧ Token.ofText "SELECT 1.5-1b" = .ok (ts ++ [.eof]) ∧
      Token.ofText ("SELECT 1.5-1b" ++ "\n\t" ++ "D FROM t") =
        .ok (ts ++ [.ident "D", .keyword .FROM, .ident "t", .eof]) ∧
      ofText ("SELECT 1.5-1b" ++ "\n\t" ++ "D FROM t") =
        ofText ("SELECT 1.5-1b" ++ " " ++ "D FROM t") := by
  intro ts
  have isGap : Text.IsGap "\n\t" := ⟨by decide, by decide⟩
  have isGap' : Text.IsGap " " := ⟨by decide, by decide⟩
  have scanned : Token.ofText "SELECT 1.5-1b" = .ok (ts ++ [.eof]) := by cbv
  have behind : Token.ofText "D FROM t" = .ok [.ident "D", .keyword .FROM, .ident "t", .eof] := by
    cbv
  have outside : Token.EndsOutside "SELECT 1.5-1b" := by
    intro e refused
    cases scanned.symm.trans refused
  obtain ⟨apart, other, -⟩ := ofText_set_apart isGap "SELECT 1.5-1b" "D FROM t"
  refine ⟨isGap, scanned, ?_, other outside " " isGap'⟩
  rw [apart ts scanned, behind]
  rfl

end SyntaxTree

end SqlGuard
