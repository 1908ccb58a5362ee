import SqlGuard.Proofs.Token.Forms

/-!
# The tokens that texts are scanned as

What is known of the tokens of any text: their numbers and strings have the forms of numbers and
strings, a name that is not plain has stood between backticks, and the end stands behind all others.
Main statements: `scan_ends` and `scan_isScanned`.
-/

namespace SqlGuard

namespace Token

/-- Whether a text can be scanned as the token: a name holds no backtick, and the others have their
    forms. -/
def IsScanned : Token → Prop
  | .ident name => '\x60' ∉ name.toList
  | .number text => IsNumber text
  | .string text => IsQuoted text
  | _ => True

/-- The characters of the name or the literal that the token is. -/
def chars : Token → List Char
  | .ident text | .number text | .string text => text.toList
  | _ => []

/-- Characters of any text that is scanned as the token: those of a literal, and one backtick for a
    name that is not plain. -/
def leastChars : Token → List Char
  | .ident name => if isPlainName name then [] else ['\x60']
  | t => t.chars

/-! ### The parts of tokens -/

/-- The characters up to the closing quote are escaped. -/
theorem scanQuoted_eq_some {quote : Char} {cs body rest : List Char}
    (h : scanQuoted quote cs = some (body, rest)) :
    ∃ inner, IsEscaped quote inner ∧ body = inner ++ [quote] ∧ cs = body ++ rest := by
  induction cs using scanQuoted.induct quote generalizing body with
  | case1 => simp [scanQuoted] at h
  | case2 c cs ih =>
    simp only [scanQuoted, Option.map_eq_some_iff] at h
    obtain ⟨⟨body, rest⟩, h, ⟨⟩⟩ := h
    obtain ⟨inner, escaped, rfl, rfl⟩ := ih h
    exact ⟨'\x5c' :: c :: inner, .escape c escaped, rfl, rfl⟩
  | case3 cs hslash => simp_all [scanQuoted]
  | case4 cs hslash hquote =>
    rw [scanQuoted, if_neg hquote, if_pos rfl] at h
    · cases h
      exact ⟨[], .nil, rfl, rfl⟩
    · exact hslash
  | case5 c cs hescape hslash hquote ih =>
    simp only [scanQuoted, hslash, hquote, if_false, Option.map_eq_some_iff] at h
    obtain ⟨⟨body, rest⟩, h, ⟨⟩⟩ := h
    obtain ⟨inner, escaped, rfl, rfl⟩ := ih h
    exact ⟨c :: inner, .char hquote hslash escaped, rfl, rfl⟩

theorem scanBackticked_eq_some {cs body rest : List Char}
    (h : scanBackticked cs = some (body, rest)) :
    '\x60' ∉ body ∧ cs = body ++ '\x60' :: rest := by
  induction cs generalizing body with
  | nil => simp [scanBackticked] at h
  | cons c cs ih =>
    rw [scanBackticked] at h
    split at h
    · rename_i hc
      cases h
      exact ⟨List.not_mem_nil, by rw [hc]; rfl⟩
    · rename_i hc
      rw [Option.map_eq_some_iff] at h
      obtain ⟨⟨body, rest⟩, h, ⟨⟩⟩ := h
      obtain ⟨hbody, rfl⟩ := ih h
      refine ⟨?_, rfl⟩
      rw [List.mem_cons, not_or]
      exact ⟨Ne.symm hc, hbody⟩

theorem scanFraction_point {d : Char} (h : d.isDigit = true) (ds : List Char) :
    scanFraction ('.' :: d :: ds) =
      ('.' :: (d :: ds).takeWhile Char.isDigit, (d :: ds).dropWhile Char.isDigit) := by
  rw [scanFraction, if_pos h]

theorem scanFraction_none {cs : List Char}
    (h : ∀ d ds, cs = '.' :: d :: ds → d.isDigit = false) : scanFraction cs = ([], cs) := by
  unfold scanFraction
  split
  · rename_i d ds
    rw [if_neg (by simp [h d ds rfl])]
  · rfl

theorem startsDecimalSuffix_iff {cs : List Char} : startsDecimalSuffix cs = true ↔
    ∃ b d rest, cs = b :: d :: rest ∧ b.toLower = 'b' ∧ d.toLower = 'd' := by
  unfold startsDecimalSuffix
  split
  · rename_i b d rest
    rw [Bool.and_eq_true, beq_iff_eq, beq_iff_eq]
    constructor
    · exact fun letters => ⟨b, d, rest, rfl, letters⟩
    · rintro ⟨b, d, rest, ⟨⟩, letters⟩
      exact letters
  · rename_i hshort
    simp only [Bool.false_eq_true, false_iff]
    rintro ⟨b, d, rest, rfl, -⟩
    exact hshort b d rest rfl

theorem isFraction_scanFraction (cs : List Char) : IsFraction (scanFraction cs).1 := by
  unfold scanFraction
  split
  · rename_i d ds
    split
    · rename_i hd
      refine .inr ⟨_, rfl, ?_, List.all_takeWhile⟩
      rw [List.takeWhile_cons_of_pos hd]
      exact List.cons_ne_nil _ _
    · exact .inl rfl
  · exact .inl rfl

theorem isSuffix_scanSuffix (cs : List Char) : IsSuffix (scanSuffix cs).1 := by
  rw [isSuffix_iff]
  unfold scanSuffix
  split
  · rename_i hdecimal
    unfold startsDecimalSuffix at hdecimal
    split at hdecimal
    · rename_i b d rest
      rw [Bool.and_eq_true, beq_iff_eq, beq_iff_eq] at hdecimal
      exact .inr (.inr ⟨b, d, rfl, hdecimal⟩)
    · cases hdecimal
  · split
    · rename_i c rest _
      split
      · rename_i hint
        rw [Bool.and_eq_true] at hint
        exact .inr (.inl ⟨c, rfl, hint.1⟩)
      · exact .inl rfl
    · exact .inl rfl

theorem isNumber_scanNumber {c : Char} (hc : c.isDigit = true) (cs : List Char) :
    IsNumber (String.ofList (scanNumber (c :: cs)).1) := by
  refine ⟨_, _, _, String.toList_ofList, ?_, List.all_takeWhile, isFraction_scanFraction _,
    isSuffix_scanSuffix _⟩
  rw [List.takeWhile_cons_of_pos hc]
  exact List.cons_ne_nil _ _

/-- A word without backticks is a keyword or a plain name. -/
theorem ofWord_isScanned {c : Char} (start : isWordStart c = true) (cs : List Char) :
    (ofWord (c :: cs.takeWhile isWordChar)).IsScanned ∧
      (ofWord (c :: cs.takeWhile isWordChar)).leastChars = [] := by
  unfold ofWord
  cases hword : Keyword.ofWord? (c :: cs.takeWhile isWordChar) with
  | some k => exact ⟨trivial, rfl⟩
  | none =>
    have hplain : isPlainName (String.ofList (c :: cs.takeWhile isWordChar)) = true := by
      unfold isPlainName
      rw [String.toList_ofList]
      simp only [start, hword, Option.isNone_none, Bool.and_true, Bool.true_and]
      exact List.all_takeWhile
    refine ⟨?_, if_pos hplain⟩
    show '\x60' ∉ (String.ofList (c :: cs.takeWhile isWordChar)).toList
    rw [String.toList_ofList]
    intro hmem
    have hchar : isWordChar '\x60' = true := by
      rcases List.mem_cons.1 hmem with rfl | hmem
      · exact isWordChar_of_isWordStart start
      · exact List.all_eq_true.1 List.all_takeWhile _ hmem
    exact absurd hchar (by decide)

theorem scanComparison_suffix {c : Char} {cs rest : List Char} {m : Mark}
    (h : scanComparison c cs = some (m, rest)) : rest <:+ cs := by
  unfold scanComparison at h
  split at h <;> cases h <;> first | exact List.suffix_cons _ _ | exact List.suffix_rfl

/-! ### Single tokens -/

/-- How the first character of a token tells what is scanned, and what is left behind it. -/
inductive ScansAs (c : Char) (cs : List Char) : Token → List Char → Prop
  | string {body rest : List Char} (quote : c = '\x27' ∨ c = '\x22')
      (closed : scanQuoted c cs = some (body, rest)) :
      ScansAs c cs (.string (String.ofList (c :: body))) rest
  | backticked {body rest : List Char} (backtick : c = '\x60')
      (closed : scanBackticked cs = some (body, rest)) :
      ScansAs c cs (.ident (String.ofList body)) rest
  | number (digit : c.isDigit = true) :
      ScansAs c cs (.number (String.ofList (scanNumber (c :: cs)).1)) (scanNumber (c :: cs)).2
  | word (start : isWordStart c = true) :
      ScansAs c cs (ofWord ((c :: cs).takeWhile isWordChar)) ((c :: cs).dropWhile isWordChar)
  | mark {m : Mark} (single : markOf? c = some m) : ScansAs c cs (.mark m) cs
  | comparison {m : Mark} {rest : List Char} (scanned : scanComparison c cs = some (m, rest)) :
      ScansAs c cs (.mark m) rest

section OneToken

variable {c : Char} {cs rest : List Char} {t : Token}

/-- No two kinds of tokens start with the same character. -/
theorem scanToken_eq_ok_iff : scanToken c cs = .ok (t, rest) ↔ ScansAs c cs t rest := by
  constructor
  · intro h
    unfold scanToken at h
    split at h
    · rename_i quote
      split at h <;> cases h
      exact .string quote ‹_›
    split at h
    · rename_i backtick
      split at h <;> cases h
      exact .backticked backtick ‹_›
    split at h
    · rename_i digit
      cases h
      exact .number digit
    split at h
    · rename_i start
      cases h
      exact .word start
    split at h
    · cases h
      exact .mark ‹_›
    split at h <;> cases h
    exact .comparison ‹_›
  · intro h
    cases h with
    | string quote closed => rw [scanToken, if_pos quote, closed]
    | backticked backtick closed =>
      subst backtick
      rw [scanToken, if_neg (by decide), if_pos rfl, closed]
    | number digit => exact scanToken_of_isDigit digit cs
    | word start => exact scanToken_of_isWordStart start cs
    | mark single =>
      unfold markOf? at single
      split at single <;> cases single <;> rfl
    | comparison scanned =>
      have hc : c = '!' ∨ c = '<' ∨ c = '>' := by
        unfold scanComparison at scanned
        split at scanned <;> first | decide | cases scanned
      have noQuote : ¬ (c = '\x27' ∨ c = '\x22') := by rcases hc with rfl | rfl | rfl <;> decide
      have noBacktick : c ≠ '\x60' := by rcases hc with rfl | rfl | rfl <;> decide
      have noDigit : ¬ c.isDigit = true := by rcases hc with rfl | rfl | rfl <;> decide
      have noStart : ¬ isWordStart c = true := by rcases hc with rfl | rfl | rfl <;> decide
      have noMark : markOf? c = none := by rcases hc with rfl | rfl | rfl <;> rfl
      rw [scanToken, if_neg noQuote, if_neg noBacktick, if_neg noDigit, if_neg noStart, noMark,
        scanned]

/-- A token that is scanned takes its backticks from the text. -/
theorem scanToken_isScanned (h : scanToken c cs = .ok (t, rest)) :
    t.IsScanned ∧ (t.leastChars ++ rest).count '\x60' ≤ (c :: cs).count '\x60' := by
  cases scanToken_eq_ok_iff.1 h with
  | string quote closed =>
    obtain ⟨inner, escaped, rfl, rfl⟩ := scanQuoted_eq_some closed
    refine ⟨⟨c, inner, quote, escaped, String.toList_ofList⟩, ?_⟩
    rw [leastChars, chars, String.toList_ofList]
    · exact Nat.le_refl _
    · exact fun _ => Token.noConfusion
  | @backticked body _ backtick closed =>
    obtain ⟨hbody, rfl⟩ := scanBackticked_eq_some closed
    have hleast : (Token.ident (String.ofList body)).leastChars.count '\x60' ≤ 1 := by
      rw [leastChars]
      split <;> decide
    constructor
    · show '\x60' ∉ (String.ofList body).toList
      rw [String.toList_ofList]
      exact hbody
    · rw [backtick, List.count_cons_self, List.count_append, List.count_append,
        List.count_cons_self]
      omega
  | number digit =>
    have hnumber : (String.ofList (scanNumber (c :: cs)).1).toList ++ (scanNumber (c :: cs)).2 =
        c :: cs := by
      rw [String.toList_ofList, scanNumber_append]
    exact ⟨isNumber_scanNumber digit cs, Nat.le_of_eq (congrArg (List.count '\x60') hnumber)⟩
  | word start =>
    rw [List.takeWhile_cons_of_pos (isWordChar_of_isWordStart start)]
    obtain ⟨scanned, hleast⟩ := ofWord_isScanned start cs
    refine ⟨scanned, ?_⟩
    rw [hleast]
    exact (List.dropWhile_sublist _).count_le _
  | mark single => exact ⟨trivial, (List.sublist_cons_self _ _).count_le _⟩
  | comparison scanned =>
    have hsuffix := (scanComparison_suffix scanned).sublist
    exact ⟨trivial, (hsuffix.trans (List.sublist_cons_self _ _)).count_le _⟩

theorem scanToken_ne_eof (h : scanToken c cs = .ok (t, rest)) : t ≠ .eof := by
  cases scanToken_eq_ok_iff.1 h with
  | word start =>
    unfold ofWord
    split <;> exact Token.noConfusion
  | _ => exact Token.noConfusion

end OneToken

/-! ### Whole texts -/

theorem scan_eq (cs : List Char) :
    scan cs = match cs.dropWhile Text.isBlank with
      | [] => .ok [.eof]
      | c :: rest => scanToken c rest >>= fun (t, rest) => (scan rest).map (t :: ·) := by
  rw [scan]
  split
  · rename_i hnil
    rw [hnil]
  · rename_i hcons
    rw [hcons]
    split
    · rename_i htoken
      simp only [htoken]
      rfl
    · rename_i htoken
      simp only [htoken]
      rfl

/-- A text is scanned as the end alone, or as the token that it starts with and those of its
    rest. -/
theorem scan_eq_ok {cs : List Char} {ts : List Token} (h : scan cs = .ok ts) :
    (cs.dropWhile Text.isBlank = [] ∧ ts = [.eof]) ∨
      ∃ c more t rest us, cs.dropWhile Text.isBlank = c :: more ∧
        scanToken c more = .ok (t, rest) ∧ rest.length < cs.length ∧ scan rest = .ok us ∧
        ts = t :: us := by
  rw [scan] at h
  split at h
  · rename_i hdrop
    cases h
    exact .inl ⟨hdrop, rfl⟩
  · rename_i c more hdrop
    split at h
    · cases h
    · rename_i t rest htoken
      cases hrest : scan rest with
      | error e =>
        rw [hrest] at h
        cases h
      | ok us =>
        rw [hrest] at h
        cases h
        have hblank : (c :: more).length ≤ cs.length := by
          rw [← hdrop]
          exact (List.dropWhile_sublist _).length_le
        have hshorter : rest.length < cs.length :=
          Nat.lt_of_lt_of_le (scanToken_shorter htoken) hblank
        exact .inr ⟨c, more, t, rest, us, hdrop, htoken, hshorter, hrest, rfl⟩

/-- The end is the last token and no other. -/
theorem scan_ends {cs : List Char} {ts : List Token} (h : scan cs = .ok ts) :
    ∃ us, ts = us ++ [.eof] ∧ .eof ∉ us := by
  rcases scan_eq_ok h with ⟨-, rfl⟩ | ⟨c, more, t, rest, us, -, htoken, hshorter, hrest, rfl⟩
  · exact ⟨[], rfl, List.not_mem_nil⟩
  · obtain ⟨us, rfl, noEnd⟩ := scan_ends hrest
    refine ⟨t :: us, rfl, ?_⟩
    rw [List.mem_cons, not_or]
    exact ⟨(scanToken_ne_eof htoken).symm, noEnd⟩
termination_by cs.length

/-- All tokens of a text can be scanned, and each has taken its backticks from the text. -/
theorem scan_isScanned {cs : List Char} {ts : List Token} (h : scan cs = .ok ts) :
    (∀ t ∈ ts, t.IsScanned) ∧ (ts.flatMap leastChars).count '\x60' ≤ cs.count '\x60' := by
  rcases scan_eq_ok h with ⟨-, rfl⟩ | ⟨c, more, t, rest, us, hdrop, htoken, hshorter, hrest, rfl⟩
  · exact ⟨List.forall_mem_singleton.2 trivial, Nat.zero_le _⟩
  · obtain ⟨scanned, hleast⟩ := scanToken_isScanned htoken
    have hblank : (c :: more).count '\x60' ≤ cs.count '\x60' := by
      rw [← hdrop]
      exact (List.dropWhile_sublist _).count_le _
    obtain ⟨hmore, hcount⟩ := scan_isScanned hrest
    refine ⟨List.forall_mem_cons.2 ⟨scanned, hmore⟩, ?_⟩
    rw [List.count_append] at hleast
    rw [List.flatMap_cons, List.count_append]
    omega
termination_by cs.length

end Token

end SqlGuard
