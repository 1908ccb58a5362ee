import SqlGuard.Text.Blank
import SqlGuard.Token

/-!
# Reading tokens from text

`scan` reads a text from left to right, one token at a time. The scanners take the characters that
remain and answer what they read together with the characters behind it. Main statement:
`scanToken_shorter`, each token takes at least one character, so that reading ends.
-/

namespace SqlGuard

/-- Why a text holds no list of tokens. -/
inductive ScanError where
  | unexpectedChar (c : Char)
  | unterminatedString
  | unterminatedIdent
  deriving DecidableEq, Repr

/-- The text of the error. -/
def ScanError.message : ScanError → String
  | unexpectedChar c => "unexpected character: " ++ c.toString
  | unterminatedString => "unterminated string literal"
  | unterminatedIdent => "unterminated quoted identifier"

namespace Token

/-- Whether a character can stand in a name or a keyword. -/
def isWordChar (c : Char) : Bool := c.isAlphanum || c == '_'

/-- Whether a name or a keyword can start with the character. -/
def isWordStart (c : Char) : Bool := c.isAlpha || c == '_'

/-- The keyword that a word spells, or else the word as a name. -/
def ofWord (word : List Char) : Token :=
  match Keyword.ofWord? word with
  | some k => .keyword k
  | none => .ident (String.ofList word)

/-- The characters up to and with the closing quote, and those behind it. A backslash takes the
    character after it along, whatever it is. -/
def scanQuoted (quote : Char) : List Char → Option (List Char × List Char)
  | [] => none
  | '\x5c' :: c :: cs => (scanQuoted quote cs).map fun (body, rest) => ('\x5c' :: c :: body, rest)
  | c :: cs =>
    if c = '\x5c' then none
    else if c = quote then some ([c], cs)
    else (scanQuoted quote cs).map fun (body, rest) => (c :: body, rest)

/-- The characters before the first backtick, and those behind it. -/
def scanBackticked : List Char → Option (List Char × List Char)
  | [] => none
  | c :: cs =>
    if c = '\x60' then some ([], cs)
    else (scanBackticked cs).map fun (body, rest) => (c :: body, rest)

/-- A point with digits behind it, if the characters start so, and what follows it. -/
def scanFraction (cs : List Char) : List Char × List Char :=
  match cs with
  | '.' :: d :: ds =>
    if d.isDigit then ('.' :: (d :: ds).takeWhile Char.isDigit, (d :: ds).dropWhile Char.isDigit)
    else ([], cs)
  | _ => ([], cs)

/-- The letter that marks a number as `bigint`, `smallint` or `tinyint`. -/
def isIntSuffix (c : Char) : Bool := ['l', 's', 'y'].contains c.toLower

/-- Whether the characters start with `bd`, which marks a number as `decimal`. -/
def startsDecimalSuffix : List Char → Bool
  | b :: d :: _ => b.toLower == 'b' && d.toLower == 'd'
  | _ => false

/-- The type suffix of a number and what follows it. A single letter is a suffix only where no word
    goes on behind it; `bd` is one wherever it stands. -/
def scanSuffix (cs : List Char) : List Char × List Char :=
  if startsDecimalSuffix cs then (cs.take 2, cs.drop 2)
  else match cs with
    | c :: rest => if isIntSuffix c && !(rest.head?.any isWordChar) then ([c], rest) else ([], cs)
    | [] => ([], cs)

/-- The text of a number with its fraction and suffix, and what follows it. -/
def scanNumber (cs : List Char) : List Char × List Char :=
  let digits := cs.takeWhile Char.isDigit
  let (fraction, rest) := scanFraction (cs.dropWhile Char.isDigit)
  let (suffix, rest) := scanSuffix rest
  (digits ++ fraction ++ suffix, rest)

/-- The mark that is written with the character alone. -/
def markOf? : Char → Option Mark
  | '*' => some .asterisk
  | ',' => some .comma
  | ';' => some .semicolon
  | '.' => some .dot
  | '(' => some .lparen
  | ')' => some .rparen
  | '+' => some .plus
  | '-' => some .minus
  | '/' => some .slash
  | '=' => some .eq
  | _ => none

/-- The comparison that starts with `!`, `<` or `>`, and what follows it. -/
def scanComparison (c : Char) (cs : List Char) : Option (Mark × List Char) :=
  match c, cs with
  | '!', '=' :: rest => some (.ne, rest)
  | '<', '=' :: rest => some (.le, rest)
  | '<', '>' :: rest => some (.ne, rest)
  | '<', _ => some (.lt, cs)
  | '>', '=' :: rest => some (.ge, rest)
  | '>', _ => some (.gt, cs)
  | _, _ => none

/-- The token that starts with the character `c`, which is not white space, and what follows it. -/
def scanToken (c : Char) (cs : List Char) : Except ScanError (Token × List Char) :=
  if c = '\x27' ∨ c = '\x22' then
    match scanQuoted c cs with
    | some (body, rest) => .ok (.string (String.ofList (c :: body)), rest)
    | none => .error .unterminatedString
  else if c = '\x60' then
    match scanBackticked cs with
    | some (body, rest) => .ok (.ident (String.ofList body), rest)
    | none => .error .unterminatedIdent
  else if c.isDigit then
    let (text, rest) := scanNumber (c :: cs)
    .ok (.number (String.ofList text), rest)
  else if isWordStart c then
    .ok (ofWord ((c :: cs).takeWhile isWordChar), (c :: cs).dropWhile isWordChar)
  else
    match markOf? c with
    | some m => .ok (.mark m, cs)
    | none =>
      match scanComparison c cs with
      | some (m, rest) => .ok (.mark m, rest)
      | none => .error (.unexpectedChar c)

/-! ### Each scanner takes characters off the front -/

theorem scanQuoted_shorter {quote : Char} {cs body rest : List Char}
    (h : scanQuoted quote cs = some (body, rest)) : rest.length < cs.length := by
  induction cs using scanQuoted.induct quote generalizing body with
  | case1 => simp [scanQuoted] at h
  | case2 c cs ih =>
    simp only [scanQuoted, Option.map_eq_some_iff] at h
    obtain ⟨⟨body, rest⟩, h, ⟨⟩⟩ := h
    have : rest.length < cs.length := ih h
    simp only [List.length_cons]
    omega
  | case3 cs => simp_all [scanQuoted]
  | case4 cs => simp_all [scanQuoted]
  | case5 c cs _ hslash hquote ih =>
    simp only [scanQuoted, hslash, hquote, if_false, Option.map_eq_some_iff] at h
    obtain ⟨⟨body, rest⟩, h, ⟨⟩⟩ := h
    have : rest.length < cs.length := ih h
    simp only [List.length_cons]
    omega

theorem scanBackticked_shorter {cs body rest : List Char}
    (h : scanBackticked cs = some (body, rest)) : rest.length < cs.length := by
  induction cs generalizing body with
  | nil => simp [scanBackticked] at h
  | cons c cs ih =>
    simp only [scanBackticked] at h
    split at h
    · simp_all
    · simp only [Option.map_eq_some_iff] at h
      obtain ⟨⟨body, rest⟩, h, ⟨⟩⟩ := h
      have : rest.length < cs.length := ih h
      simp only [List.length_cons]
      omega

/-- A scanner that answers a front and a rest has split its input. -/
theorem scanFraction_append (cs : List Char) : (scanFraction cs).1 ++ (scanFraction cs).2 = cs := by
  unfold scanFraction
  split
  · split <;> simp [List.takeWhile_append_dropWhile]
  · simp

theorem scanSuffix_append (cs : List Char) : (scanSuffix cs).1 ++ (scanSuffix cs).2 = cs := by
  unfold scanSuffix
  split
  · simp
  · split
    · split <;> simp
    · simp

theorem scanNumber_append (cs : List Char) : (scanNumber cs).1 ++ (scanNumber cs).2 = cs := by
  simp only [scanNumber, List.append_assoc, scanSuffix_append, scanFraction_append,
    List.takeWhile_append_dropWhile]

theorem scanNumber_shorter {c : Char} {cs : List Char} (hc : c.isDigit = true) :
    (scanNumber (c :: cs)).2.length < (c :: cs).length := by
  have h := congrArg List.length (scanNumber_append (c :: cs))
  have : 0 < (scanNumber (c :: cs)).1.length := by simp [scanNumber, hc]
  rw [List.length_append] at h
  omega

theorem scanComparison_shorter {c : Char} {cs rest : List Char} {m : Mark}
    (h : scanComparison c cs = some (m, rest)) : rest.length < (c :: cs).length := by
  unfold scanComparison at h
  split at h <;> cases h <;> simp only [List.length_cons] <;> omega

/-- Reading a token takes at least one character. -/
theorem scanToken_shorter {c : Char} {cs rest : List Char} {t : Token}
    (h : scanToken c cs = .ok (t, rest)) : rest.length < (c :: cs).length := by
  unfold scanToken at h
  split at h
  · split at h
    · rename_i hq
      cases h
      exact Nat.lt_succ_of_lt (scanQuoted_shorter hq)
    · cases h
  split at h
  · split at h
    · rename_i hq
      cases h
      exact Nat.lt_succ_of_lt (scanBackticked_shorter hq)
    · cases h
  split at h
  · rename_i hd
    cases h
    exact scanNumber_shorter hd
  split at h
  · rename_i hw
    cases h
    have hc : isWordChar c = true := by
      rcases Bool.or_eq_true_iff.1 hw with h | h <;> simp [isWordChar, Char.isAlphanum, h]
    rw [List.dropWhile_cons_of_pos hc]
    exact Nat.lt_succ_of_le (List.dropWhile_suffix _).length_le
  split at h
  · cases h
    simp
  split at h
  · rename_i hm
    cases h
    exact scanComparison_shorter hm
  · cases h

/-- All tokens of a list of characters, `eof` behind them. -/
def scan (cs : List Char) : Except ScanError (List Token) :=
  match _hcs : cs.dropWhile Text.isBlank with
  | [] => .ok [.eof]
  | c :: rest =>
    match _h : scanToken c rest with
    | .error e => .error e
    | .ok (t, rest) => (scan rest).map (t :: ·)
termination_by cs.length
decreasing_by
  have := scanToken_shorter _h
  have := (List.dropWhile_suffix (l := cs) Text.isBlank).length_le
  rw [_hcs] at this
  omega

/-- All tokens of a text, `eof` behind them. -/
def ofText (sql : String) : Except ScanError (List Token) := scan sql.toList

end Token

end SqlGuard
