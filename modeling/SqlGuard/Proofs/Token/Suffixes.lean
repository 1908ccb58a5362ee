import SqlGuard.Proofs.Token.Steps

/-!
# The suffixes of numbers

A word that stands right behind the digits of a number is the suffix of that number, or it is left
whole to the next token. There is one exception: `BD` is also taken off the front of a word that
goes on behind it. Main statement: `Token.suffix_endsWord_iff`.
-/

namespace SqlGuard.Token

/-- The type suffix of a number: what its text holds behind the digits and the point. -/
def typeSuffix (text : String) : List Char :=
  text.toList.dropWhile fun c => c.isDigit || c == '.'

/-- The word starts with `BD` in any letter case, and goes on behind that. -/
def GoesOnBehindDecimal (word : List Char) : Prop :=
  (word.take 2).map Char.toLower = ['b', 'd'] ∧ 2 < word.length

instance (word : List Char) : Decidable (GoesOnBehindDecimal word) :=
  inferInstanceAs (Decidable (_ ∧ _))

/-- What becomes of the word right behind the digits of a number, if the number has the suffix and
    the rest stands behind that: the word is the suffix, or is left to the next token, or is split
    behind `BD`. -/
inductive WordBehind (word suffix rest : List Char) : Prop
  | taken (isSuffix : IsSuffix word) (whole : suffix = word) (stops : StopsAt isWordChar rest)
  | left (noSuffix : ¬ IsSuffix word) (short : ¬ GoesOnBehindDecimal word) (none : suffix = [])
      (next : nextToken rest = .ok (ofWord word, rest.dropWhile isWordChar))
  | split (goesOn : GoesOnBehindDecimal word) (front : suffix = word.take 2)
      (back : rest.takeWhile isWordChar = word.drop 2)

/-! ### Words -/

theorem isWordStart_of_isWordChar {c : Char} (h : isWordChar c = true)
    (noDigit : c.isDigit = false) : isWordStart c = true := by
  simpa [isWordChar, isWordStart, Char.isAlphanum, noDigit] using h

/-- A word at the front of the characters is the next token, as a whole. -/
theorem nextToken_of_isWordStart {c : Char} (start : isWordStart c = true) (cs : List Char) :
    nextToken (c :: cs) =
      .ok (ofWord ((c :: cs).takeWhile isWordChar), (c :: cs).dropWhile isWordChar) := by
  have hblank : ¬ Text.isBlank c = true := by simp [not_isBlank_of_isWordStart start]
  rw [nextToken, List.dropWhile_cons_of_neg hblank]
  exact scanToken_of_isWordStart start cs

theorem goesOnBehindDecimal_iff {word : List Char} : GoesOnBehindDecimal word ↔
    ∃ b d c more, word = b :: d :: c :: more ∧ b.toLower = 'b' ∧ d.toLower = 'd' := by
  unfold GoesOnBehindDecimal
  match word with
  | [] => simp
  | [_] => simp
  | [_, _] => simp
  | b :: d :: c :: more => simp

/-- No suffix has more than two letters. -/
theorem IsSuffix.not_goesOnBehindDecimal {word : List Char} (h : IsSuffix word) :
    ¬ GoesOnBehindDecimal word := by
  rintro ⟨-, hlength⟩
  rcases isSuffix_iff.1 h with rfl | ⟨c, rfl, -⟩ | ⟨b, d, rfl, -⟩
  · simp at hlength
  · simp at hlength
  · simp at hlength

/-! ### What is taken as the suffix -/

/-- A word that is no suffix and does not go on behind one for decimals is not touched. -/
theorem scanSuffix_of_not_isSuffix {cs : List Char}
    (noSuffix : ¬ IsSuffix (cs.takeWhile isWordChar))
    (short : ¬ GoesOnBehindDecimal (cs.takeWhile isWordChar)) : scanSuffix cs = ([], cs) := by
  have hdecimal : startsDecimalSuffix cs = false := by
    rw [Bool.eq_false_iff]
    intro hdecimal
    obtain ⟨b, d, rest, rfl, hb, hd⟩ := startsDecimalSuffix_iff.1 hdecimal
    rw [List.takeWhile_cons_of_pos (isWordChar_of_toLower hb (by decide)),
      List.takeWhile_cons_of_pos (isWordChar_of_toLower hd (by decide))] at noSuffix short
    cases hrest : rest.takeWhile isWordChar with
    | nil =>
      rw [hrest] at noSuffix
      exact noSuffix (isSuffix_iff.2 (.inr (.inr ⟨b, d, rfl, hb, hd⟩)))
    | cons c more =>
      rw [hrest] at short
      exact short (goesOnBehindDecimal_iff.2 ⟨b, d, c, more, rfl, hb, hd⟩)
  cases cs with
  | nil => rfl
  | cons c rest =>
    have hint : (isIntSuffix c && !(rest.head?.any isWordChar)) = false := by
      rw [Bool.eq_false_iff]
      intro hint
      rw [Bool.and_eq_true, Bool.not_eq_true'] at hint
      obtain ⟨hint, hhead⟩ := hint
      have stops : StopsAt isWordChar rest := by
        intro d hd
        simpa [hd] using hhead
      rw [List.takeWhile_cons_of_pos (isWordChar_of_isIntSuffix hint),
        stopsAt_iff_takeWhile.1 stops] at noSuffix
      exact noSuffix (isSuffix_iff.2 (.inr (.inl ⟨c, rfl, hint⟩)))
    simp [scanSuffix, hdecimal, hint]

/-- A word that goes on behind `BD` is split there. -/
theorem scanSuffix_of_goesOn {cs : List Char}
    (goesOn : GoesOnBehindDecimal (cs.takeWhile isWordChar)) :
    (scanSuffix cs).1 = (cs.takeWhile isWordChar).take 2 ∧
      (scanSuffix cs).2.takeWhile isWordChar = (cs.takeWhile isWordChar).drop 2 := by
  obtain ⟨b, d, c, more, hword, hb, hd⟩ := goesOnBehindDecimal_iff.1 goesOn
  have hall : (b :: d :: c :: more).all isWordChar = true := hword ▸ List.all_takeWhile
  have hback : (c :: more).all isWordChar = true := by
    simp only [List.all_cons, Bool.and_eq_true] at hall ⊢
    exact hall.2.2
  have stops := stopsAt_dropWhile isWordChar cs
  have hcs : cs.takeWhile isWordChar ++ cs.dropWhile isWordChar = cs :=
    List.takeWhile_append_dropWhile
  generalize cs.dropWhile isWordChar = behind at hcs stops
  rw [hword] at hcs ⊢
  have hdecimal : startsDecimalSuffix cs = true :=
    startsDecimalSuffix_iff.2 ⟨b, d, c :: more ++ behind, hcs.symm, hb, hd⟩
  have hscan : scanSuffix cs = ([b, d], c :: more ++ behind) := by
    unfold scanSuffix
    rw [if_pos hdecimal, ← hcs]
    rfl
  rw [hscan]
  exact ⟨rfl, takeWhile_of_stopsAt hback stops⟩

/-- The word behind the digits decides alone about the suffix. -/
theorem wordBehind_scanSuffix {cs : List Char} (stops : StopsAt Char.isDigit cs) :
    WordBehind (cs.takeWhile isWordChar) (scanSuffix cs).1 (scanSuffix cs).2 := by
  by_cases isSuffix : IsSuffix (cs.takeWhile isWordChar)
  · have stopsBehind := stopsAt_dropWhile isWordChar cs
    have hscan := scanSuffix_of_isSuffix isSuffix stopsBehind
    rw [List.takeWhile_append_dropWhile] at hscan
    rw [hscan]
    exact .taken isSuffix rfl stopsBehind
  by_cases goesOn : GoesOnBehindDecimal (cs.takeWhile isWordChar)
  · obtain ⟨front, back⟩ := scanSuffix_of_goesOn goesOn
    exact .split goesOn front back
  rw [scanSuffix_of_not_isSuffix isSuffix goesOn]
  cases cs with
  | nil => exact absurd (isSuffix_iff.2 (.inl rfl)) isSuffix
  | cons c rest =>
    have hc : isWordChar c = true := by
      by_contra hc
      rw [List.takeWhile_cons_of_neg hc] at isSuffix
      exact isSuffix (isSuffix_iff.2 (.inl rfl))
    have start := isWordStart_of_isWordChar hc (stops c rfl)
    exact .left isSuffix goesOn rfl (nextToken_of_isWordStart start rest)

/-- The suffix ends the word that it stands in unless it is split off that word. -/
theorem WordBehind.stopsAt_iff {word suffix rest : List Char} (h : WordBehind word suffix rest) :
    (suffix ≠ [] → StopsAt isWordChar rest) ↔ ¬ GoesOnBehindDecimal word := by
  cases h with
  | taken isSuffix whole stops => exact ⟨fun _ => isSuffix.not_goesOnBehindDecimal, fun _ _ => stops⟩
  | left noSuffix short none => exact ⟨fun _ => short, fun _ some_ => absurd none some_⟩
  | split goesOn front back =>
    obtain ⟨b, d, c, more, rfl, -⟩ := goesOnBehindDecimal_iff.1 goesOn
    refine ⟨fun ends => ?_, fun short => absurd goesOn short⟩
    have stops := stopsAt_iff_takeWhile.1 (ends (by simp [front]))
    rw [back] at stops
    cases stops

/-! ### Numbers -/

theorem stopsAt_scanFraction {cs : List Char} (stops : StopsAt Char.isDigit cs) :
    StopsAt Char.isDigit (scanFraction cs).2 := by
  unfold scanFraction
  split
  · split
    · exact stopsAt_dropWhile _ _
    · exact stops
  · exact stops

theorem typeSuffix_of_parts {text : String} {digits fraction suffix : List Char}
    (htext : text.toList = digits ++ fraction ++ suffix) (hdigits : digits.all Char.isDigit = true)
    (hfraction : IsFraction fraction) (hsuffix : IsSuffix suffix) : typeSuffix text = suffix := by
  have hstops : StopsAt (fun c => c.isDigit || c == '.') (suffix ++ []) :=
    stopsAt_suffix hsuffix nofun
  have hweaken : ∀ ds : List Char, ds.all Char.isDigit = true →
      ds.all (fun c => c.isDigit || c == '.') = true := by
    intro ds hds
    rw [List.all_eq_true] at hds ⊢
    intro c hc
    rw [hds c hc, Bool.true_or]
  have hnumber : (digits ++ fraction).all (fun c => c.isDigit || c == '.') = true := by
    rw [List.all_append, hweaken digits hdigits, Bool.true_and]
    rcases hfraction with rfl | ⟨ds, rfl, -, hds⟩
    · rfl
    · exact hweaken ds hds
  rw [List.append_nil] at hstops
  rw [typeSuffix, htext]
  exact dropWhile_of_stopsAt hnumber hstops

/-- Only a digit starts a number. -/
theorem isDigit_of_scanToken {c : Char} {cs rest : List Char} {text : String}
    (h : scanToken c cs = .ok (.number text, rest)) : c.isDigit = true := by
  obtain ⟨written, hwritten, isWritten, -⟩ := scanToken_isWritten h
  cases isWritten with
  | number number =>
    obtain ⟨digits, fraction, suffix, htext, hne, hdigits, -⟩ := number
    cases digits with
    | nil => exact absurd rfl hne
    | cons d digits =>
      rw [htext] at hwritten
      obtain ⟨rfl, -⟩ := List.cons.inj hwritten
      exact List.all_eq_true.1 hdigits c List.mem_cons_self

/-- A number that the next step answers stands right before the rest, and its suffix is what is
    taken off the characters behind its digits. -/
theorem exists_behind_of_nextToken {cs rest : List Char} {text : String}
    (h : nextToken cs = .ok (.number text, rest)) :
    text.toList ++ rest <:+ cs ∧ IsSuffix (typeSuffix text) ∧
      ∃ behind, StopsAt Char.isDigit behind ∧ scanSuffix behind = (typeSuffix text, rest) := by
  have hblank := List.dropWhile_suffix (l := cs) Text.isBlank
  unfold nextToken at h
  split at h
  · cases h
  rename_i c more hdrop
  have hc := isDigit_of_scanToken h
  rw [scanToken_of_isDigit hc] at h
  cases h
  let behind := (scanFraction ((c :: more).dropWhile Char.isDigit)).2
  have hsuffix : IsSuffix (scanSuffix behind).1 := isSuffix_scanSuffix behind
  have htype : typeSuffix (String.ofList (scanNumber (c :: more)).1) = (scanSuffix behind).1 :=
    typeSuffix_of_parts String.toList_ofList List.all_takeWhile (isFraction_scanFraction _) hsuffix
  refine ⟨?_, htype ▸ hsuffix, behind, stopsAt_scanFraction (stopsAt_dropWhile _ _), ?_⟩
  · rw [String.toList_ofList, scanNumber_append, ← hdrop]
    exact hblank
  · rw [htype]
    rfl

/-! ### Texts -/

/-- The suffix of a number ends the word that it stands in, if and only if that word does not go on
    behind `BD`.

All tokens of a text that is scanned come one after the other, and a number among those that do is
written right before what follows it, whether or not that can be scanned. The word that starts right
behind its digits becomes its suffix, or else the next token, in both cases as a whole; only `BD` is
taken without what goes on behind it. -/
theorem suffix_endsWord_iff (sql : String) :
    (∀ ts us, ofText sql = .ok (ts ++ us) → us ≠ [] →
      ∃ rest, Emits sql.toList ts rest ∧ scan rest = .ok us) ∧
    ∀ ts text rest, Emits sql.toList (ts ++ [.number text]) rest →
      let word := (typeSuffix text ++ rest).takeWhile isWordChar
      ofText sql = (scan rest).map (ts ++ [.number text] ++ ·) ∧
      text.toList ++ rest <:+ sql.toList ∧
      IsSuffix (typeSuffix text) ∧
      WordBehind word (typeSuffix text) rest ∧
      ((typeSuffix text ≠ [] → StopsAt isWordChar rest) ↔ ¬ GoesOnBehindDecimal word) := by
  refine ⟨fun ts us => exists_emits_of_scan, fun ts text rest emitted => ?_⟩
  intro word
  obtain ⟨before, hbefore, hnext⟩ := emitted.last
  obtain ⟨hplace, hsuffix, behind, stops, hscan⟩ := exists_behind_of_nextToken hnext
  have hbehind : typeSuffix text ++ rest = behind := by
    have happend := scanSuffix_append behind
    rwa [hscan] at happend
  have hword : WordBehind word (typeSuffix text) rest := by
    have hword := wordBehind_scanSuffix stops
    rwa [hscan, ← hbehind] at hword
  exact ⟨emitted.scan_eq_map, hplace.trans hbefore, hsuffix, hword, hword.stopsAt_iff⟩

/-- A decimal in front of a comma, and a word that only starts with the suffix of an integer. -/
theorem suffix_endsWord_selectItems :
    let sql := "SELECT 1.5bd,2Lx"
    let first : List Token := [.keyword .SELECT]
    let second : List Token := [.keyword .SELECT, .number "1.5bd", .mark .comma]
    Emits sql.toList (first ++ [.number "1.5bd"]) [',', '2', 'L', 'x'] ∧
      typeSuffix "1.5bd" = ['b', 'd'] ∧ StopsAt isWordChar [',', '2', 'L', 'x'] ∧
      Emits sql.toList (second ++ [.number "2"]) ['L', 'x'] ∧
      typeSuffix "2" = [] ∧ WordBehind ['L', 'x'] [] ['L', 'x'] ∧
      ofText sql = .ok (second ++ [.number "2"] ++ [.ident "Lx", .eof]) ∧
      ∃ rest, Emits sql.toList (second ++ [.number "2"]) rest ∧
        scan rest = .ok [.ident "Lx", .eof] := by
  intro sql first second
  have hselect : nextToken sql.toList = .ok (.keyword .SELECT, " 1.5bd,2Lx".toList) := by cbv
  have hdecimal : nextToken " 1.5bd,2Lx".toList = .ok (.number "1.5bd", ",2Lx".toList) := by cbv
  have hcomma : nextToken ",2Lx".toList = .ok (.mark .comma, "2Lx".toList) := by cbv
  have hnumber : nextToken "2Lx".toList = .ok (.number "2", "Lx".toList) := by cbv
  have emitted : Emits sql.toList (first ++ [.number "1.5bd"]) ",2Lx".toList :=
    .token hselect (by decide) (.token hdecimal (by decide) (.nothing _))
  have others : Emits ",2Lx".toList [.mark .comma, .number "2"] "Lx".toList :=
    .token hcomma (by decide) (.token hnumber (by decide) (.nothing _))
  have emitted' : Emits sql.toList (second ++ [.number "2"]) "Lx".toList :=
    .token hselect (by decide) (.token hdecimal (by decide) others)
  have scanned : ofText sql = .ok (second ++ [.number "2"] ++ [.ident "Lx", .eof]) := by cbv
  obtain ⟨places, numbers⟩ := suffix_endsWord_iff sql
  obtain ⟨-, -, -, -, ends⟩ := numbers first _ _ emitted
  obtain ⟨-, -, -, behind, -⟩ := numbers second _ _ emitted'
  exact ⟨emitted, by decide, ends.2 (by decide) (by decide), emitted', by decide, behind, scanned,
    places _ _ scanned (List.cons_ne_nil _ _)⟩

/-- A word that starts with `BD` loses its front to the number, where one that starts with `L` is
    left whole. -/
theorem not_endsWord_of_goesOnBehindDecimal :
    Emits "10BDx".toList [.number "10BD"] ['x'] ∧ typeSuffix "10BD" = ['B', 'D'] ∧
      ¬ StopsAt isWordChar ['x'] ∧
      ofText "10BDx" = .ok [.number "10BD", .ident "x", .eof] ∧
      ofText "10Lx" = .ok [.number "10", .ident "Lx", .eof] := by
  have hnext : nextToken "10BDx".toList = .ok (.number "10BD", ['x']) := by cbv
  refine ⟨.token hnext (by decide) (.nothing _), by decide, fun stops => ?_, by cbv, by cbv⟩
  exact absurd (stops 'x' rfl) (by decide)

end SqlGuard.Token
