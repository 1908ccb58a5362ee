import SqlGuard.Proofs.LetterCase.Folding
import SqlGuard.Proofs.Token.Scanned

/-!
# Letter case in texts

Where a string literal stands in a text, and texts that differ in the case of letters outside string
literals. A text whose other letters are put in lower case is scanned as the same tokens, their
names and numbers in lower case. Main statement: `Token.scan_folded`.
-/

namespace SqlGuard

/-! ### Places of a text -/

/-- Where a character of a text stands: outside of quotes, between backticks, in a string literal
    up to its closing quote, or behind a backslash in one. -/
inductive TextPlace where
  | bare
  | backticked
  | quoted (quote : Char)
  | escaped (quote : Char)

namespace TextPlace

/-- The place behind a character. -/
def after : TextPlace → Char → TextPlace
  | bare, c => if c = '\x27' ∨ c = '\x22' then quoted c else if c = '\x60' then backticked else bare
  | backticked, c => if c = '\x60' then bare else backticked
  | quoted quote, c =>
    if c = '\x5c' then escaped quote else if c = quote then bare else quoted quote
  | escaped quote, _ => quoted quote

/-- Whether the place is in a string literal. -/
def inString : TextPlace → Bool
  | bare | backticked => false
  | quoted _ | escaped _ => true

end TextPlace

/-- The characters differ in the case of ASCII letters outside of string literals at most. -/
inductive VariesFrom : TextPlace → List Char → List Char → Prop
  | nil (place : TextPlace) : VariesFrom place [] []
  | same {place : TextPlace} (c : Char) {cs ds : List Char}
      (more : VariesFrom (place.after c) cs ds) : VariesFrom place (c :: cs) (c :: ds)
  | case {place : TextPlace} {c d : Char} {cs ds : List Char} (outside : place.inString = false)
      (letter : c.toLower = d.toLower) (more : VariesFrom (place.after c) cs ds) :
      VariesFrom place (c :: cs) (d :: ds)

/-- The texts differ in the case of ASCII letters outside of string literals at most. -/
def Text.VariesInCase (s t : String) : Prop := VariesFrom .bare s.toList t.toList

/-- The characters, those outside of string literals in lower case. -/
def foldFrom (place : TextPlace) : List Char → List Char
  | [] => []
  | c :: cs => (if place.inString then c else c.toLower) :: foldFrom (place.after c) cs

/-- Quotes are met alike in any letter case. -/
theorem TextPlace.after_toLower {place : TextPlace} (h : place.inString = false) (c : Char) :
    place.after c.toLower = place.after c := by
  have hquote : (c.toLower = '\x27') = (c = '\x27') :=
    propext (toLower_eq_iff (by decide))
  have hquotes : (c.toLower = '\x22') = (c = '\x22') :=
    propext (toLower_eq_iff (by decide))
  have hbacktick : (c.toLower = '\x60') = (c = '\x60') :=
    propext (toLower_eq_iff (by decide))
  cases place with
  | bare =>
    simp only [after, hquote, hquotes, hbacktick]
    split
    · rename_i hc
      rcases hc with rfl | rfl <;> rfl
    · rfl
  | backticked => simp only [after, hbacktick]
  | quoted quote => cases h
  | escaped quote => cases h

theorem TextPlace.after_eq_of_toLower_eq {place : TextPlace} (h : place.inString = false)
    {c d : Char} (letter : c.toLower = d.toLower) : place.after c = place.after d := by
  rw [← after_toLower h, letter, after_toLower h]

/-- Characters vary in case if they are the same with those outside of literals in lower case. -/
theorem variesFrom_iff {place : TextPlace} {cs ds : List Char} :
    VariesFrom place cs ds ↔ foldFrom place cs = foldFrom place ds := by
  constructor
  · intro h
    induction h with
    | nil place => rfl
    | same c more ih => rw [foldFrom, foldFrom, ih]
    | case outside letter more ih =>
      rw [TextPlace.after_eq_of_toLower_eq outside letter] at ih
      simp only [foldFrom, TextPlace.after_eq_of_toLower_eq outside letter, ih, outside, letter,
        Bool.false_eq_true, if_false]
  · intro h
    induction cs generalizing place ds with
    | nil =>
      cases ds with
      | nil => exact .nil place
      | cons d ds => cases h
    | cons c cs ih =>
      cases ds with
      | nil => cases h
      | cons d ds =>
        obtain ⟨hfirst, hmore⟩ := List.cons.inj h
        cases hplace : place.inString with
        | true =>
          simp only [hplace, if_true] at hfirst
          subst hfirst
          exact .same c (ih hmore)
        | false =>
          simp only [hplace, Bool.false_eq_true, if_false] at hfirst
          rw [← TextPlace.after_eq_of_toLower_eq hplace hfirst] at hmore
          exact .case hplace hfirst (ih hmore)

instance (s t : String) : Decidable (Text.VariesInCase s t) :=
  decidable_of_iff (foldFrom .bare s.toList = foldFrom .bare t.toList) variesFrom_iff.symm

/-! ### Scanners -/

namespace Token

/-- The characters behind which no quotes are open. -/
def IsBare (c : Char) : Prop := TextPlace.bare.after c = .bare

theorem foldFrom_bare_cons {c : Char} (h : IsBare c) (cs : List Char) :
    foldFrom .bare (c :: cs) = c.toLower :: foldFrom .bare cs := by
  rw [foldFrom, h]
  rfl

/-- No quotes are of the kind, so that they are not open behind a character of it. -/
theorem isBare_of {p : Char → Bool} (single : p '\x27' = false) (double : p '\x22' = false)
    (backtick : p '\x60' = false) (c : Char) (h : p c = true) : IsBare c := by
  have hne : ∀ d, p d = false → c ≠ d := by
    rintro d hd rfl
    rw [h] at hd
    cases hd
  rw [IsBare, TextPlace.after, if_neg (not_or.2 ⟨hne _ single, hne _ double⟩),
    if_neg (hne _ backtick)]

theorem isBare_of_isDigit (c : Char) : c.isDigit = true → IsBare c :=
  isBare_of (by decide) (by decide) (by decide) c

theorem isBare_of_isAlpha (c : Char) : c.isAlpha = true → IsBare c :=
  isBare_of (by decide) (by decide) (by decide) c

theorem head?_foldFrom_bare (cs : List Char) :
    (foldFrom .bare cs).head? = cs.head?.map Char.toLower := by
  cases cs <;> rfl

/-- Characters of a kind that has no letter case are taken alike off the front. -/
theorem span_foldFrom {p : Char → Bool} (hp : ∀ c, p c.toLower = p c)
    (bare : ∀ c, p c = true → IsBare c) (cs : List Char) :
    (foldFrom .bare cs).takeWhile p = (cs.takeWhile p).map Char.toLower ∧
      (foldFrom .bare cs).dropWhile p = foldFrom .bare (cs.dropWhile p) := by
  induction cs with
  | nil => exact ⟨rfl, rfl⟩
  | cons c cs ih =>
    cases h : p c with
    | true =>
      rw [foldFrom_bare_cons (bare c h), List.takeWhile_cons_of_pos h, List.dropWhile_cons_of_pos h,
        List.takeWhile_cons_of_pos ((hp c).trans h), List.dropWhile_cons_of_pos ((hp c).trans h),
        ih.1, ih.2]
      exact ⟨rfl, rfl⟩
    | false =>
      have hhead : foldFrom .bare (c :: cs) = c.toLower :: foldFrom (TextPlace.bare.after c) cs :=
        rfl
      have hfalse : ¬ p c = true := by simp [h]
      have hfalse' : ¬ p c.toLower = true := by simp [hp, h]
      rw [List.takeWhile_cons_of_neg hfalse, List.dropWhile_cons_of_neg hfalse, hhead,
        List.takeWhile_cons_of_neg hfalse', List.dropWhile_cons_of_neg hfalse']
      exact ⟨rfl, rfl⟩

theorem scanQuoted_foldFrom {quote : Char} (isQuote : quote = '\x27' ∨ quote = '\x22')
    (cs : List Char) :
    scanQuoted quote (foldFrom (.quoted quote) cs) =
      (scanQuoted quote cs).map fun (body, rest) => (body, foldFrom .bare rest) := by
  have noSlash : quote ≠ '\x5c' := by rcases isQuote with rfl | rfl <;> decide
  have hcons : ∀ c cs, foldFrom (.quoted quote) (c :: cs) =
      c :: foldFrom (TextPlace.after (.quoted quote) c) cs := fun _ _ => rfl
  have hscan : ∀ c cs, c ≠ '\x5c' → scanQuoted quote (c :: cs) =
      if c = quote then some ([c], cs)
      else (scanQuoted quote cs).map fun (body, rest) => (c :: body, rest) := by
    intro c cs hc
    rw [scanQuoted, if_neg hc]
    intro c' cs' heq
    exact absurd heq hc
  induction cs using scanQuoted.induct quote with
  | case1 => rfl
  | case2 c cs ih =>
    have hescape : foldFrom (.quoted quote) ('\x5c' :: c :: cs) =
        '\x5c' :: c :: foldFrom (.quoted quote) cs := rfl
    rw [hescape, scanQuoted, scanQuoted, ih]
    cases scanQuoted quote cs <;> rfl
  | case3 cs hescape =>
    cases cs with
    | nil => rfl
    | cons c cs => exact absurd rfl (hescape c cs rfl)
  | case4 cs hescape hslash =>
    have hclose : TextPlace.after (.quoted quote) quote = .bare := by
      rw [TextPlace.after, if_neg noSlash, if_pos rfl]
    rw [hcons, hclose, hscan _ _ noSlash, hscan _ _ noSlash, if_pos rfl, if_pos rfl]
    rfl
  | case5 c cs hescape hslash hquote ih =>
    have hnext : TextPlace.after (.quoted quote) c = .quoted quote := by
      rw [TextPlace.after, if_neg hslash, if_neg hquote]
    rw [hcons, hnext, hscan _ _ hslash, hscan _ _ hslash, if_neg hquote, if_neg hquote, ih]
    cases scanQuoted quote cs <;> rfl

theorem scanBackticked_foldFrom (cs : List Char) :
    scanBackticked (foldFrom .backticked cs) =
      (scanBackticked cs).map fun (body, rest) => (body.map Char.toLower, foldFrom .bare rest) := by
  induction cs with
  | nil => rfl
  | cons c cs ih =>
    have hcons : foldFrom .backticked (c :: cs) =
        c.toLower :: foldFrom (TextPlace.after .backticked c) cs := rfl
    have hbacktick := toLower_eq_iff (c := c) (d := '\x60') (by decide)
    rw [hcons, scanBackticked, scanBackticked]
    by_cases hc : c = '\x60'
    · rw [if_pos (hbacktick.2 hc), if_pos hc, TextPlace.after, if_pos hc]
      rfl
    · rw [if_neg (mt hbacktick.1 hc), if_neg hc, TextPlace.after, if_neg hc, ih]
      cases scanBackticked cs <;> rfl

/-! ### Numbers -/

theorem scanFraction_foldFrom (cs : List Char) :
    scanFraction (foldFrom .bare cs) =
      ((scanFraction cs).1.map Char.toLower, foldFrom .bare (scanFraction cs).2) := by
  have hpoint : IsBare '.' := rfl
  by_cases h : ∃ d ds, cs = '.' :: d :: ds ∧ d.isDigit = true
  · obtain ⟨d, ds, rfl, hd⟩ := h
    obtain ⟨htake, hdrop⟩ := span_foldFrom isDigit_toLower isBare_of_isDigit (d :: ds)
    rw [foldFrom_bare_cons (isBare_of_isDigit d hd)] at htake hdrop
    rw [foldFrom_bare_cons hpoint, foldFrom_bare_cons (isBare_of_isDigit d hd),
      scanFraction_point hd, toLower_eq_self (by decide),
      scanFraction_point ((isDigit_toLower d).trans hd), htake, hdrop]
    rfl
  · have hnone : ∀ d ds, cs = '.' :: d :: ds → d.isDigit = false :=
      fun d ds hcs => Bool.eq_false_iff.2 fun hd => h ⟨d, ds, hcs, hd⟩
    have hnone' : ∀ d ds, foldFrom .bare cs = '.' :: d :: ds → d.isDigit = false := by
      intro d ds hfold
      match cs, hfold with
      | [c], hfold => cases (List.cons.inj hfold).2
      | c :: c' :: cs, hfold =>
        obtain ⟨hc, htail⟩ := List.cons.inj hfold
        obtain rfl := (toLower_eq_iff (by decide)).1 hc
        obtain ⟨hd, -⟩ := List.cons.inj htail
        rw [← hd]
        exact (isDigit_toLower c').trans (hnone c' cs rfl)
    rw [scanFraction_none hnone, scanFraction_none hnone']
    rfl

theorem startsDecimalSuffix_foldFrom (c : Char) (cs : List Char) :
    startsDecimalSuffix (c.toLower :: foldFrom .bare cs) = startsDecimalSuffix (c :: cs) := by
  cases cs with
  | nil => rfl
  | cons d ds =>
    show (c.toLower.toLower == 'b' && d.toLower.toLower == 'd') = _
    rw [toLower_toLower, toLower_toLower]
    rfl

@[simp]
theorem isIntSuffix_toLower (c : Char) : isIntSuffix c.toLower = isIntSuffix c := by
  rw [isIntSuffix, isIntSuffix, toLower_toLower]

/-- A suffix starts with a letter. -/
theorem scanSuffix_none {c : Char} (h : c.isAlpha = false) (cs : List Char) :
    scanSuffix (c :: cs) = ([], c :: cs) := by
  have noLetter : ∀ d : Char, d.isAlpha = true → c.toLower ≠ d := by
    intro d hd hc
    rw [isAlpha_of_toLower hc hd] at h
    cases h
  have noDecimal : ¬ startsDecimalSuffix (c :: cs) = true := by
    rw [startsDecimalSuffix_iff]
    rintro ⟨b, d, rest, hcs, hb, -⟩
    cases hcs
    exact noLetter 'b' (by decide) hb
  have noInt : isIntSuffix c = false := by
    rw [isIntSuffix, Bool.eq_false_iff, ne_eq, List.contains_iff_mem]
    intro hmem
    have areLetters : ['l', 's', 'y'].all Char.isAlpha = true := rfl
    exact noLetter _ (List.all_eq_true.1 areLetters _ hmem) rfl
  simp [scanSuffix, noDecimal, noInt]

theorem scanSuffix_foldFrom (cs : List Char) :
    scanSuffix (foldFrom .bare cs) =
      ((scanSuffix cs).1.map Char.toLower, foldFrom .bare (scanSuffix cs).2) := by
  cases cs with
  | nil => rfl
  | cons c cs =>
  cases hc : c.isAlpha with
  | false =>
    have hcons : foldFrom .bare (c :: cs) = c.toLower :: foldFrom (TextPlace.bare.after c) cs := rfl
    rw [scanSuffix_none hc, hcons, scanSuffix_none ((isAlpha_toLower c).trans hc)]
    rfl
  | true =>
  have hcons := foldFrom_bare_cons (isBare_of_isAlpha c hc) cs
  rw [hcons, scanSuffix, scanSuffix, startsDecimalSuffix_foldFrom]
  split
  · rename_i hdecimal
    obtain ⟨b, d, rest, hcs, hb, hd⟩ := startsDecimalSuffix_iff.1 hdecimal
    cases hcs
    rw [foldFrom_bare_cons (isBare_of_isAlpha d (isAlpha_of_toLower hd (by decide)))]
    rfl
  · have hany : (cs.head?.map Char.toLower).any isWordChar = cs.head?.any isWordChar := by
      cases cs <;> simp
    simp only [isIntSuffix_toLower, head?_foldFrom_bare, hany]
    split
    · rfl
    · exact congrArg (Prod.mk []) hcons.symm

theorem scanNumber_foldFrom (cs : List Char) :
    scanNumber (foldFrom .bare cs) =
      ((scanNumber cs).1.map Char.toLower, foldFrom .bare (scanNumber cs).2) := by
  obtain ⟨htake, hdrop⟩ := span_foldFrom isDigit_toLower isBare_of_isDigit cs
  simp only [scanNumber, htake, hdrop, scanFraction_foldFrom, scanSuffix_foldFrom, List.map_append]

/-! ### Tokens -/

theorem ofWord_map (word : List Char) : ofWord (word.map Char.toLower) = (ofWord word).folded := by
  have hword : Keyword.ofWord? (word.map Char.toLower) = Keyword.ofWord? word := by
    simp [Keyword.ofWord?, Function.comp_def]
  unfold ofWord
  rw [hword]
  cases Keyword.ofWord? word with
  | some k => rfl
  | none => simp [Token.folded, Text.folded, Text.asciiFold]

theorem toLower_of_not_isAlpha {c : Char} (h : c.isAlpha = false) : c.toLower = c :=
  toLower_eq_self (Bool.or_eq_false_iff.1 h).1

/-- A comparison looks at the character behind its first one, which is no letter. -/
theorem scanComparison_foldFrom (c : Char) (cs : List Char) :
    scanComparison c (foldFrom .bare cs) =
      (scanComparison c cs).map fun (m, rest) => (m, foldFrom .bare rest) := by
  cases cs with
  | nil =>
    unfold scanComparison
    split <;> simp_all [foldFrom]
  | cons d ds =>
    have hmark : ∀ m, m = '=' ∨ m = '>' → (d.toLower = m ↔ d = m) := by
      rintro m (rfl | rfl) <;> exact toLower_eq_iff (by decide)
    by_cases hd : d = '=' ∨ d = '>'
    · have hfold : foldFrom .bare (d :: ds) = d :: foldFrom .bare ds := by
        rcases hd with rfl | rfl <;> rfl
      rw [hfold]
      unfold scanComparison
      split <;> simp_all
    · have hfold : foldFrom .bare (d :: ds) = d.toLower :: foldFrom (TextPlace.bare.after d) ds :=
        rfl
      have hd' : ¬ (d.toLower = '=' ∨ d.toLower = '>') := by
        rwa [hmark _ (.inl rfl), hmark _ (.inr rfl)]
      have hother : ∀ {d : Char} (ds : List Char), ¬ (d = '=' ∨ d = '>') →
          scanComparison c (d :: ds) =
            if c = '<' then some (.lt, d :: ds)
            else if c = '>' then some (.gt, d :: ds)
            else none := by
        intro d ds hd
        unfold scanComparison
        split <;> simp_all
      rw [hfold, hother _ hd, hother _ hd', ← hfold]
      split
      · rfl
      · split <;> rfl

theorem scanToken_foldFrom (c : Char) (cs : List Char) :
    scanToken c.toLower (foldFrom (TextPlace.bare.after c) cs) =
      (scanToken c cs).map fun (t, rest) => (t.folded, foldFrom .bare rest) := by
  by_cases hquote : c = '\x27' ∨ c = '\x22'
  · have hlower : c.toLower = c := by rcases hquote with rfl | rfl <;> rfl
    have hafter : TextPlace.bare.after c = .quoted c := if_pos hquote
    simp only [scanToken, hlower, hafter, if_pos hquote, scanQuoted_foldFrom hquote]
    cases scanQuoted c cs <;> rfl
  have hquote' : ¬ (c.toLower = '\x27' ∨ c.toLower = '\x22') := by
    rwa [toLower_eq_iff (by decide), toLower_eq_iff (by decide)]
  by_cases hbacktick : c = '\x60'
  · subst hbacktick
    have hafter : TextPlace.bare.after '\x60' = .backticked := rfl
    have hlower : Char.toLower '\x60' = '\x60' := rfl
    simp only [scanToken, hlower, hafter, if_neg hquote, if_true, scanBackticked_foldFrom]
    cases scanBackticked cs with
    | none => rfl
    | some p => simp [Except.map, Token.folded, Text.folded, Text.asciiFold]
  have hbacktick' : ¬ c.toLower = '\x60' := by rwa [toLower_eq_iff (by decide)]
  have hbare : IsBare c := by rw [IsBare, TextPlace.after, if_neg hquote, if_neg hbacktick]
  rw [show TextPlace.bare.after c = .bare from hbare]
  have hcons := foldFrom_bare_cons hbare cs
  simp only [scanToken, if_neg hquote, if_neg hquote', if_neg hbacktick, if_neg hbacktick',
    isDigit_toLower, isWordStart_toLower, ← hcons]
  split
  · rw [scanNumber_foldFrom]
    simp [Except.map, Token.folded, Text.folded, Text.asciiFold]
  split
  · obtain ⟨htake, hdrop⟩ := span_foldFrom isWordChar_toLower
      (isBare_of (by decide) (by decide) (by decide)) (c :: cs)
    rw [htake, hdrop, ofWord_map]
    rfl
  · rename_i noWord
    have hlower : c.toLower = c :=
      toLower_of_not_isAlpha (Bool.or_eq_false_iff.1 (Bool.eq_false_iff.2 noWord)).1
    rw [hlower]
    cases markOf? c with
    | some m => rfl
    | none =>
      simp only [scanComparison_foldFrom]
      cases scanComparison c cs <;> rfl

/-! ### Texts -/

/-- A text whose letters outside of string literals are put in lower case is scanned as the same
    tokens, their names and numbers in lower case. -/
theorem scan_folded (cs : List Char) :
    scan (foldFrom .bare cs) = (scan cs).map (List.map Token.folded) := by
  obtain ⟨-, hdrop⟩ := span_foldFrom isBlank_toLower
    (isBare_of (by decide) (by decide) (by decide)) cs
  rw [scan_eq, scan_eq cs, hdrop]
  match hcs : cs.dropWhile Text.isBlank with
  | [] => rfl
  | c :: rest =>
    have hcons : foldFrom .bare (c :: rest) = c.toLower :: foldFrom (TextPlace.bare.after c) rest :=
      rfl
    simp only [hcons, scanToken_foldFrom]
    match htoken : scanToken c rest with
    | .error e => rfl
    | .ok (t, rest') =>
      have hless : rest'.length < cs.length := by
        have hshorter := scanToken_shorter htoken
        have hblank := (List.dropWhile_sublist Text.isBlank (l := cs)).length_le
        rw [hcs] at hblank
        omega
      simp only [Except.map, bind, Except.bind, scan_folded rest']
      cases scan rest' <;> rfl
termination_by cs.length

/-- Texts that differ in letter case outside of string literals are scanned alike. -/
theorem ofText_of_variesInCase {sql sql' : String} (varies : Text.VariesInCase sql sql') :
    Mirrors id (fun ts ts' => ts.map Token.folded = ts'.map Token.folded) (ofText sql)
      (ofText sql') := by
  refine .of_map_eq ?_
  rw [ofText, ofText, ← scan_folded, ← scan_folded, variesFrom_iff.1 varies]

end Token

end SqlGuard
