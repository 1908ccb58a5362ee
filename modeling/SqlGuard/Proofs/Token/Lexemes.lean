import Mathlib
import SqlGuard.Proofs.Token.Scanned

/-!
# How a text is laid out

A text that is scanned is made of the texts of its tokens, one after the other, with white space
between them or around them, and of nothing else. What the text of a token looks like is said apart
from how it is scanned. Main statement: `Token.laidOut_ofText`.
-/

namespace SqlGuard

/-- The texts that a mark is written with. -/
def Mark.spellings : Mark → List String
  | asterisk => ["*"]
  | comma => [","]
  | semicolon => [";"]
  | dot => ["."]
  | lparen => ["("]
  | rparen => [")"]
  | eq => ["="]
  | ne => ["!=", "<>"]
  | lt => ["<"]
  | le => ["<="]
  | gt => [">"]
  | ge => [">="]
  | plus => ["+"]
  | minus => ["-"]
  | slash => ["/"]

namespace Token

/-- A word: a letter or an underscore, with letters, digits and underscores behind it. -/
def IsWord (cs : List Char) : Prop :=
  ∃ c more, cs = c :: more ∧ isWordStart c = true ∧ more.all isWordChar = true

/-- The characters are a text of the token: a keyword in any case, a name as it is or between
    backticks, a number or a string as it is, and a mark. -/
inductive IsWritten : Token → List Char → Prop
  | keyword (k : Keyword) {cs : List Char} (letters : cs.map Char.toLower = k.letters) :
      IsWritten (.keyword k) cs
  | name {cs : List Char} (word : IsWord cs)
      (noKeyword : ∀ k : Keyword, cs.map Char.toLower ≠ k.letters) :
      IsWritten (.ident (String.ofList cs)) cs
  | backticked {cs : List Char} (noBacktick : '\x60' ∉ cs) :
      IsWritten (.ident (String.ofList cs)) ('\x60' :: (cs ++ ['\x60']))
  | number {text : String} (number : IsNumber text) : IsWritten (.number text) text.toList
  | string {text : String} (quoted : IsQuoted text) : IsWritten (.string text) text.toList
  | mark (m : Mark) {text : String} (spelled : text ∈ m.spellings) :
      IsWritten (.mark m) text.toList

/-- The characters are texts of the tokens in their order, with white space anywhere between them,
    before them and behind them. A word goes as far as its characters do. -/
inductive LaidOut : List Char → List Token → Prop
  | blank {cs : List Char} (blank : cs.all Text.isBlank = true) : LaidOut cs []
  | token {before cs rest : List Char} {t : Token} {ts : List Token}
      (blank : before.all Text.isBlank = true) (written : t.IsWritten cs)
      (whole : IsWord cs → StopsAt isWordChar rest) (more : LaidOut rest ts) :
      LaidOut (before ++ (cs ++ rest)) (t :: ts)

/-! ### Single tokens -/

theorem letters_of_ofWord? {cs : List Char} {k : Keyword} (h : Keyword.ofWord? cs = some k) :
    cs.map Char.toLower = k.letters := by
  unfold Keyword.ofWord? at h
  have found := List.find?_some h
  exact (beq_iff_eq.1 found).symm

theorem ne_letters_of_ofWord? {cs : List Char} (h : Keyword.ofWord? cs = none) (k : Keyword) :
    cs.map Char.toLower ≠ k.letters := by
  intro hletters
  exact List.find?_eq_none.1 h k k.mem_all (beq_iff_eq.2 hletters.symm)

theorem isWritten_ofWord {cs : List Char} (word : IsWord cs) : (ofWord cs).IsWritten cs := by
  unfold ofWord
  cases hword : Keyword.ofWord? cs with
  | some k => exact .keyword k (letters_of_ofWord? hword)
  | none => exact .name word (ne_letters_of_ofWord? hword)

theorem isWritten_markOf? {c : Char} {m : Mark} (h : markOf? c = some m) :
    (Token.mark m).IsWritten [c] := by
  have spelled : String.ofList [c] ∈ m.spellings := by
    unfold markOf? at h
    split at h <;> cases h <;> decide
  rw [← String.toList_ofList (l := [c])]
  exact .mark m spelled

theorem isWritten_scanComparison {c : Char} {cs rest : List Char} {m : Mark}
    (h : scanComparison c cs = some (m, rest)) :
    ∃ more, cs = more ++ rest ∧ (Token.mark m).IsWritten (c :: more) := by
  have hmark : ∀ text ∈ m.spellings, (Token.mark m).IsWritten text.toList := fun _ => .mark m
  unfold scanComparison at h
  split at h <;> cases h
  · exact ⟨['='], rfl, hmark "!=" (by decide)⟩
  · exact ⟨['='], rfl, hmark "<=" (by decide)⟩
  · exact ⟨['>'], rfl, hmark "<>" (by decide)⟩
  · exact ⟨[], rfl, hmark "<" (by decide)⟩
  · exact ⟨['='], rfl, hmark ">=" (by decide)⟩
  · exact ⟨[], rfl, hmark ">" (by decide)⟩

theorem not_isWord {c : Char} {cs : List Char} (h : isWordStart c = false) :
    ¬ IsWord (c :: cs) := by
  rintro ⟨d, more, heq, start, -⟩
  cases heq
  rw [h] at start
  cases start

theorem isWritten_scanQuoted {c : Char} {cs body rest : List Char}
    (hquote : c = '\x27' ∨ c = '\x22') (h : scanQuoted c cs = some (body, rest)) :
    cs = body ++ rest ∧ (Token.string (String.ofList (c :: body))).IsWritten (c :: body) := by
  obtain ⟨inner, escaped, rfl, rfl⟩ := scanQuoted_eq_some h
  have written := IsWritten.string ⟨c, inner, hquote, escaped, String.toList_ofList⟩
  rw [String.toList_ofList] at written
  exact ⟨rfl, written⟩

/-- A number starts with a digit, so it is no word. -/
theorem isWritten_scanNumber {c : Char} (hdigit : c.isDigit = true) (cs : List Char) :
    (Token.number (String.ofList (scanNumber (c :: cs)).1)).IsWritten (scanNumber (c :: cs)).1 ∧
      ¬ IsWord (scanNumber (c :: cs)).1 := by
  have written := IsWritten.number (isNumber_scanNumber hdigit cs)
  rw [String.toList_ofList] at written
  refine ⟨written, ?_⟩
  rintro ⟨d, more, htext, start, -⟩
  have happend := scanNumber_append (c :: cs)
  rw [htext] at happend
  obtain rfl : d = c := (List.cons.inj happend).1
  have := toNat_of_isDigit hdigit
  have := toNat_of_isWordStart start
  omega

/-- A token takes a text of its own off the front, and a word is taken as a whole. -/
theorem scanToken_isWritten {c : Char} {cs rest : List Char} {t : Token}
    (h : scanToken c cs = .ok (t, rest)) :
    ∃ text, c :: cs = text ++ rest ∧ t.IsWritten text ∧
      (IsWord text → StopsAt isWordChar rest) := by
  cases scanToken_eq_ok_iff.1 h with
  | @string body _ quote closed =>
    have noWord : isWordStart c = false := by rcases quote with rfl | rfl <;> decide
    obtain ⟨rfl, written⟩ := isWritten_scanQuoted quote closed
    exact ⟨c :: body, rfl, written, fun word => absurd word (not_isWord noWord)⟩
  | @backticked body _ backtick closed =>
    obtain ⟨noBacktick, rfl⟩ := scanBackticked_eq_some closed
    refine ⟨'\x60' :: (body ++ ['\x60']), ?_, .backticked noBacktick, ?_⟩
    · rw [backtick, List.cons_append, List.append_assoc]
      rfl
    · exact fun word => absurd word (not_isWord (by decide))
  | number digit =>
    obtain ⟨written, noWord⟩ := isWritten_scanNumber digit cs
    exact ⟨_, (scanNumber_append (c :: cs)).symm, written, fun word => absurd word noWord⟩
  | word start =>
    have word : IsWord ((c :: cs).takeWhile isWordChar) :=
      ⟨c, cs.takeWhile isWordChar, List.takeWhile_cons_of_pos (isWordChar_of_isWordStart start),
        start, List.all_takeWhile⟩
    exact ⟨_, (List.takeWhile_append_dropWhile).symm, isWritten_ofWord word,
      fun _ => stopsAt_dropWhile _ _⟩
  | mark single =>
    have noWord : isWordStart c = false := by
      unfold markOf? at single
      split at single <;> first | decide | cases single
    exact ⟨[c], rfl, isWritten_markOf? single, fun word => absurd word (not_isWord noWord)⟩
  | comparison scanned =>
    have noWord : isWordStart c = false := by
      unfold scanComparison at scanned
      split at scanned <;> first | decide | cases scanned
    obtain ⟨more, rfl, written⟩ := isWritten_scanComparison scanned
    exact ⟨c :: more, rfl, written, fun word => absurd word (not_isWord noWord)⟩

/-! ### Whole texts -/

theorem IsWritten.ne_eof {t : Token} {cs : List Char} (h : t.IsWritten cs) : t ≠ .eof := by
  cases h <;> exact Token.noConfusion

theorem LaidOut.noEnd {cs : List Char} {ts : List Token} (h : LaidOut cs ts) : .eof ∉ ts := by
  induction h with
  | blank => exact List.not_mem_nil
  | token _ written _ _ ih =>
    rw [List.mem_cons, not_or]
    exact ⟨written.ne_eof.symm, ih⟩

/-- What is scanned is laid out as its tokens up to the end. -/
theorem laidOut_scan {cs : List Char} {ts : List Token} (h : scan cs = .ok ts) :
    ∃ us, ts = us ++ [.eof] ∧ LaidOut cs us := by
  rcases scan_eq_ok h with
    ⟨hdrop, rfl⟩ | ⟨c, more, t, rest, us, hdrop, htoken, hshorter, hrest, rfl⟩
  · have hcs := List.takeWhile_append_dropWhile (p := Text.isBlank) (l := cs)
    rw [hdrop, List.append_nil] at hcs
    rw [← hcs]
    exact ⟨[], rfl, .blank List.all_takeWhile⟩
  · obtain ⟨us, rfl, laidOut⟩ := laidOut_scan hrest
    obtain ⟨text, htext, written, whole⟩ := scanToken_isWritten htoken
    have hcs : cs.takeWhile Text.isBlank ++ (text ++ rest) = cs := by
      rw [← htext, ← hdrop, List.takeWhile_append_dropWhile]
    rw [← hcs]
    exact ⟨t :: us, rfl, .token List.all_takeWhile written whole laidOut⟩
termination_by cs.length

/-- The tokens of a text end with the only end, and those before it are what the text is laid out
    as. -/
theorem laidOut_ofText {sql : String} {ts : List Token} (h : ofText sql = .ok ts) :
    ∃ us, ts = us ++ [.eof] ∧ .eof ∉ us ∧ LaidOut sql.toList us := by
  obtain ⟨us, hts, laidOut⟩ := laidOut_scan h
  exact ⟨us, hts, laidOut.noEnd, laidOut⟩

/-- A keyword in mixed case, a backticked name, numbers with and without a suffix, a string with an
    escape, and marks with and without white space around them. -/
theorem laidOut_ofText_mixed :
    let sql := "Select\t`a b`,x.y<>1.5L2 \n='it\\'s'"
    let us : List Token := [.keyword .SELECT, .ident "a b", .mark .comma, .ident "x", .mark .dot,
      .ident "y", .mark .ne, .number "1.5", .ident "L2", .mark .eq, .string "'it\\'s'"]
    ofText sql = .ok (us ++ [.eof]) ∧ .eof ∉ us ∧ LaidOut sql.toList us := by
  intro sql us
  have scanned : ofText sql = .ok (us ++ [.eof]) := by cbv
  obtain ⟨us', same, noEnd, laidOut⟩ := laidOut_ofText scanned
  cases List.append_cancel_right same
  exact ⟨scanned, noEnd, laidOut⟩

end Token

end SqlGuard
