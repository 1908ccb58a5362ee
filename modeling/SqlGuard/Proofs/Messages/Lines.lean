import Mathlib.Data.List.Basic
import SqlGuard.Grammar.Statement
import SqlGuard.Proofs.Token.Lexemes

/-!
# Texts on one line

Texts without line breaks, and the tokens of such a text. A message shows a token with its line
breaks escaped, so that a text is refused by the scanner and by the grammar with a message on one
line, whatever the text is. Main statements: `Token.isLine_of_scan` and
`ParseError.isLine_message`.
-/

namespace SqlGuard

namespace Text

/-- The text has no line break. -/
def IsLine (text : String) : Prop := '\n' ∉ text.toList

instance (text : String) : Decidable (IsLine text) := inferInstanceAs (Decidable (_ ∉ _))

theorem isLine_append {a b : String} : IsLine (a ++ b) ↔ IsLine a ∧ IsLine b := by
  rw [IsLine, String.toList_append, List.mem_append, not_or]
  rfl

theorem IsLine.append {a b : String} (ha : IsLine a) (hb : IsLine b) : IsLine (a ++ b) :=
  isLine_append.2 ⟨ha, hb⟩

theorem isLine_ofList {cs : List Char} : IsLine (String.ofList cs) ↔ '\n' ∉ cs := by
  rw [IsLine, String.toList_ofList]

/-! ### Numbers and escapes -/

/-- Digits are no line breaks. -/
theorem isLine_toDigits {base : Nat} (hbase : 1 < base) (n : Nat) :
    IsLine (String.ofList (Nat.toDigits base n)) := by
  rw [isLine_ofList]
  induction n using Nat.strong_induction_on with
  | _ n ih =>
    have hdigit : ∀ d : Nat, '\n' ∉ [d.digitChar] := fun d hd =>
      Nat.digitChar_ne '\n' (by decide) (List.mem_singleton.1 hd).symm
    rw [Nat.toDigits_eq_if hbase]
    split
    · exact hdigit n
    · rename_i hn
      have hless : n / base < n := Nat.div_lt_self (by omega) hbase
      exact List.not_mem_append (ih _ hless) (hdigit _)

theorem isLine_natToString (n : Nat) : IsLine (toString n) := by
  rw [Nat.toString_eq_ofList_toDigits]
  exact isLine_toDigits (by decide) n

/-- A line break between quotes is escaped. -/
theorem isLine_escaped (c : Char) : IsLine (escaped c) := by
  by_cases hbreak : c = '\n'
  · rw [hbreak]
    decide
  · have hc : IsLine c.toString :=
      isLine_ofList.2 fun hmem => hbreak (List.mem_singleton.1 hmem).symm
    have hcode : IsLine ("\\u\x7b" ++ hexDigits c.toNat ++ "\x7d") :=
      (IsLine.append (by decide) (isLine_toDigits (by decide) _)).append (by decide)
    unfold escaped
    split
    case h_7 =>
      split
      · exact hcode
      · exact hc
    all_goals decide

theorem isLine_quoted (text : String) : IsLine (quoted text) := by
  have hbody : IsLine (String.join (text.toList.map escaped)) := by
    intro hmem
    rw [String.toList_join, List.mem_flatMap] at hmem
    obtain ⟨piece, hpiece, hbreak⟩ := hmem
    obtain ⟨c, -, rfl⟩ := List.mem_map.1 hpiece
    exact isLine_escaped c hbreak
  exact ((by decide : IsLine "\"").append hbody).append (by decide)

/-- Cutting white space off a text adds no line break. -/
theorem IsLine.trim {text : String} (line : IsLine text) : IsLine (trim text) := by
  rw [Text.trim, isLine_ofList]
  intro hmem
  have hlist : '\n' ∈ (trimStart (trimStart text.toList).reverse).reverse := hmem
  rw [List.mem_reverse] at hlist
  have hinner := List.mem_reverse.1 ((List.dropWhile_sublist _).mem hlist)
  exact line ((List.dropWhile_sublist _).mem hinner)

end Text

/-! ### Tokens -/

/-- The name or the literal has no line break. -/
def Token.IsLine : Token → Prop
  | .ident name => Text.IsLine name
  | .number text | .string text => Text.IsLine text
  | _ => True

namespace Token

theorem IsWritten.isLine {t : Token} {cs : List Char} (h : t.IsWritten cs) (line : '\n' ∉ cs) :
    t.IsLine := by
  cases h with
  | keyword | mark => trivial
  | name => exact Text.isLine_ofList.2 line
  | backticked =>
    refine Text.isLine_ofList.2 fun hmem => line ?_
    exact List.mem_cons_of_mem _ (List.mem_append_left _ hmem)
  | number | string => exact line

theorem LaidOut.isLine {cs : List Char} {ts : List Token} (h : LaidOut cs ts) (line : '\n' ∉ cs) :
    ∀ t ∈ ts, t.IsLine := by
  induction h with
  | blank => exact List.forall_mem_nil _
  | token _ written _ _ ih =>
    simp only [List.mem_append, not_or] at line
    obtain ⟨-, htext, hrest⟩ := line
    exact List.forall_mem_cons.2 ⟨written.isLine htext, ih hrest⟩

/-- The tokens of a text without line breaks have none. -/
theorem isLine_of_scan {cs : List Char} {ts : List Token} (line : '\n' ∉ cs)
    (h : scan cs = .ok ts) : ∀ t ∈ ts, t.IsLine := by
  obtain ⟨us, rfl, laidOut⟩ := laidOut_scan h
  exact List.forall_mem_append.2 ⟨laidOut.isLine line, List.forall_mem_singleton.2 trivial⟩

/-- Tokens are shown on one line, also those that have line breaks. -/
theorem isLine_shown (t : Token) : Text.IsLine t.shown := by
  cases t with
  | keyword k => cases k <;> decide
  | mark m => cases m <;> decide
  | ident text | number text | string text =>
    exact (Text.IsLine.append (by decide) (Text.isLine_quoted text)).append (by decide)
  | eof => decide

end Token

/-! ### Errors of the scanner and of the grammar -/

theorem Token.isLine_of_scanToken_error {c : Char} {cs : List Char} {e : ScanError}
    (noBreak : c ≠ '\n') (h : scanToken c cs = .error e) : Text.IsLine e.message := by
  cases e with
  | unexpectedChar d =>
    have hd : d = c := by
      unfold scanToken at h
      split at h
      · split at h <;> cases h
      split at h
      · split at h <;> cases h
      split at h
      · cases h
      split at h
      · cases h
      split at h
      · cases h
      · split at h
        · cases h
        · cases h
          rfl
    have hc : Text.IsLine (String.ofList [d]) :=
      Text.isLine_ofList.2 fun hmem => noBreak ((List.mem_singleton.1 hmem).trans hd).symm
    exact Text.IsLine.append (by decide) hc
  | unterminatedString | unterminatedIdent => decide

/-- A character that starts no token is no line break, for these are white space. -/
theorem Token.isLine_of_scan_error {cs : List Char} {e : ScanError} (h : scan cs = .error e) :
    Text.IsLine e.message := by
  induction cs using scan.induct with
  | case1 cs hdrop =>
    rw [scan_eq, hdrop] at h
    cases h
  | case2 cs c rest hdrop e' htoken =>
    have noBreak : c ≠ '\n' := by
      rintro rfl
      have hblank := stopsAt_dropWhile Text.isBlank cs '\n' (by rw [hdrop]; rfl)
      exact absurd hblank (by decide)
    simp only [scan_eq cs, hdrop, htoken] at h
    cases h
    exact isLine_of_scanToken_error noBreak htoken
  | case3 cs c rest hdrop t rest' htoken ih =>
    simp only [scan_eq cs, hdrop, htoken] at h
    change (scan rest').map (t :: ·) = .error e at h
    cases hmore : scan rest' with
    | error e' =>
      rw [hmore] at h
      cases h
      exact ih hmore
    | ok ts =>
      rw [hmore] at h
      cases h

theorem SyntaxError.isLine_message (e : SyntaxError) : Text.IsLine e.message := by
  have hfound : Text.IsLine (e.rest.headD .eof).shown := Token.isLine_shown _
  unfold SyntaxError.message
  dsimp only
  split
  case h_1 t _ =>
    exact ((Text.IsLine.append (by decide) (Token.isLine_shown t)).append (by decide)).append hfound
  all_goals exact Text.IsLine.append (by decide) hfound

/-- A text that is not parsed is refused with a message on one line. -/
theorem ParseError.isLine_message {sql : String} {e : ParseError}
    (h : SyntaxTree.ofText sql = .error e) : Text.IsLine e.message := by
  unfold SyntaxTree.ofText at h
  split at h
  · rename_i e' hscan
    cases h
    exact Token.isLine_of_scan_error hscan
  · split at h
    · cases h
      exact SyntaxError.isLine_message _
    · cases h

end SqlGuard
