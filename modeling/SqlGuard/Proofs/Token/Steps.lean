import SqlGuard.Proofs.Token.Lexemes

/-!
# Tokens one at a time

Reading a text is the step that answers the next token, repeated until that is the end. Each step
but the last takes characters, so no text is read for ever. The steps also tell where in the text
each token stands. Main statements: `Token.nextToken_drop`, `Token.scan_unique` and
`Token.exists_emits_of_scan`.
-/

namespace SqlGuard.Token

/-- The next token, behind any white space, and the characters behind it; the end where there is
    none. -/
def nextToken (cs : List Char) : Except ScanError (Token × List Char) :=
  match cs.dropWhile Text.isBlank with
  | [] => .ok (.eof, [])
  | c :: rest => scanToken c rest

/-- All tokens up to the end, over a reader of those behind the first one. -/
def scanOver (more : List Char → Except ScanError (List Token)) (cs : List Char) :
    Except ScanError (List Token) := do
  let (t, rest) ← nextToken cs
  if t = .eof then
    return [t]
  let ts ← more rest
  return t :: ts

variable {cs rest : List Char} {t : Token}

theorem nextToken_suffix (h : nextToken cs = .ok (t, rest)) : rest <:+ cs := by
  have hblank := List.dropWhile_suffix (l := cs) Text.isBlank
  unfold nextToken at h
  split at h
  · cases h
    exact List.nil_suffix
  · rename_i c more hdrop
    obtain ⟨text, htext, -⟩ := scanToken_isWritten h
    rw [hdrop, htext] at hblank
    exact (List.suffix_append text rest).trans hblank

/-- A token that is not the end is made of characters. -/
theorem nextToken_shorter (h : nextToken cs = .ok (t, rest)) (notEnd : t ≠ .eof) :
    rest.length < cs.length := by
  have hblank := (List.dropWhile_suffix (l := cs) Text.isBlank).length_le
  unfold nextToken at h
  split at h
  · cases h
    exact absurd rfl notEnd
  · rename_i c more hdrop
    rw [hdrop] at hblank
    exact Nat.lt_of_lt_of_le (scanToken_shorter h) hblank

/-- Each step goes on to a later position of the text. -/
theorem nextToken_drop (h : nextToken cs = .ok (t, rest)) (notEnd : t ≠ .eof) :
    ∃ pos, 0 < pos ∧ pos ≤ cs.length ∧ rest = cs.drop pos := by
  have hshorter := nextToken_shorter h notEnd
  exact ⟨cs.length - rest.length, by omega, by omega,
    List.suffix_iff_eq_drop.1 (nextToken_suffix h)⟩

theorem scan_eq_scanOver (cs : List Char) : scan cs = scanOver scan cs := by
  rw [scan_eq, scanOver, nextToken]
  cases cs.dropWhile Text.isBlank with
  | nil => rfl
  | cons c more =>
    dsimp only
    cases h : scanToken c more with
    | error e => rfl
    | ok p =>
      show (scan p.2).map (p.1 :: ·) = if p.1 = .eof then _ else _
      rw [if_neg (scanToken_ne_eof h)]
      cases scan p.2 <;> rfl

/-- The steps leave no choice: whatever reads a text in them reads it as `scan` does. -/
theorem scan_unique {f : List Char → Except ScanError (List Token)} :
    (∀ cs, f cs = scanOver f cs) ↔ f = scan := by
  constructor
  · intro h
    funext cs
    induction hn : cs.length using Nat.strong_induction_on generalizing cs with
    | _ n ih =>
      rw [h, scan_eq_scanOver, scanOver, scanOver]
      cases hnext : nextToken cs with
      | error e => rfl
      | ok p =>
        obtain ⟨t, rest⟩ := p
        show (if t = .eof then _ else f rest >>= _) = if t = .eof then _ else scan rest >>= _
        split_ifs with hend
        · rfl
        · rw [ih rest.length (hn ▸ nextToken_shorter hnext hend) rest rfl]
  · rintro rfl
    exact scan_eq_scanOver

/-- A text has at most as many tokens before the end as it has characters. -/
theorem length_le_of_scan {cs : List Char} {ts : List Token} (h : scan cs = .ok ts) :
    ts.length ≤ cs.length + 1 := by
  rcases scan_eq_ok h with ⟨-, rfl⟩ | ⟨c, more, t, rest, us, -, -, hshorter, hrest, rfl⟩
  · exact Nat.succ_le_succ (Nat.zero_le _)
  · have := length_le_of_scan hrest
    rw [List.length_cons]
    omega
termination_by cs.length

/-! ### Several steps -/

/-- The first steps of reading the characters answer the tokens, the end not among them, and go on
    to the rest. What becomes of the rest is left open. -/
inductive Emits : List Char → List Token → List Char → Prop
  | nothing (cs : List Char) : Emits cs [] cs
  | token {cs more rest : List Char} {t : Token} {ts : List Token}
      (next : nextToken cs = .ok (t, more)) (notEnd : t ≠ .eof) (others : Emits more ts rest) :
      Emits cs (t :: ts) rest

/-- The tokens that are scanned come one after the other, each up to its place in the text. -/
theorem exists_emits_of_scan {cs : List Char} {ts us : List Token}
    (h : scan cs = .ok (ts ++ us)) (some_ : us ≠ []) :
    ∃ rest, Emits cs ts rest ∧ scan rest = .ok us := by
  induction ts generalizing cs with
  | nil => exact ⟨cs, .nothing cs, h⟩
  | cons t ts ih =>
    rcases scan_eq_ok h with ⟨-, hend⟩ | ⟨c, more, t, behind, vs, hdrop, htoken, -, hbehind, hts⟩
    · exact absurd (List.append_eq_nil_iff.1 (List.cons.inj hend).2).2 some_
    · obtain ⟨rfl, rfl⟩ := List.cons.inj hts
      obtain ⟨rest, emits, hrest⟩ := ih hbehind
      have next : nextToken cs = .ok (t, behind) := by
        rw [nextToken, hdrop]
        exact htoken
      exact ⟨rest, .token next (scanToken_ne_eof htoken) emits, hrest⟩

namespace Emits

/-- What is scanned is the tokens and then all that becomes of the rest. -/
theorem scan_eq_map {ts : List Token} (h : Emits cs ts rest) :
    scan cs = (scan rest).map (ts ++ ·) := by
  induction h with
  | nothing cs => cases scan cs <;> rfl
  | @token cs more rest t ts next notEnd _ ih =>
    have hcs : scan cs = (scan more).map (t :: ·) := by
      rw [scan_eq_scanOver, scanOver, next]
      show (if t = .eof then _ else scan more >>= _) = _
      rw [if_neg notEnd]
      cases scan more <;> rfl
    rw [hcs, ih]
    cases scan rest <;> rfl

theorem suffix {ts : List Token} (h : Emits cs ts rest) : rest <:+ cs := by
  induction h with
  | nothing cs => exact List.suffix_rfl
  | token next _ _ ih => exact ih.trans (nextToken_suffix next)

/-- The last token is the one that the step behind the others answers. -/
theorem last {ts : List Token} (h : Emits cs (ts ++ [t]) rest) :
    ∃ before, before <:+ cs ∧ nextToken before = .ok (t, rest) := by
  induction ts generalizing cs with
  | nil =>
    cases h with
    | token next _ others =>
      cases others
      exact ⟨cs, List.suffix_rfl, next⟩
  | cons u ts ih =>
    cases h with
    | token next _ others =>
      obtain ⟨before, hbefore, hlast⟩ := ih others
      exact ⟨before, hbefore.trans (nextToken_suffix next), hlast⟩

end Emits

end SqlGuard.Token
