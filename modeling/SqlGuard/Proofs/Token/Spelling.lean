import SqlGuard.Proofs.Token.Forms

/-!
# Texts that spell tokens

A text spells tokens if it is scanned as them wherever something stands behind it that goes on with
no word or number. Texts put together spell what their parts spell, as long as one that may end in a
word or a number stands before one that starts with neither. Main statements: `Spells.append` and
`Separates.append`.
-/

namespace SqlGuard.Token

/-- A text that ends in whatever way and is scanned as the tokens, if what stands behind it goes on
    with no word or number. -/
def Spells (text : String) (ts : List Token) : Prop :=
  ∀ rest, StopsAt isNumberChar rest → scan (text.toList ++ rest) = (scan rest).map (ts ++ ·)

/-- A text that spells the tokens and can stand behind a word or a number. -/
structure Follows (text : String) (ts : List Token) : Prop where
  spells : Spells text ts
  stops : ∀ rest, StopsAt isNumberChar rest → StopsAt isNumberChar (text.toList ++ rest)

/-- A text that can stand behind a word or a number and is scanned as the tokens, whatever stands
    behind it. -/
structure Separates (text : String) (ts : List Token) : Prop where
  scans : ∀ rest, scan (text.toList ++ rest) = (scan rest).map (ts ++ ·)
  stops : ∀ rest, StopsAt isNumberChar (text.toList ++ rest)

theorem map_append_map (x : Except ScanError (List Token)) (ts us : List Token) :
    (x.map (us ++ ·)).map (ts ++ ·) = x.map (ts ++ us ++ ·) := by
  cases x with
  | error e => rfl
  | ok vs => simp [Except.map]

theorem map_nil_append (x : Except ScanError (List Token)) : x.map ([] ++ ·) = x := by
  cases x <;> rfl

theorem Separates.spells {text : String} {ts : List Token} (h : Separates text ts) :
    Spells text ts :=
  fun rest _ => h.scans rest

theorem Separates.follows {text : String} {ts : List Token} (h : Separates text ts) :
    Follows text ts :=
  ⟨h.spells, fun rest _ => h.stops rest⟩

theorem Follows.empty : Follows "" [] where
  spells rest _ := (map_nil_append (scan rest)).symm
  stops _ h := h

/-- Behind a text that may end in a word or a number stands one that goes on with neither. -/
theorem Spells.append {text text' : String} {ts us : List Token} (h : Spells text ts)
    (h' : Follows text' us) : Spells (text ++ text') (ts ++ us) := by
  intro rest stops
  rw [String.toList_append, List.append_assoc, h _ (h'.stops rest stops), h'.spells rest stops,
    map_append_map]

theorem Follows.append {text text' : String} {ts us : List Token} (h : Follows text ts)
    (h' : Follows text' us) : Follows (text ++ text') (ts ++ us) where
  spells := h.spells.append h'
  stops rest stops := by
    rw [String.toList_append, List.append_assoc]
    exact h.stops _ (h'.stops rest stops)

/-- Behind a separator stands any text that spells tokens. -/
theorem Separates.append {text text' : String} {ts us : List Token} (h : Separates text ts)
    (h' : Spells text' us) : Follows (text ++ text') (ts ++ us) where
  spells rest stops := by
    rw [String.toList_append, List.append_assoc, h.scans, h' rest stops, map_append_map]
  stops rest _ := by
    rw [String.toList_append, List.append_assoc]
    exact h.stops _

/-- A text that stands before a separator is a part of it. -/
theorem Follows.separates {text text' : String} {ts us : List Token} (h : Follows text ts)
    (h' : Separates text' us) : Separates (text ++ text') (ts ++ us) where
  scans rest := by
    rw [String.toList_append, List.append_assoc, h.spells _ (h'.stops rest), h'.scans,
      map_append_map]
  stops rest := by
    rw [String.toList_append, List.append_assoc]
    exact h.stops _ (h'.stops rest)

/-! ### Single tokens -/

theorem stopsAt_of_number {p : Char → Bool} {rest : List Char} (stops : StopsAt isNumberChar rest)
    (h : ∀ c, isNumberChar c = false → p c = false) : StopsAt p rest :=
  fun c hc => h c (stops c hc)

theorem spells_name {name : String} (plain : isPlainName name = true) :
    Spells name [.ident name] := by
  intro rest stops
  refine scan_name plain (stopsAt_of_number stops ?_)
  intro c hc
  exact (Bool.or_eq_false_iff.1 hc).1

theorem spells_number {text : String} (number : IsNumber text) : Spells text [.number text] :=
  fun _ stops => scan_number number stops

theorem spells_string {text : String} (quoted : IsQuoted text) : Spells text [.string text] :=
  fun _ _ => scan_string quoted

theorem separates_blank : Separates " " [] where
  scans rest := by
    rw [map_nil_append]
    exact scan_blank rfl
  stops rest c hc := by
    cases hc
    rfl

/-- A mark of one character other than a point can stand behind anything. -/
theorem separates_mark {text : String} {c : Char} {m : Mark} (written : text.toList = [c])
    (h : markOf? c = some m) (hc : isNumberChar c = false) : Separates text [.mark m] where
  scans rest := by
    rw [written]
    exact scan_mark h rest
  stops rest d hd := by
    rw [written] at hd
    cases hd
    exact hc

/-- A keyword in capitals spells itself. -/
theorem spells_keyword {text : String} (k : Keyword)
    (written : text.toList = k.letters.map Char.toUpper) : Spells text [.keyword k] := by
  have hword : ∃ c cs, k.letters.map Char.toUpper = c :: cs ∧ isWordStart c = true ∧
      cs.all isWordChar = true ∧ ofWord (c :: cs) = .keyword k := by
    cases k <;> exact ⟨_, _, rfl, by decide, by decide, by decide⟩
  obtain ⟨c, cs, hletters, start, more, word⟩ := hword
  intro rest stops
  rw [written, hletters, scan_word start more ?_, word]
  · rfl
  · apply stopsAt_of_number stops
    intro c hc
    exact (Bool.or_eq_false_iff.1 hc).1

/-- A text between blanks can stand behind anything and before anything. -/
theorem Spells.between_blanks {text : String} {ts : List Token} (h : Spells text ts) :
    Separates (" " ++ text ++ " ") ts := by
  have hfollows : Follows (" " ++ text) ts := separates_blank.append h
  have := hfollows.separates separates_blank
  rwa [List.append_nil] at this

/-- Two texts with a blank between them. -/
theorem Spells.blank {text text' : String} {ts us : List Token} (h : Spells text ts)
    (h' : Spells text' us) : Spells (text ++ (" " ++ text')) (ts ++ us) :=
  h.append (separates_blank.append h')

/-- A text that is split at a blank. -/
theorem Spells.split {text first more : String} {ts us : List Token}
    (written : text = first ++ (" " ++ more)) (h : Spells first ts) (h' : Spells more us) :
    Spells text (ts ++ us) := by
  rw [written]
  exact h.blank h'

end SqlGuard.Token
