import Mathlib
import SqlGuard.Proofs.Meaning.NumberKinds
import SqlGuard.Proofs.Meaning.Statement
import SqlGuard.Proofs.Statement.Loads

/-!
# The numbers of a statement

A statement has the numbers that its tokens write, in their order and with their texts. A minus in
front of a number is its sign where no operand stands before it. Main statement:
`Statement.numbers_of_ofText`.
-/

namespace SqlGuard

open SqlGuard.Derivation (Derives)

/-! ### Numbers of tokens -/

/-- Whether an operand ends with the token. -/
def Token.endsOperand : Token → Bool
  | .number _ | .string _ | .ident _ | .mark .rparen => true
  | _ => false

/-- The numbers that the tokens write, behind an operand or not. A minus that stands behind no
    operand is the sign of the number right behind it. -/
def writtenNumbers (behindOperand : Bool) : List Token → List String
  | [] => []
  | .number text :: ts => text :: writtenNumbers true ts
  | .mark .minus :: .number text :: ts =>
    (if behindOperand then text else "-" ++ text) :: writtenNumbers true ts
  | t :: ts => writtenNumbers t.endsOperand ts

theorem writtenNumbers_cons {behind : Bool} {t : Token} (noNumber : ∀ text, t ≠ .number text)
    (noSign : t = .mark .minus → behind = true) (ts : List Token) :
    writtenNumbers behind (t :: ts) = writtenNumbers t.endsOperand ts := by
  by_cases h : ∃ text us, t = .mark .minus ∧ ts = .number text :: us
  · obtain ⟨text, us, rfl, rfl⟩ := h
    obtain rfl := noSign rfl
    rfl
  · rw [writtenNumbers]
    · exact noNumber
    · exact fun text us ht hts => h ⟨text, us, ht, hts⟩

/-- The first minus is an operator, the second one a sign. -/
example : writtenNumbers false [.number "1", .mark .minus, .mark .minus, .number "2L"] =
    ["1", "-2L"] := rfl

/-- Each number that is written is one of the tokens, with a sign or without. -/
theorem exists_token_of_mem {behind : Bool} {ts : List Token} {text : String}
    (h : text ∈ writtenNumbers behind ts) :
    ∃ number, .number number ∈ ts ∧ (text = number ∨ text = "-" ++ number) := by
  have weaken : ∀ {us ts : List Token}, us ⊆ ts →
      (∃ number, .number number ∈ us ∧ (text = number ∨ text = "-" ++ number)) →
      ∃ number, .number number ∈ ts ∧ (text = number ∨ text = "-" ++ number) :=
    fun hsub => Exists.imp fun _ given => ⟨hsub given.1, given.2⟩
  induction behind, ts using writtenNumbers.induct with
  | case1 behind => cases h
  | case2 behind number ts ih =>
    rw [writtenNumbers, List.mem_cons] at h
    rcases h with rfl | h
    · exact ⟨text, List.mem_cons_self, .inl rfl⟩
    · exact weaken (List.subset_cons_self _ _) (ih h)
  | case3 behind number ts ih =>
    rw [writtenNumbers, List.mem_cons] at h
    rcases h with rfl | h
    · refine ⟨number, List.mem_cons_of_mem _ List.mem_cons_self, ?_⟩
      cases behind with
      | true => exact .inl rfl
      | false => exact .inr rfl
    · exact weaken (List.subset_cons_of_subset _ (List.subset_cons_self _ _)) (ih h)
  | case4 behind t ts noNumber noSign ih =>
    rw [writtenNumbers] at h
    · exact weaken (List.subset_cons_self _ _) (ih h)
    · exact noNumber
    · exact noSign

/-! ### Numbers of statements -/

/-- The numbers of an expression, from left to right. -/
def Expr.numbers : Expr → List NumberLiteral
  | .literal .string _ | .field _ | .starCall _ => []
  | .literal kind text => [⟨kind, text⟩]
  | .arith _ left right _ | .compare _ left right => left.numbers ++ right.numbers

mutual

/-- The numbers of a query, in the order in which it is written. -/
def Query.numbers : Query → List NumberLiteral
  | ⟨items, where?, groupBy, tables⟩ =>
    items.flatMap (·.expr.numbers) ++ tableNumbers tables ++
      where?.toList.flatMap Expr.numbers ++ groupBy.flatMap Expr.numbers

/-- The numbers of references. -/
def tableNumbers : List TableRef → List NumberLiteral
  | [] => []
  | t :: ts => t.numbers ++ tableNumbers ts

/-- The numbers of a reference: those of its view, and of its join condition. -/
def TableRef.numbers : TableRef → List NumberLiteral
  | ⟨source, _, join?⟩ => source.numbers ++ (join? >>= Join.on?).toList.flatMap Expr.numbers

/-- The numbers of a view. -/
def Source.numbers : Source → List NumberLiteral
  | .table _ => []
  | .view query => query.numbers

end

/-- The numbers of a statement. -/
def Statement.numbers : Statement → List NumberLiteral
  | .select query | .insert _ query => query.numbers
  | .load _ _ _ => []

/-! ### From the tokens to the statement -/

/-- The tokens write the numbers, and an operand ends with the last of them. -/
def Writes (behind : Bool) (ws : List Token) (numbers : List NumberLiteral) : Prop :=
  ∀ rest, (writtenNumbers behind (ws ++ rest)).map NumberLiteral.ofText =
    numbers ++ (writtenNumbers true rest).map NumberLiteral.ofText

namespace Writes

variable {behind : Bool} {ws us : List Token} {numbers more : List NumberLiteral} {t : Token}

theorem nil : Writes true [] [] := fun _ => rfl

theorem append (h : Writes behind ws numbers) (hmore : Writes true us more) :
    Writes behind (ws ++ us) (numbers ++ more) := by
  intro rest
  rw [List.append_assoc, h, hmore, List.append_assoc]

/-- A token that is no number, and no sign of one. -/
theorem cons (noNumber : ∀ text, t ≠ .number text) (noSign : t = .mark .minus → behind = true)
    (h : Writes t.endsOperand ws numbers) : Writes behind (t :: ws) numbers := by
  intro rest
  rw [List.cons_append, writtenNumbers_cons noNumber noSign, h]

theorem keyword {word : Keyword} (h : Writes false ws numbers) :
    Writes behind (.keyword word :: ws) numbers := h.cons nofun nofun

theorem ident {name : String} (h : Writes true ws numbers) :
    Writes behind (.ident name :: ws) numbers := h.cons nofun nofun

/-- An operator, or anything else behind which an operand has to stand. -/
theorem operator (operator : t.endsOperand = false) (h : Writes false ws numbers) :
    Writes true (t :: ws) numbers := by
  refine cons ?_ (fun _ => rfl) (by rwa [operator])
  rintro text rfl
  cases operator

/-- Parentheses around it. -/
theorem enclosed (h : Writes false ws numbers) :
    Writes behind (.mark .lparen :: (ws ++ [.mark .rparen])) numbers := by
  have hclose : Writes true [.mark .rparen] [] := nil.cons nofun nofun
  have hinner : Writes false (ws ++ [.mark .rparen]) (numbers ++ []) := h.append hclose
  rw [List.append_nil] at hinner
  exact hinner.cons nofun nofun

/-- The words before a part with numbers. -/
theorem words {words : List Token} (some_ : words ≠ [])
    (noOperand : ∀ t ∈ words, t.endsOperand = false ∧ t ≠ .mark .minus)
    (h : Writes false ws numbers) : Writes behind (words ++ ws) numbers := by
  induction words generalizing behind with
  | nil => exact absurd rfl some_
  | cons word words ih =>
    rw [List.forall_mem_cons] at noOperand
    obtain ⟨⟨hword, noMinus⟩, noOperand⟩ := noOperand
    have noNumber : ∀ text, word ≠ .number text := by
      rintro text rfl
      cases hword
    refine cons noNumber (fun hminus => absurd hminus noMinus) ?_
    rw [hword]
    cases words with
    | nil => exact h
    | cons word' words => exact ih (List.cons_ne_nil _ _) noOperand

end Writes

/-! ### Expressions -/

namespace Meaning

theorem numbers_of_ofSuffix (text : String) :
    (Expr.literal (.ofSuffix text) text).numbers = [NumberLiteral.ofText text] := by
  have hkind : LiteralKind.ofSuffix text ≠ .string := by
    have hnumber := Expr.ofTree_number text
    exact Grammar.numberLiteral_kind hnumber
  unfold NumberLiteral.ofText
  cases hkind' : LiteralKind.ofSuffix text with
  | int => rfl
  | float => rfl
  | string => exact absurd hkind' hkind

mutual

/-- A sum has the numbers that its tokens write. -/
theorem writes_sum {ws : List Token} {e : Expr} : Sum ws e → Writes false ws e.numbers
  | .product d => writes_product d
  | .step before written d => by
    have hoperator : ∀ p ∈ Derivation.sumOperators, p.1.endsOperand = false := by decide
    exact (writes_sum before).append ((writes_product d).operator (hoperator _ written))

theorem writes_product {ws : List Token} {e : Expr} : Product ws e → Writes false ws e.numbers
  | .factor d => writes_factor d
  | .step before written d => by
    have hoperator : ∀ p ∈ Derivation.productOperators, p.1.endsOperand = false := by decide
    exact (writes_product before).append ((writes_factor d).operator (hoperator _ written))

theorem writes_factor {ws : List Token} {e : Expr} : Factor ws e → Writes false ws e.numbers
  | .number text => by
    rw [numbers_of_ofSuffix]
    exact fun rest => rfl
  | .negative text => by
    rw [numbers_of_ofSuffix]
    exact fun rest => rfl
  | .string text => Writes.nil.cons nofun nofun
  | .column name => Writes.nil.ident
  | .qualified qualifier name => (Writes.nil.ident.operator rfl).ident
  | .starCall name => by
    have hclose : Writes false [.mark .rparen] [] := Writes.nil.cons nofun nofun
    have hstar : Writes false [.mark .asterisk, .mark .rparen] [] := hclose.cons nofun nofun
    have hopen : Writes true [.mark .lparen, .mark .asterisk, .mark .rparen] [] :=
      hstar.operator rfl
    exact hopen.ident
  | .enclosed inner => (writes_sum inner).enclosed

end

theorem writes_comparison {op : CompareOp} {ws : List Token} {e : Expr} :
    Comparison op ws e → Writes false ws e.numbers
  | .compare hleft written hright => by
    have hoperator : ∀ p ∈ Derivation.comparisonOperators, p.1.endsOperand = false := by decide
    exact (writes_sum hleft).append ((writes_sum hright).operator (hoperator _ written))
  | .enclosed inner => (writes_comparison inner).enclosed

/-! ### Parts of queries -/

section Parts

variable {α : Type} {L : Language α} {f : α → List NumberLiteral}

theorem writes_listed (h : ∀ ws a, L ws a → Writes false ws (f a)) {ws : List Token} {as : List α}
    (d : Derivation.Listed L ws as) : Writes false ws (as.flatMap f) := by
  induction d with
  | last item =>
    rw [List.flatMap_singleton]
    exact h _ _ item
  | more item items ih =>
    rw [List.flatMap_cons]
    exact (h _ _ item).append (ih.operator rfl)

theorem writes_clause {words : List Token} (some_ : words ≠ [])
    (noOperand : ∀ t ∈ words, t.endsOperand = false ∧ t ≠ .mark .minus)
    (h : ∀ ws a, L ws a → Writes false ws (f a)) {ws : List Token} {a? : Option α}
    (d : Derivation.Clause words L ws a?) : Writes true ws (a?.toList.flatMap f) := by
  cases d with
  | absent => exact .nil
  | present part =>
    rw [Option.toList_some, List.flatMap_singleton]
    exact (h _ _ part).words some_ noOperand

end Parts

theorem writes_alias {ws : List Token} {name? : Option String} (d : Derivation.Alias ws name?) :
    Writes true ws [] := by
  cases d with
  | absent => exact .nil
  | bare name => exact Writes.nil.ident
  | word name => exact Writes.nil.ident.keyword

theorem writes_item (ws : List Token) (item : SelectItem) (d : Item ws item) :
    Writes false ws item.expr.numbers := by
  cases d with
  | mk sum named =>
    have hitem := (writes_sum sum).append (writes_alias named)
    rwa [List.append_nil] at hitem

theorem writes_predicate (ws : List Token) (e : Expr) (d : Predicate ws e) :
    Writes false ws e.numbers := by
  cases d with
  | mk comparison => exact writes_comparison comparison

theorem writes_column (ws : List Token) (e : Expr) (d : Column ws e) :
    Writes false ws e.numbers := by
  cases d with
  | mk column => exact writes_sum column

theorem writes_columns (ws : List Token) (columns : List Expr)
    (d : Derivation.Listed Column ws columns) : Writes false ws (columns.flatMap Expr.numbers) :=
  writes_listed writes_column d

theorem writes_condition (ws : List Token) (e : Expr) (d : Comparison .eq ws e) :
    Writes false ws e.numbers := writes_comparison d

/-! ### Queries -/

/-- The numbers of a reference that is joined are those of its source and of its condition. -/
theorem numbers_joined (t : TableRef) (op : JoinOp) (on? : Option Expr) (k : Nat) :
    TableRef.numbers { t with join? := some ⟨op, on?, k⟩ } =
      t.source.numbers ++ on?.toList.flatMap Expr.numbers := by
  rw [TableRef.numbers]
  rfl

theorem numbers_source {ws : List Token} {t : TableRef} (d : Source ws t) :
    t.numbers = t.source.numbers := by
  cases d <;> exact List.append_nil _

mutual

/-- A query has the numbers that its tokens write, wherever it stands. -/
theorem writes_query {behind : Bool} {ws : List Token} {query : SqlGuard.Query} :
    Query ws query → Writes behind ws query.numbers
  | @Query.mk _ _ _ _ items tables where? group? selected references condition grouped => by
    have hgroup : group?.toList.flatMap (·.flatMap Expr.numbers) =
        (group?.getD []).flatMap Expr.numbers := by
      cases group? with
      | none => rfl
      | some group => exact List.flatMap_singleton _ _
    have hitems := writes_listed writes_item selected
    have htables := writes_tables references
    have hwhere := writes_clause (by decide) (by decide) writes_predicate condition
    have hcolumns := writes_clause (by decide) (by decide) writes_columns grouped
    rw [hgroup] at hcolumns
    rw [Query.numbers, List.append_assoc, List.append_assoc]
    exact (hitems.append (htables.append (hwhere.append hcolumns))).keyword

theorem writes_tables {ws : List Token} {ts : List TableRef} :
    Tables ws ts → Writes true ws (tableNumbers ts)
  | .absent => .nil
  | .present first links => by
    have hlinks := writes_links links
    rw [tableNumbers, numbers_source first]
    exact ((writes_source first).append hlinks).keyword

theorem writes_source {ws : List Token} {t : TableRef} :
    Source ws t → Writes false ws t.source.numbers
  | .table name named => (writes_alias named).ident
  | .view view named => by
    have hclose : Writes true (.mark .rparen :: _) [] := (writes_alias named).cons nofun nofun
    have hview : Writes false _ (_ ++ []) := (writes_query view).append hclose
    rw [List.append_nil] at hview
    exact hview.cons nofun nofun

theorem writes_links {k : Nat} {ws : List Token} {ts : List TableRef} :
    Links k ws ts → Writes true ws (tableNumbers ts)
  | .done k => .nil
  | .link spelled source condition more => by
    have hwords : ∀ p ∈ Derivation.joinSpellings,
        p.1 ≠ [] ∧ ∀ t ∈ p.1, t.endsOperand = false ∧ t ≠ .mark .minus := by decide
    obtain ⟨some_, noOperand⟩ := hwords _ spelled
    have hon := writes_clause (by decide) (by decide) writes_condition condition
    have hlink := (writes_source source).append hon
    rw [tableNumbers, numbers_joined]
    exact (hlink.words some_ noOperand).append (writes_links more)

end

theorem writes_plain {ws : List Token} {query : SqlGuard.Query} (d : Plain ws query) :
    Writes false ws query.numbers := by
  cases d with
  | select rows => exact writes_query rows
  | insert name rows => exact (writes_query rows).ident.keyword.keyword.keyword
  | insertQualified database name rows =>
    have hname : Writes false (.ident name :: _) query.numbers := (writes_query rows).ident
    exact (hname.operator rfl).ident.keyword.keyword.keyword

/-- All tokens of a statement write its numbers and no more. -/
theorem numbers_of_statement {ts : List Token} {query : SqlGuard.Query} (d : Statement ts query) :
    (writtenNumbers false ts).map NumberLiteral.ofText = query.numbers := by
  cases d with
  | bare plain =>
    have h := writes_plain plain []
    rwa [List.append_nil, writtenNumbers, List.map_nil, List.append_nil] at h
  | terminated plain =>
    have h := writes_plain plain [.mark .semicolon]
    rwa [show writtenNumbers true [.mark .semicolon] = [] from rfl, List.map_nil,
      List.append_nil] at h

end Meaning

/-! ### Statements -/

/-- An `INSERT` that is lowered is its query. -/
theorem Statement.ofTree_ne_insert {tree : SyntaxTree} {target? : Option String}
    {query : Query} : Statement.ofTree tree ≠ .ok (.insert target? query) := by
  intro h
  unfold ofTree at h
  split at h
  · obtain ⟨query, -, hselect⟩ := map_eq_ok.1 h
    cases hselect
  · rename_i htag
    rw [loadOfTree, if_pos htag, bind_eq_ok] at h
    obtain ⟨parts, -, h⟩ := h
    split at h <;> cases h
  · cases h

theorem writtenNumbers_loadTokens (isLocal overwrite : Bool) (file table : String) :
    writtenNumbers false (loadTokens isLocal overwrite file table) = [] ∧
      writtenNumbers false (loadTokens isLocal overwrite file table ++ [.mark .semicolon]) = [] := by
  cases isLocal <;> cases overwrite <;> exact ⟨rfl, rfl⟩

/-- What is lowered has the numbers that the tokens of its tree write. -/
theorem Statement.numbers_of_derivation {ts : List Token} {tree : SyntaxTree} {s : Statement}
    (d : Derivation.Statement ts tree) (lowered : ofTree tree = .ok s) :
    s.numbers = (writtenNumbers false ts).map NumberLiteral.ofText := by
  cases s with
  | select query =>
    have hquery := ofTree_eq_select_iff.1 lowered
    obtain ⟨meant⟩ := (Meaning.means_statement _ _).2 ⟨tree, ⟨d⟩, hquery⟩
    exact (Meaning.numbers_of_statement meant).symm
  | insert target? query => exact absurd lowered ofTree_ne_insert
  | load path table overwrite =>
    cases d with
    | bare plain =>
      obtain ⟨isLocal, isWritten, file, rfl, -⟩ := plain.eq_loadTokens lowered
      rw [(writtenNumbers_loadTokens isLocal isWritten file table).1]
      rfl
    | terminated plain =>
      obtain ⟨isLocal, isWritten, file, rfl, -⟩ := plain.eq_loadTokens lowered
      rw [(writtenNumbers_loadTokens isLocal isWritten file table).2]
      rfl

/-- A number does not start with a sign. -/
theorem Token.IsNumber.ne_negative {text number : String} (h : Token.IsNumber text) :
    text ≠ "-" ++ number := by
  obtain ⟨digits, fraction, letters, htext, hne, hdigits, -, -⟩ := h
  rintro rfl
  rw [String.toList_append] at htext
  cases digits with
  | nil => exact hne rfl
  | cons digit digits =>
    cases (List.cons.inj htext).1
    cases hdigits

/-- The numbers of an accepted statement are those that its tokens write, in their order and with
    their texts, with a sign where one is written. The kind and the type of each follow its digits
    if and only if it does not have both a point and the suffix of an integer; with both it is an
    integer. Without its sign it has the same kind and type. -/
theorem Statement.numbers_of_ofText {sql : String} {s : Statement} (accepted : ofText sql = .ok s) :
    ∃ ts, Token.ofText sql = .ok (ts ++ [.eof]) ∧
      s.numbers.map NumberLiteral.text = writtenNumbers false ts ∧
      ∀ n ∈ s.numbers,
        (n.FollowsDigits ↔ ¬ n.IsMixed) ∧
        (n.IsMixed → n.kind = .int ∧ n.type = if n.suffix = ['l'] then .bigInt else .int) ∧
        ∀ number, n.text = "-" ++ number →
          Expr.ofTree (Grammar.numberLiteral number) = .ok (.literal n.kind number) ∧
            n.type = n.kind.type number := by
  rw [ofText, bind_eq_ok] at accepted
  obtain ⟨tree, hread, hlowered⟩ := accepted
  obtain ⟨ts, hscan, ⟨d⟩⟩ := SyntaxTree.ofText_eq_ok_iff_derives.1 (mapError_eq_ok.1 hread)
  have hnumbers := numbers_of_derivation d (mapError_eq_ok.1 hlowered)
  have hscanned := (Token.scan_isScanned hscan).1
  refine ⟨ts, hscan, ?_, fun n hn => ?_⟩
  · rw [hnumbers, List.map_map]
    exact List.map_id _
  rw [hnumbers, List.mem_map] at hn
  obtain ⟨text, hwritten, rfl⟩ := hn
  obtain ⟨number, hmem, htext⟩ := exists_token_of_mem hwritten
  have isNumber : Token.IsNumber number := hscanned _ (List.mem_append_left _ hmem)
  have typed : (NumberLiteral.ofText text).IsTyped := by
    rcases htext with rfl | rfl
    · exact (NumberLiteral.isTyped_of_isNumber isNumber).1
    · exact (NumberLiteral.isTyped_of_isNumber isNumber).2
  refine ⟨typed.followsDigits_iff, typed.of_isMixed, fun unsigned hunsigned => ?_⟩
  have hsigned : text = "-" ++ unsigned := hunsigned
  rcases htext with rfl | rfl
  · exact absurd hsigned isNumber.ne_negative
  obtain rfl : number = unsigned := (String.append_right_inj _).1 hsigned
  obtain ⟨hkind, htype⟩ := NumberLiteral.ofText_negative isNumber
  rw [Expr.ofTree_number, hkind, htype]
  exact ⟨rfl, rfl⟩

/-- A decimal with its sign, and a wide integer. -/
theorem Statement.numbers_of_ofText_signed :
    ∃ s, ofText "SELECT -1.5BD FROM t WHERE b < 2l" = .ok s ∧
      s.numbers = [⟨.float, "-1.5BD"⟩, ⟨.int, "2l"⟩] ∧ ∀ n ∈ s.numbers, n.FollowsDigits := by
  let query : Query := {
    items := [{ expr := .literal .float "-1.5BD" }]
    where? := some (.compare .lt (.field (.unresolved "" "b")) (.literal .int "2l"))
    tables := [{ source := .table "t" }] }
  have accepted : ofText "SELECT -1.5BD FROM t WHERE b < 2l" = .ok (.select query) := by cbv
  have hnumbers : (Statement.select query).numbers = [⟨.float, "-1.5BD"⟩, ⟨.int, "2l"⟩] := rfl
  have notMixed : ∀ n ∈ (Statement.select query).numbers, ¬ n.IsMixed := by
    rw [hnumbers]
    decide
  obtain ⟨ts, -, -, each⟩ := numbers_of_ofText accepted
  exact ⟨_, accepted, hnumbers, fun n hn => (each n hn).1.2 (notMixed n hn)⟩

/-- A number with a point is a wide integer if it has the suffix of one. -/
theorem Statement.not_followsDigits_of_mixed :
    ∃ s, ofText "SELECT 1.5L" = .ok s ∧
      ∃ n, s.numbers = [n] ∧ n.text = "1.5L" ∧ n.hasPoint = true ∧ n.type = .bigInt ∧
        ¬ n.FollowsDigits := by
  let query : Query := { items := [{ expr := .literal .int "1.5L" }] }
  have accepted : ofText "SELECT 1.5L" = .ok (.select query) := by cbv
  refine ⟨_, accepted, ⟨.int, "1.5L"⟩, rfl, rfl, by decide, by decide, fun follows => ?_⟩
  cases (follows.point (by decide)).1

end SqlGuard
