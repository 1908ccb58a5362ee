import SqlGuard.Proofs.Statement.Shape
import SqlGuard.Proofs.Token.Spelling
import SqlGuard.Statement.Render

/-!
# Written forms spell their tokens

If all names and literals are plain, the written form of a statement is scanned as the tokens of the
statement. Main statements: `Query.spells` and `Statement.ofText_render`.
-/

namespace SqlGuard

open Token

/-! ### Expressions -/

theorem ArithOp.separates (op : ArithOp) : Separates (" " ++ op.symbol ++ " ") [.mark op.mark] := by
  cases op with
  | add => exact (separates_mark rfl rfl rfl).spells.between_blanks
  | sub => exact (separates_mark rfl rfl rfl).spells.between_blanks
  | mul => exact (separates_mark rfl rfl rfl).spells.between_blanks
  | div => exact (separates_mark rfl rfl rfl).spells.between_blanks

/-- A comparison of two characters is taken whole, and one of a single character ends before the
    blank. -/
theorem CompareOp.separates (op : CompareOp) :
    Separates (" " ++ op.symbol ++ " ") [.mark op.mark] where
  scans rest := by
    have hscan : scan (op.symbol.toList ++ ' ' :: rest) =
        (scan (' ' :: rest)).map (.mark op.mark :: ·) := by
      cases op <;> exact scan_cons rfl rfl
    rw [String.toList_append, String.toList_append, List.append_assoc, List.append_assoc]
    show scan (' ' :: (op.symbol.toList ++ ' ' :: rest)) = _
    rw [scan_blank rfl, hscan, scan_blank rfl]
    rfl
  stops rest c hc := by
    rw [String.toList_append, String.toList_append] at hc
    cases hc
    rfl

/-- Two texts with a separator between them. -/
theorem Token.Spells.between {text sep text' : String} {ts us vs : List Token}
    (h : Spells text ts) (hsep : Separates sep us) (h' : Spells text' vs) :
    Spells (text ++ (sep ++ text')) (ts ++ (us ++ vs)) :=
  h.append (hsep.append h')

theorem spells_enclosed {parentheses : Bool} {text : String} {ts : List Token}
    (h : Spells text ts) :
    Spells (Expr.enclosedIf parentheses text) (enclosedTokens parentheses ts) := by
  cases parentheses with
  | false => exact h
  | true =>
    have hopen : Separates "(" [.mark .lparen] := separates_mark rfl rfl rfl
    have hclose : Separates ")" [.mark .rparen] := separates_mark rfl rfl rfl
    exact ((hopen.append h).append hclose.follows).spells

/-- A column behind the name of its table. The point goes on the word before it, but not as a part
    of the word. -/
theorem spells_qualified {qualifier name : String} (hqualifier : isPlainName qualifier = true)
    (hname : isPlainName name = true) :
    Spells (qualifier ++ "." ++ name) [.ident qualifier, .mark .dot, .ident name] := by
  intro rest stops
  have hpoint : StopsAt isWordChar ('.' :: (name.toList ++ rest)) := by
    intro c hc
    cases hc
    rfl
  have hdot : markOf? '.' = some .dot := rfl
  have hrest := spells_name hname rest stops
  rw [String.toList_append, String.toList_append, List.append_assoc, List.append_assoc]
  show scan (qualifier.toList ++ '.' :: (name.toList ++ rest)) = _
  rw [scan_name hqualifier hpoint, scan_mark hdot, hrest]
  cases scan rest <;> rfl

theorem spells_numberTokens {text : String} (plain : ∀ t ∈ numberTokens text, t.IsPlain) :
    Spells text (numberTokens text) := by
  unfold numberTokens at plain ⊢
  split at plain
  · rename_i digits htext
    simp only [List.forall_mem_cons, Token.IsPlain] at plain
    intro rest stops
    have hdigits := spells_number plain.2.1 rest stops
    have hminus : markOf? '-' = some .minus := rfl
    rw [String.toList_ofList] at hdigits
    rw [htext, List.cons_append, scan_mark hminus, hdigits]
    cases scan rest <;> rfl
  · exact spells_number (plain (.number text) List.mem_cons_self)

theorem allPlain_enclosed {parentheses : Bool} {ts : List Token} :
    (∀ t ∈ enclosedTokens parentheses ts, t.IsPlain) ↔ ∀ t ∈ ts, t.IsPlain := by
  cases parentheses with
  | false => rfl
  | true =>
    simp [enclosedTokens, Token.IsPlain, or_imp, forall_and]

/-- The written form of an expression spells its tokens. -/
theorem Expr.spells {e : Expr} (plain : ∀ t ∈ e.tokens, t.IsPlain) : Spells e.render e.tokens := by
  induction e with
  | field f =>
    unfold Expr.render Expr.tokens at *
    by_cases hq : f.qualifier.isEmpty = true
    · rw [if_pos hq] at plain ⊢
      rw [if_pos hq]
      exact spells_name (plain (.ident f.name) List.mem_cons_self)
    · rw [if_neg hq] at plain ⊢
      rw [if_neg hq]
      simp only [List.forall_mem_cons, Token.IsPlain] at plain
      exact spells_qualified plain.1 plain.2.2.1
  | literal kind text =>
    cases kind with
    | string => exact spells_string (plain (.string text) List.mem_cons_self)
    | int => exact spells_numberTokens plain
    | float => exact spells_numberTokens plain
  | starCall name =>
    have hopen : Separates "(" [.mark .lparen] := separates_mark rfl rfl rfl
    have hstar : Separates "*" [.mark .asterisk] := separates_mark rfl rfl rfl
    have hclose : Separates ")" [.mark .rparen] := separates_mark rfl rfl rfl
    have hname : Spells name [.ident name] := spells_name (plain (.ident name) List.mem_cons_self)
    exact hname.append (hopen.follows.append (hstar.follows.append hclose.follows))
  | arith op left right note ihl ihr =>
    have hrender : (Expr.arith op left right note).render =
        enclosedIf left.isArith left.render ++
          (" " ++ op.symbol ++ " " ++ enclosedIf right.isArith right.render) := by
      simp only [Expr.render, String.append_assoc]
    rw [Expr.tokens, List.forall_mem_append, List.forall_mem_cons, allPlain_enclosed,
      allPlain_enclosed] at plain
    rw [hrender]
    exact Spells.between (spells_enclosed (ihl plain.1)) op.separates
      (spells_enclosed (ihr plain.2.2))
  | compare op left right ihl ihr =>
    have hrender : (Expr.compare op left right).render =
        left.render ++ (" " ++ op.symbol ++ " " ++ right.render) := by
      simp only [Expr.render, String.append_assoc]
    rw [Expr.tokens, List.forall_mem_append, List.forall_mem_cons] at plain
    rw [hrender]
    exact Spells.between (ihl plain.1) op.separates (ihr plain.2.2)

/-! ### Lists and clauses -/

theorem separates_comma : Separates ", " [.mark .comma] := by
  have hcomma : Separates "," [.mark .comma] := separates_mark rfl rfl rfl
  exact hcomma.follows.separates separates_blank

theorem spells_commaJoined {α : Type} {f : α → String} {g : α → List Token} {xs : List α}
    (h : ∀ x ∈ xs, Spells (f x) (g x)) :
    Spells (commaJoined (xs.map f)) (commaTokens (xs.map g)) := by
  induction xs with
  | nil => exact Follows.empty.spells
  | cons x xs ih =>
    rw [List.forall_mem_cons] at h
    cases xs with
    | nil =>
      simpa only [List.map_cons, List.map_nil, commaJoined, String.intercalate_singleton,
        commaTokens] using h.1
    | cons y ys =>
      simp only [List.map_cons, commaJoined_cons_cons, commaTokens]
      exact h.1.between separates_comma (ih h.2)

theorem forall_mem_commaTokens {p : Token → Prop} (comma : p (.mark .comma))
    {tss : List (List Token)} :
    (∀ t ∈ commaTokens tss, p t) ↔ ∀ ts ∈ tss, ∀ t ∈ ts, p t := by
  induction tss with
  | nil => simp [commaTokens]
  | cons ts tss ih =>
    cases tss with
    | nil => simp [commaTokens]
    | cons us tss =>
      rw [commaTokens, List.forall_mem_append, List.forall_mem_cons, ih, List.forall_mem_cons]
      simp [comma]

/-- A clause is left out, or stands behind its words. -/
theorem follows_clause {word : String} {words : List Token} {content? : Option String}
    {ts? : Option (List Token)} (hword : Spells word words)
    (h : Option.Rel Spells content? ts?) :
    Follows (renderClause word content?) (clauseTokens words ts?) := by
  cases h with
  | none => exact .empty
  | some hcontent => exact hword.between_blanks.append hcontent

/-! ### Keywords -/

theorem spells_JOIN : Spells "JOIN" [.keyword .JOIN] := spells_keyword .JOIN (by decide)

theorem spells_OUTER_JOIN : Spells "OUTER JOIN" [.keyword .OUTER, .keyword .JOIN] := by
  have houter : Spells "OUTER" [.keyword .OUTER] := spells_keyword .OUTER (by decide)
  exact .split (by decide) houter spells_JOIN

theorem JoinOp.spells (op : JoinOp) : Spells op.keyword op.tokens := by
  cases op with
  | inner => exact spells_JOIN
  | leftOuter =>
    have hleft : Spells "LEFT" [.keyword .LEFT] := spells_keyword .LEFT (by decide)
    exact .split (by decide) hleft spells_OUTER_JOIN
  | rightOuter =>
    have hright : Spells "RIGHT" [.keyword .RIGHT] := spells_keyword .RIGHT (by decide)
    exact .split (by decide) hright spells_OUTER_JOIN
  | fullOuter =>
    have hfull : Spells "FULL" [.keyword .FULL] := spells_keyword .FULL (by decide)
    exact .split (by decide) hfull spells_OUTER_JOIN
  | cross =>
    have hcross : Spells "CROSS" [.keyword .CROSS] := spells_keyword .CROSS (by decide)
    exact .split (by decide) hcross spells_JOIN

theorem spells_SELECT : Spells "SELECT" [.keyword .SELECT] := spells_keyword .SELECT (by decide)

theorem spells_FROM : Spells "FROM" [.keyword .FROM] := spells_keyword .FROM (by decide)

theorem spells_WHERE : Spells "WHERE" [.keyword .WHERE] := spells_keyword .WHERE (by decide)

theorem spells_ON : Spells "ON" [.keyword .ON] := spells_keyword .ON (by decide)

theorem spells_AS : Spells "AS" [.keyword .AS] := spells_keyword .AS (by decide)

theorem spells_GROUP_BY : Spells "GROUP BY" [.keyword .GROUP, .keyword .BY] := by
  have hgroup : Spells "GROUP" [.keyword .GROUP] := spells_keyword .GROUP (by decide)
  have hby : Spells "BY" [.keyword .BY] := spells_keyword .BY (by decide)
  exact .split (by decide) hgroup hby

theorem spells_TABLE : Spells "TABLE" [.keyword .TABLE] := spells_keyword .TABLE (by decide)

theorem spells_OVERWRITE : Spells "OVERWRITE" [.keyword .OVERWRITE] :=
  spells_keyword .OVERWRITE (by decide)

/-! ### Queries -/

theorem SelectItem.spells {item : SelectItem} (plain : ∀ t ∈ item.tokens, t.IsPlain) :
    Spells item.render item.tokens := by
  obtain ⟨e, alias?⟩ := item
  cases alias? with
  | none => exact Expr.spells plain
  | some name =>
    simp only [SelectItem.tokens, List.forall_mem_append, List.forall_mem_cons, Token.IsPlain]
      at plain
    have hrender : SelectItem.render ⟨e, some name⟩ = e.render ++ (" AS " ++ name) :=
      String.append_assoc ..
    rw [hrender]
    exact (Expr.spells plain.1).between spells_AS.between_blanks (spells_name plain.2.2.1)

theorem spells_withAlias {source : String} {ts : List Token} {alias? : Option String}
    (h : (∀ t ∈ ts, t.IsPlain) → Spells source ts)
    (plain : ∀ t ∈ withAliasTokens ts alias?, t.IsPlain) :
    Spells (withAlias source alias?) (withAliasTokens ts alias?) := by
  cases alias? with
  | none => exact h plain
  | some name =>
    simp only [withAliasTokens, List.forall_mem_append, List.forall_mem_cons, Token.IsPlain]
      at plain
    have hrender : withAlias source (some name) = source ++ (" " ++ name) :=
      String.append_assoc ..
    rw [hrender]
    exact (h plain.1).blank (spells_name plain.2.1)

theorem rel_map {α β γ : Type} {R : β → γ → Prop} {f : α → β} {g : α → γ} {x? : Option α}
    (h : ∀ x, x? = some x → R (f x) (g x)) : Option.Rel R (x?.map f) (x?.map g) := by
  cases x? with
  | none => exact .none
  | some x => exact .some (h x rfl)

theorem follows_optionalExpr {word : String} {words : List Token} {e? : Option Expr}
    (hword : Spells word words)
    (plain : ∀ t ∈ clauseTokens words (e?.map Expr.tokens), t.IsPlain) :
    Follows (renderClause word (e?.map Expr.render)) (clauseTokens words (e?.map Expr.tokens)) := by
  refine follows_clause hword (rel_map ?_)
  rintro e rfl
  simp only [Option.map_some, clauseTokens, List.forall_mem_append] at plain
  exact Expr.spells plain.2

theorem follows_link {reference : String} {ts : List Token} {join? : Option Join}
    (h : (∀ t ∈ ts, t.IsPlain) → Spells reference ts)
    (plain : ∀ t ∈ linkTokens ts join?, t.IsPlain) :
    Follows (renderLink reference join?) (linkTokens ts join?) := by
  cases join? with
  | none =>
    rw [linkTokens, List.forall_mem_cons] at plain
    exact separates_comma.append (h plain.2)
  | some join =>
    simp only [linkTokens, List.forall_mem_append] at plain
    obtain ⟨⟨-, hts⟩, hon⟩ := plain
    exact (join.op.spells.between_blanks.append (h hts)).append (follows_optionalExpr spells_ON hon)

mutual

/-- The written form of a query spells its tokens. -/
theorem Query.spells : ∀ query : Query, (∀ t ∈ query.tokens, t.IsPlain) →
    Spells query.render query.tokens
  | ⟨items, where?, groupBy, tables⟩, plain => by
    have hrender : Query.render ⟨items, where?, groupBy, tables⟩ =
        "SELECT" ++ (" " ++ commaJoined (items.map SelectItem.render)) ++
          renderClause "FROM" (renderTables? tables) ++
          renderClause "WHERE" (where?.map Expr.render) ++
          renderClause "GROUP BY" (renderGroupBy? groupBy) := by
      rw [Query.render, ← String.append_assoc]
      rfl
    simp only [Query.tokens, List.cons_append, List.forall_mem_cons, List.forall_mem_append]
      at plain
    obtain ⟨-, ⟨⟨hitems, hfrom⟩, hwhere⟩, hgroup⟩ := plain
    rw [forall_mem_commaTokens trivial, List.forall_mem_map] at hitems
    have spellsItems := spells_commaJoined fun item hmem => SelectItem.spells (hitems item hmem)
    have followsFrom : Follows (renderClause "FROM" (renderTables? tables))
        (clauseTokens [.keyword .FROM] (tableTokens? tables)) := by
      apply follows_clause spells_FROM
      cases tables with
      | nil => exact .none
      | cons t ts =>
        simp only [tableTokens?, clauseTokens, List.forall_mem_append] at hfrom
        exact .some ((TableRef.spells t hfrom.2.1).append (follows_linked ts hfrom.2.2))
    have followsGroup : Follows (renderClause "GROUP BY" (renderGroupBy? groupBy))
        (clauseTokens [.keyword .GROUP, .keyword .BY] (groupTokens? groupBy)) := by
      apply follows_clause spells_GROUP_BY
      unfold renderGroupBy? groupTokens? at *
      by_cases hempty : groupBy.isEmpty = true
      · rw [if_pos hempty, if_pos hempty]
        exact .none
      · rw [if_neg hempty] at hgroup ⊢
        rw [if_neg hempty]
        simp only [clauseTokens, List.forall_mem_append] at hgroup
        rw [forall_mem_commaTokens trivial, List.forall_mem_map] at hgroup
        exact .some (spells_commaJoined fun e hmem => Expr.spells (hgroup.2 e hmem))
    rw [hrender, Query.tokens]
    exact (((spells_SELECT.blank spellsItems).append followsFrom).append
      (follows_optionalExpr spells_WHERE hwhere)).append followsGroup

/-- The written forms of the references behind the first. -/
theorem follows_linked : ∀ tables : List TableRef, (∀ t ∈ linkedTokens tables, t.IsPlain) →
    Follows (renderLinked tables) (linkedTokens tables)
  | [], _ => .empty
  | t :: ts, plain => by
    rw [linkedTokens, List.forall_mem_append] at plain
    rw [renderLinked, linkedTokens]
    exact (follows_link (TableRef.spells t) plain.1).append (follows_linked ts plain.2)

/-- The written form of a reference without its join. -/
theorem TableRef.spells : ∀ t : TableRef, (∀ u ∈ t.sourceTokens, u.IsPlain) →
    Spells t.renderSource t.sourceTokens
  | ⟨source, alias?, join?⟩, plain => by
    rw [TableRef.sourceTokens] at plain ⊢
    rw [TableRef.renderSource]
    exact spells_withAlias (Source.spells source) plain

/-- The written form of a source. -/
theorem Source.spells : ∀ source : Source, (∀ t ∈ source.tokens, t.IsPlain) →
    Spells source.render source.tokens
  | .table name, plain => by
    rw [Source.tokens] at plain ⊢
    rw [Source.render]
    exact spells_name (plain (.ident name) List.mem_cons_self)
  | .view query, plain => by
    rw [Source.tokens] at plain ⊢
    rw [Source.render]
    have hopen : Separates "(" [.mark .lparen] := separates_mark rfl rfl rfl
    have hclose : Separates ")" [.mark .rparen] := separates_mark rfl rfl rfl
    rw [List.cons_append, List.forall_mem_cons, List.forall_mem_append] at plain
    exact ((hopen.append (Query.spells query plain.2.1)).append hclose.follows).spells

end

/-! ### Statements -/

theorem spells_INSERT_OVERWRITE_TABLE :
    Spells "INSERT OVERWRITE TABLE" [.keyword .INSERT, .keyword .OVERWRITE, .keyword .TABLE] := by
  have hinsert : Spells "INSERT" [.keyword .INSERT] := spells_keyword .INSERT (by decide)
  have htable : Spells "OVERWRITE TABLE" [.keyword .OVERWRITE, .keyword .TABLE] :=
    .split (by decide) spells_OVERWRITE spells_TABLE
  exact .split (by decide) hinsert htable

theorem spells_LOAD_DATA_INPATH :
    Spells "LOAD DATA INPATH" [.keyword .LOAD, .keyword .DATA, .keyword .INPATH] := by
  have hload : Spells "LOAD" [.keyword .LOAD] := spells_keyword .LOAD (by decide)
  have hdata : Spells "DATA" [.keyword .DATA] := spells_keyword .DATA (by decide)
  have hinpath : Spells "INPATH" [.keyword .INPATH] := spells_keyword .INPATH (by decide)
  have hmore : Spells "DATA INPATH" [.keyword .DATA, .keyword .INPATH] :=
    .split (by decide) hdata hinpath
  exact .split (by decide) hload hmore

theorem spells_INTO_TABLE : Spells "INTO TABLE" [.keyword .INTO, .keyword .TABLE] := by
  have hinto : Spells "INTO" [.keyword .INTO] := spells_keyword .INTO (by decide)
  exact .split (by decide) hinto spells_TABLE

/-- The written form of a statement spells its tokens. -/
theorem Statement.spells {s : Statement} (plain : ∀ t ∈ s.tokens, t.IsPlain) :
    Spells s.render s.tokens := by
  cases s with
  | select query => exact Query.spells query plain
  | insert target? query =>
    cases target? with
    | none => exact Query.spells query plain
    | some target =>
      have hwords : "INSERT OVERWRITE TABLE " = "INSERT OVERWRITE TABLE" ++ " " := by decide
      have hrender : (Statement.insert (some target) query).render =
          "INSERT OVERWRITE TABLE" ++ (" " ++ (target ++ (" " ++ query.render))) := by
        unfold Statement.render
        rw [hwords]
        simp only [String.append_assoc]
      rw [Statement.tokens] at plain ⊢
      simp only [List.forall_mem_append, List.forall_mem_cons, Token.IsPlain] at plain
      rw [hrender]
      exact spells_INSERT_OVERWRITE_TABLE.blank
        ((spells_name plain.1.2.2.2.1).blank (Query.spells query plain.2))
  | load path table overwrite =>
    have hload : "LOAD DATA INPATH '" = "LOAD DATA INPATH" ++ (" " ++ "'") := by decide
    have hquote : "' " = "'" ++ " " := by decide
    have hinto : "INTO TABLE " = "INTO TABLE" ++ " " := by decide
    have hrender : (Statement.load path table overwrite).render =
        "LOAD DATA INPATH" ++ (" " ++ ("'" ++ path ++ "'" ++
          (" " ++ ((if overwrite then "OVERWRITE " else "") ++
            ("INTO TABLE" ++ (" " ++ table)))))) := by
      unfold Statement.render
      rw [hload, hquote, hinto]
      simp only [String.append_assoc]
    rw [Statement.tokens] at plain ⊢
    simp only [List.forall_mem_append, List.forall_mem_cons, Token.IsPlain] at plain
    have hpath := spells_string plain.1.1.2.2.2.1
    have htable : Spells ("INTO TABLE" ++ (" " ++ table))
        [.keyword .INTO, .keyword .TABLE, .ident table] :=
      spells_INTO_TABLE.blank (spells_name plain.2.2.2.1)
    rw [hrender]
    cases overwrite with
    | true => exact spells_LOAD_DATA_INPATH.blank (hpath.blank (spells_OVERWRITE.blank htable))
    | false => exact spells_LOAD_DATA_INPATH.blank (hpath.blank htable)

/-- If all names and literals of a statement are plain, its written form is scanned as its
    tokens. -/
theorem Statement.ofText_render {s : Statement} (plain : ∀ t ∈ s.tokens, t.IsPlain) :
    Token.ofText s.render = .ok (s.tokens ++ [.eof]) := by
  have stops : StopsAt isNumberChar [] := fun c hc => by cases hc
  have h := Statement.spells plain [] stops
  rw [List.append_nil, scan_nil] at h
  exact h

end SqlGuard
