import SqlGuard.Proofs.Statement.Tokens
import SqlGuard.Proofs.Token.Scanned
import SqlGuard.Statement.Render

/-!
# Backticks in written forms

Names are written without the backticks they were read with, so a written form holds the backticks
of its names and literals themselves and no others. Main statement: `Query.carries`.
-/

namespace SqlGuard

open Token

/-- The text holds the backticks of the tokens and no others. -/
def Carries (text : String) (ts : List Token) : Prop :=
  text.toList.count '\x60' = (ts.flatMap chars).count '\x60'

instance (text : String) (ts : List Token) : Decidable (Carries text ts) :=
  inferInstanceAs (Decidable (_ = _))

namespace Carries

variable {text text' : String} {ts us : List Token}

theorem append (h : Carries text ts) (h' : Carries text' us) :
    Carries (text ++ text') (ts ++ us) := by
  unfold Carries at *
  rw [String.toList_append, List.count_append, h, h', List.flatMap_append, List.count_append]

/-- A text without backticks may be put behind. -/
theorem append_bare (h : Carries text ts) (bare : Carries text' []) :
    Carries (text ++ text') ts := by
  have happend := h.append bare
  rwa [List.append_nil] at happend

/-- A name or a literal that is written as it is. -/
theorem single {t : Token} (h : t.chars = text.toList) : Carries text [t] := by
  unfold Carries
  rw [List.flatMap_singleton, h]

theorem ident (name : String) : Carries name [.ident name] := .single rfl

theorem enclosed (parentheses : Bool) (h : Carries text ts) :
    Carries (Expr.enclosedIf parentheses text) (enclosedTokens parentheses ts) := by
  cases parentheses with
  | false => exact h
  | true =>
    have hopen : Carries "(" [.mark .lparen] := rfl
    have hclose : Carries ")" [.mark .rparen] := rfl
    exact (hopen.append h).append hclose

end Carries

/-! ### Expressions -/

theorem carries_numberTokens (text : String) : Carries text (numberTokens text) := by
  unfold numberTokens
  split
  · rename_i digits htext
    have hminus : Carries "-" [.mark .minus] := rfl
    have hdigits : Carries (String.ofList digits) [.number (String.ofList digits)] := .single rfl
    rw [← minus_append_ofList htext]
    exact hminus.append hdigits
  · exact .single rfl

theorem carries_arithOp (op : ArithOp) : Carries (" " ++ op.symbol ++ " ") [.mark op.mark] := by
  cases op <;> decide

theorem carries_compareOp (op : CompareOp) :
    Carries (" " ++ op.symbol ++ " ") [.mark op.mark] := by
  cases op <;> decide

theorem Expr.carries (e : Expr) : Carries e.render e.tokens := by
  induction e with
  | field f =>
    unfold Expr.render Expr.tokens
    by_cases hq : f.qualifier.isEmpty = true
    · rw [if_pos hq, if_pos hq]
      exact .ident f.name
    · rw [if_neg hq, if_neg hq]
      have hdot : Carries "." [.mark .dot] := rfl
      exact ((Carries.ident f.qualifier).append hdot).append (.ident f.name)
  | literal kind text =>
    cases kind with
    | string => exact .single rfl
    | int => exact carries_numberTokens text
    | float => exact carries_numberTokens text
  | starCall name =>
    have hstar : Carries "(*)" [.mark .lparen, .mark .asterisk, .mark .rparen] := rfl
    exact (Carries.ident name).append hstar
  | arith op left right note ihl ihr =>
    have hrender : (Expr.arith op left right note).render =
        enclosedIf left.isArith left.render ++
          (" " ++ op.symbol ++ " " ++ enclosedIf right.isArith right.render) := by
      simp only [Expr.render, String.append_assoc]
    rw [hrender, Expr.tokens]
    exact (ihl.enclosed _).append ((carries_arithOp op).append (ihr.enclosed _))
  | compare op left right ihl ihr =>
    have hrender : (Expr.compare op left right).render =
        left.render ++ (" " ++ op.symbol ++ " " ++ right.render) := by
      simp only [Expr.render, String.append_assoc]
    rw [hrender, Expr.tokens]
    exact ihl.append ((carries_compareOp op).append ihr)

/-! ### Lists and clauses -/

theorem SelectItem.carries (item : SelectItem) : Carries item.render item.tokens := by
  obtain ⟨e, alias?⟩ := item
  cases alias? with
  | none => exact e.carries
  | some name =>
    have hAS : Carries " AS " [.keyword .AS] := rfl
    have hitem := (e.carries.append hAS).append (.ident name)
    rw [List.append_assoc] at hitem
    exact hitem

theorem carries_commaJoined {α : Type} {f : α → String} {g : α → List Token}
    (h : ∀ x, Carries (f x) (g x)) (xs : List α) :
    Carries (commaJoined (xs.map f)) (commaTokens (xs.map g)) := by
  induction xs with
  | nil => rfl
  | cons x xs ih =>
    cases xs with
    | nil =>
      simpa only [List.map_cons, List.map_nil, commaJoined, String.intercalate_singleton,
        commaTokens] using h x
    | cons y ys =>
      have hcomma : Carries ", " [.mark .comma] := rfl
      simp only [List.map_cons, commaJoined_cons_cons, commaTokens]
      exact (h x).append (hcomma.append ih)

theorem carries_clause {word : String} {words : List Token} {content? : Option String}
    {ts? : Option (List Token)} (hword : Carries (" " ++ word ++ " ") words)
    (h : Option.Rel Carries content? ts?) :
    Carries (renderClause word content?) (clauseTokens words ts?) := by
  cases h with
  | none => rfl
  | some hcontent => exact hword.append hcontent

theorem carries_optionalExpr {word : String} {words : List Token}
    (hword : Carries (" " ++ word ++ " ") words) (e? : Option Expr) :
    Carries (renderClause word (e?.map Expr.render)) (clauseTokens words (e?.map Expr.tokens)) := by
  apply carries_clause hword
  cases e? with
  | none => exact .none
  | some e => exact .some e.carries

theorem carries_joinOp (op : JoinOp) : Carries (" " ++ op.keyword ++ " ") op.tokens := by
  cases op <;> decide

theorem carries_withAlias {source : String} {ts : List Token} (h : Carries source ts)
    (alias? : Option String) : Carries (withAlias source alias?) (withAliasTokens ts alias?) := by
  cases alias? with
  | none => exact h
  | some name =>
    have hblank : Carries " " [] := rfl
    exact (h.append_bare hblank).append (.ident name)

theorem carries_link {reference : String} {ts : List Token} (h : Carries reference ts)
    (join? : Option Join) : Carries (renderLink reference join?) (linkTokens ts join?) := by
  cases join? with
  | none =>
    have hcomma : Carries ", " [.mark .comma] := rfl
    exact hcomma.append h
  | some join =>
    have hON : Carries (" " ++ "ON" ++ " ") [.keyword .ON] := rfl
    exact ((carries_joinOp join.op).append h).append (carries_optionalExpr hON join.on?)

/-! ### Queries -/

mutual

/-- A written query holds the backticks of its names and literals. -/
theorem Query.carries : ∀ query : Query, Carries query.render query.tokens
  | ⟨items, where?, groupBy, tables⟩ => by
    have hSELECT : Carries "SELECT " [.keyword .SELECT] := rfl
    have hFROM : Carries (" " ++ "FROM" ++ " ") [.keyword .FROM] := rfl
    have hWHERE : Carries (" " ++ "WHERE" ++ " ") [.keyword .WHERE] := rfl
    have hGROUP : Carries (" " ++ "GROUP BY" ++ " ") [.keyword .GROUP, .keyword .BY] := rfl
    have hitems := carries_commaJoined SelectItem.carries items
    have hfrom : Option.Rel Carries (renderTables? tables) (tableTokens? tables) := by
      cases tables with
      | nil => exact .none
      | cons t ts => exact .some ((TableRef.carries t).append (carries_linked ts))
    have hgroup : Option.Rel Carries (renderGroupBy? groupBy) (groupTokens? groupBy) := by
      unfold renderGroupBy? groupTokens?
      by_cases hempty : groupBy.isEmpty = true
      · rw [if_pos hempty, if_pos hempty]
        exact .none
      · rw [if_neg hempty, if_neg hempty]
        exact .some (carries_commaJoined Expr.carries groupBy)
    rw [Query.render, Query.tokens]
    exact (((hSELECT.append hitems).append (carries_clause hFROM hfrom)).append
      (carries_optionalExpr hWHERE where?)).append (carries_clause hGROUP hgroup)

/-- The references behind the first. -/
theorem carries_linked : ∀ tables : List TableRef,
    Carries (renderLinked tables) (linkedTokens tables)
  | [] => rfl
  | t :: ts => by
    rw [renderLinked, linkedTokens]
    exact (carries_link (TableRef.carries t) t.join?).append (carries_linked ts)

/-- A reference without its join. -/
theorem TableRef.carries : ∀ t : TableRef, Carries t.renderSource t.sourceTokens
  | ⟨source, alias?, join?⟩ => by
    rw [TableRef.renderSource, TableRef.sourceTokens]
    exact carries_withAlias (Source.carries source) alias?

/-- A table or a view. -/
theorem Source.carries : ∀ source : Source, Carries source.render source.tokens
  | .table name => by
    rw [Source.render, Source.tokens]
    exact .ident name
  | .view query => by
    have hopen : Carries "(" [.mark .lparen] := rfl
    have hclose : Carries ")" [.mark .rparen] := rfl
    rw [Source.render, Source.tokens]
    exact (hopen.append (Query.carries query)).append hclose

end

end SqlGuard
