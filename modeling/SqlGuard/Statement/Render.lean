import SqlGuard.Statement

/-!
# The written form of statements

One line of text per statement, with keywords in capitals, single blanks and no semicolon.
-/

namespace SqlGuard

/-- Texts with commas between them. -/
def commaJoined (texts : List String) : String := ", ".intercalate texts

theorem commaJoined_cons_cons (text text' : String) (more : List String) :
    commaJoined (text :: text' :: more) = text ++ (", " ++ commaJoined (text' :: more)) := by
  rw [commaJoined, String.intercalate_cons_cons, String.append_assoc]
  rfl

/-- An item with its alias. -/
def SelectItem.render (item : SelectItem) : String :=
  match item.alias? with
  | some name => item.expr.render ++ " AS " ++ name
  | none => item.expr.render

/-- A clause that is left out where it has no content. -/
def renderClause (word : String) (content? : Option String) : String :=
  match content? with
  | some content => " " ++ word ++ " " ++ content
  | none => ""

/-- The expressions of a GROUP BY clause, if there are any. -/
def renderGroupBy? (exprs : List Expr) : Option String :=
  if exprs.isEmpty then none else some (commaJoined (exprs.map Expr.render))

/-- A source with the alias of its reference. -/
def withAlias (source : String) (alias? : Option String) : String :=
  match alias? with
  | some name => source ++ " " ++ name
  | none => source

/-- A reference behind another one: a join with its condition, or a comma where it is not
    joined. -/
def renderLink (reference : String) (join? : Option Join) : String :=
  match join? with
  | some join =>
    " " ++ join.op.keyword ++ " " ++ reference ++ renderClause "ON" (join.on?.map Expr.render)
  | none => ", " ++ reference

mutual

/-- The written form of a query. -/
def Query.render : Query → String
  | ⟨items, where?, groupBy, tables⟩ =>
    "SELECT " ++ commaJoined (items.map SelectItem.render) ++
      renderClause "FROM" (renderTables? tables) ++
      renderClause "WHERE" (where?.map Expr.render) ++
      renderClause "GROUP BY" (renderGroupBy? groupBy)

/-- The references of a FROM clause, if there are any. The join of the first is not written. -/
def renderTables? : List TableRef → Option String
  | [] => none
  | t :: ts => some (t.renderSource ++ renderLinked ts)

/-- The references behind the first. -/
def renderLinked : List TableRef → String
  | [] => ""
  | t :: ts => renderLink t.renderSource t.join? ++ renderLinked ts

/-- A reference without its join. -/
def TableRef.renderSource : TableRef → String
  | ⟨source, alias?, _⟩ => withAlias source.render alias?

/-- A table by its name, or a view in parentheses. -/
def Source.render : Source → String
  | .table name => name
  | .view query => "(" ++ query.render ++ ")"

end

/-- The written form of a FROM clause without its word. -/
def renderTables (tables : List TableRef) : String := (renderTables? tables).getD ""

/-- The written form of a statement. -/
def Statement.render : Statement → String
  | select query => query.render
  | insert (some target) query => "INSERT OVERWRITE TABLE " ++ target ++ " " ++ query.render
  | insert none query => query.render
  | load path table overwrite =>
    "LOAD DATA INPATH '" ++ path ++ "' " ++ (if overwrite then "OVERWRITE " else "") ++
      "INTO TABLE " ++ table

end SqlGuard
