import SqlGuard.Analysis.Statement
import SqlGuard.Proofs.LetterCase.Letters
import SqlGuard.Proofs.Outcome

/-!
# Statements without letter case

The ASCII letters of all names and numbers in lower case, and everything else as it is: in tokens,
trees, statements and errors. Two statements are equal up to the case of their names and numbers if
they are equal after that. Main definitions: `Statement.folded` and `StatementError.folded`.
-/

namespace SqlGuard

/-! ### Tokens and trees -/

/-- The token, a name or a number in lower case. -/
def Token.folded : Token → Token
  | .ident name => .ident (Text.folded name)
  | .number text => .number (Text.folded text)
  | t => t

/-- The tags of leaves that are names or numbers. -/
def Tag.hasLetters : Tag → Bool
  | .identifier | .number | .bigintLiteral | .smallintLiteral | .tinyintLiteral
  | .decimalLiteral => true
  | _ => false

namespace SyntaxTree

mutual

/-- The tree, its names and numbers in lower case. -/
def folded : SyntaxTree → SyntaxTree
  | mk tag text children =>
    mk tag (if tag.hasLetters then Text.folded text else text) (foldedAll children)

/-- The same for trees. -/
def foldedAll : List SyntaxTree → List SyntaxTree
  | [] => []
  | t :: ts => t.folded :: foldedAll ts

end

end SyntaxTree

/-! ### Statements -/

/-- The reference, its names in lower case. -/
def Field.folded (f : Field) : Field :=
  { f with qualifier := Text.folded f.qualifier, name := Text.folded f.name }

/-- The expression, its names and numbers in lower case. -/
def Expr.folded : Expr → Expr
  | .field f => .field f.folded
  | .literal .string text => .literal .string text
  | .literal kind text => .literal kind (Text.folded text)
  | .starCall name => .starCall (Text.folded name)
  | .arith op left right type => .arith op left.folded right.folded type
  | .compare op left right => .compare op left.folded right.folded

/-- The item, its names and numbers in lower case. -/
def SelectItem.folded (item : SelectItem) : SelectItem where
  expr := item.expr.folded
  alias? := item.alias?.map Text.folded

/-- The join, the names and numbers of its condition in lower case. -/
def Join.folded (join : Join) : Join := { join with on? := join.on?.map Expr.folded }

mutual

/-- The query, all its names and numbers in lower case. -/
def Query.folded : Query → Query
  | ⟨items, where?, groupBy, tables⟩ =>
    ⟨items.map SelectItem.folded, where?.map Expr.folded, groupBy.map Expr.folded,
      foldedTables tables⟩

/-- The same for references. -/
def foldedTables : List TableRef → List TableRef
  | [] => []
  | t :: ts => t.folded :: foldedTables ts

/-- The same for a reference. -/
def TableRef.folded : TableRef → TableRef
  | ⟨source, alias?, join?⟩ => ⟨source.folded, alias?.map Text.folded, join?.map Join.folded⟩

/-- The same for a source. -/
def Source.folded : Source → Source
  | .table name => .table (Text.folded name)
  | .view query => .view query.folded

end

/-- The statement, all its names and numbers in lower case. The path of a file is no name. -/
def Statement.folded : Statement → Statement
  | .select query => .select query.folded
  | .insert target? query => .insert (target?.map Text.folded) query.folded
  | .load path table overwrite => .load path (Text.folded table) overwrite

/-! ### Errors -/

/-- The refusal, the names and numbers that it leaves in lower case. -/
def SyntaxError.folded (e : SyntaxError) : SyntaxError := { e with rest := e.rest.map Token.folded }

/-- The error, what it shows of a text in lower case. -/
def ParseError.folded : ParseError → ParseError
  | .scan e => .scan e
  | .grammar e => .grammar e.folded

/-- The error, the element that it shows in lower case. -/
def LoweringError.folded : LoweringError → LoweringError
  | .unsupportedConstruct place element => .unsupportedConstruct place (Text.folded element)
  | .unsupportedJoinCondition condition => .unsupportedJoinCondition (Text.folded condition)
  | e => e

/-- The error, the names that it shows in lower case. -/
def AnalysisError.folded : AnalysisError → AnalysisError
  | .unknownTable name => .unknownTable (Text.folded name)
  | .unknownQualifier qualifier => .unknownQualifier (Text.folded qualifier)
  | .unknownColumn qualifier name => .unknownColumn (Text.folded qualifier) (Text.folded name)
  | .ambiguous name => .ambiguous (Text.folded name)
  | .incompatibleOperands op left right => .incompatibleOperands op left right

/-- The error, what it shows of a text in lower case. -/
def StatementError.folded : StatementError → StatementError
  | .parse e => .parse e.folded
  | .lowering e => .lowering e.folded
  | .analysis e => .analysis e.folded

/-! ### What does not have letter case -/

namespace SyntaxTree

@[simp]
theorem tag_folded (tree : SyntaxTree) : tree.folded.tag = tree.tag := by
  cases tree
  rfl

theorem foldedAll_eq_map (ts : List SyntaxTree) : foldedAll ts = ts.map folded := by
  induction ts with
  | nil => rfl
  | cons t ts ih => rw [foldedAll, ih, List.map_cons]

theorem folded_mk (tag : Tag) (text : String) (children : List SyntaxTree) :
    (mk tag text children).folded =
      mk tag (if tag.hasLetters then Text.folded text else text) (children.map folded) := by
  rw [folded, foldedAll_eq_map]

@[simp]
theorem children_folded (tree : SyntaxTree) : tree.folded.children = tree.children.map folded := by
  cases tree
  rw [folded_mk]
  rfl

@[simp]
theorem folded_node (tag : Tag) (noLetters : tag.hasLetters = false) (children : List SyntaxTree) :
    (node tag children).folded = node tag (children.map folded) := by
  rw [node, folded_mk, noLetters]
  rfl

mutual

/-- Trees are written alike up to letter case. -/
theorem asciiFold_render_folded : ∀ tree : SyntaxTree,
    Text.asciiFold tree.folded.render = Text.asciiFold tree.render
  | mk tag text [] => by
    rw [folded, foldedAll, render, render]
    split
    · exact Text.asciiFold_folded text
    · rfl
  | mk tag text (t :: ts) => by
    have htext : Text.asciiFold (if tag.hasLetters then Text.folded text else text) =
        Text.asciiFold text := by
      split
      · exact Text.asciiFold_folded text
      · rfl
    have hmore := asciiFold_renderBlanks_folded (t :: ts)
    rw [foldedAll] at hmore
    rw [folded, foldedAll, render, render]
    simp only [Text.asciiFold_append, htext, hmore]

theorem asciiFold_renderBlanks_folded : ∀ ts : List SyntaxTree,
    Text.asciiFold (renderBlanks (foldedAll ts)) = Text.asciiFold (renderBlanks ts)
  | [] => rfl
  | t :: ts => by
    rw [foldedAll, renderBlanks, renderBlanks]
    simp only [Text.asciiFold_append, asciiFold_render_folded t, asciiFold_renderBlanks_folded ts]

end

end SyntaxTree

theorem foldedTables_eq_map (ts : List TableRef) : foldedTables ts = ts.map TableRef.folded := by
  induction ts with
  | nil => rfl
  | cons t ts ih => rw [foldedTables, ih, List.map_cons]

@[simp]
theorem Expr.type_folded (e : Expr) : e.folded.type = e.type := by
  cases e with
  | literal kind text =>
    cases kind with
    | int => exact LiteralKind.type_folded .int text
    | float => exact LiteralKind.type_folded .float text
    | string => rfl
  | _ => rfl

@[simp]
theorem Expr.isProtected_folded (e : Expr) : e.folded.isProtected = e.isProtected := by
  induction e with
  | field f => rfl
  | literal kind text => cases kind <;> rfl
  | starCall name => rfl
  | arith op left right type ihl ihr => simp only [folded, isProtected, ihl, ihr]
  | compare op left right ihl ihr => simp only [folded, isProtected, ihl, ihr]

/-! ### Computations that are mirrored -/

/-- Values that may be left out are folded to the same if both are, or none. -/
theorem map_eq_map_iff {α β : Type} {fold : α → β} {o o' : Option α} :
    o.map fold = o'.map fold ↔
      (o = none ∧ o' = none) ∨ ∃ a b, o = some a ∧ o' = some b ∧ fold a = fold b := by
  cases o <;> cases o' <;> simp

/-- Both computations fail, with errors that are told the same, or they succeed with answers that
    are related. -/
inductive Mirrors {ε κ α β : Type} (tell : ε → κ) (R : α → β → Prop) :
    Except ε α → Except ε β → Prop
  | error {e e' : ε} (same : tell e = tell e') : Mirrors tell R (.error e) (.error e')
  | ok {a : α} {b : β} (related : R a b) : Mirrors tell R (.ok a) (.ok b)

namespace Mirrors

variable {ε κ α β γ δ : Type} {tell : ε → κ} {R : α → β → Prop} {S : γ → δ → Prop}
  {x : Except ε α} {y : Except ε β}

theorem refl {R : α → α → Prop} (h : ∀ a, R a a) (x : Except ε α) : Mirrors tell R x x := by
  cases x with
  | error e => exact .error rfl
  | ok a => exact .ok (h a)

/-- The second steps are only compared on what the first ones answer. -/
theorem bind_of_ok {f : α → Except ε γ} {g : β → Except ε δ} (h : Mirrors tell R x y)
    (hfg : ∀ a b, x = .ok a → R a b → Mirrors tell S (f a) (g b)) :
    Mirrors tell S (x >>= f) (y >>= g) := by
  cases h with
  | error same => exact .error same
  | ok related => exact hfg _ _ rfl related

theorem bind {f : α → Except ε γ} {g : β → Except ε δ} (h : Mirrors tell R x y)
    (hfg : ∀ a b, R a b → Mirrors tell S (f a) (g b)) : Mirrors tell S (x >>= f) (y >>= g) :=
  h.bind_of_ok fun a b _ => hfg a b

theorem map {f : α → γ} {g : β → δ} (h : Mirrors tell R x y) (hfg : ∀ a b, R a b → S (f a) (g b)) :
    Mirrors tell S (f <$> x) (g <$> y) := by
  cases h with
  | error same => exact .error same
  | ok related => exact .ok (hfg _ _ related)

theorem mapError {ε' κ' : Type} {tell' : ε' → κ'} {f : ε → ε'} (h : Mirrors tell R x y)
    (hf : ∀ e e', tell e = tell e' → tell' (f e) = tell' (f e')) :
    Mirrors tell' R (x.mapError f) (y.mapError f) := by
  cases h with
  | error same => exact .error (hf _ _ same)
  | ok related => exact .ok related

/-- Steps for each element of two lists are mirrored if every single one is. -/
theorem mapM {f : α → Except ε γ} {g : β → Except ε γ} {h : α → β} {fold : γ → δ} {xs : List α}
    (each : ∀ x ∈ xs, Mirrors tell (fun c d => fold c = fold d) (f x) (g (h x))) :
    Mirrors tell (fun cs ds => cs.map fold = ds.map fold) (xs.mapM f) ((xs.map h).mapM g) := by
  induction xs with
  | nil => exact .ok rfl
  | cons x xs ih =>
    rw [List.forall_mem_cons] at each
    rw [List.map_cons, List.mapM_cons, List.mapM_cons]
    refine each.1.bind fun c d hcd => (ih each.2).bind fun cs ds hds => .ok ?_
    rw [List.map_cons, List.map_cons, hcd, hds]

theorem of_map_eq {fold : α → γ} {x y : Except ε α} (h : x.map fold = y.map fold) :
    Mirrors id (fun a b => fold a = fold b) x y := by
  cases x with
  | error e =>
    cases y with
    | error e' => exact .error (Except.error.inj h)
    | ok b => cases h
  | ok a =>
    cases y with
    | error e' => cases h
    | ok b => exact .ok (Except.ok.inj h)

theorem ok_left {a : α} (h : Mirrors tell R (.ok a) y) : ∃ b, y = .ok b ∧ R a b := by
  cases h with
  | ok related => exact ⟨_, rfl, related⟩

/-- Two computations that are mirrored in one are mirrored in each other. -/
theorem both {T : α → β → Prop} {R : α → γ → Prop} {S : β → γ → Prop} {z : Except ε γ}
    (h : Mirrors tell R x z) (h' : Mirrors tell S y z) (hT : ∀ a b c, R a c → S b c → T a b) :
    Mirrors tell T x y := by
  cases h with
  | error same =>
    cases h' with
    | error same' => exact .error (same.trans same'.symm)
  | ok related =>
    cases h' with
    | ok related' => exact .ok (hT _ _ _ related related')

theorem mono {S : α → β → Prop} (h : Mirrors tell R x y) (hRS : ∀ a b, R a b → S a b) :
    Mirrors tell S x y := by
  cases h with
  | error same => exact .error same
  | ok related => exact .ok (hRS _ _ related)

end Mirrors

end SqlGuard
