import SqlGuard.Main
import SqlGuard.Proofs.Analysis.Growth
import SqlGuard.Proofs.Analysis.Protection
import SqlGuard.Proofs.Statement.Reanalysis
import SqlGuard.Proofs.Analysis.Marks
import SqlGuard.Proofs.Grammar.Derivation
import SqlGuard.Proofs.Grammar.DerivedExpr
import SqlGuard.Proofs.Grammar.DerivedQuery
import SqlGuard.Proofs.Grammar.DerivedStatement
import SqlGuard.Proofs.Grammar.DerivedTokens
import SqlGuard.Proofs.Grammar.Acceptance
import SqlGuard.Proofs.Grammar.DerivedTrees
import SqlGuard.Proofs.Lowering.Supported
import SqlGuard.Proofs.Lowering.Decided
import SqlGuard.Proofs.Lowering.DecidedQuery
import SqlGuard.Proofs.Lowering.Accepted
import SqlGuard.Proofs.Catalog.History
import SqlGuard.Proofs.Token.Lexemes
import SqlGuard.Proofs.LetterCase.Analysis
import SqlGuard.Proofs.LetterCase.Lowering
import SqlGuard.Proofs.LetterCase.Reading
import SqlGuard.Proofs.LetterCase.Scanning
import SqlGuard.Proofs.LetterCase.Statement
import SqlGuard.Proofs.Meaning.Expression
import SqlGuard.Proofs.Meaning.Query
import SqlGuard.Proofs.Meaning.Statement
import SqlGuard.Proofs.Lowering.Joins
import SqlGuard.Proofs.Lowering.Columns
import SqlGuard.Proofs.Statement.Loads
import SqlGuard.Proofs.CommandLine.Runs
import SqlGuard.Proofs.Analysis.Notes
import SqlGuard.Proofs.Statement.Links
import SqlGuard.Proofs.Lowering.Sources
import SqlGuard.Proofs.Lowering.Levels
import SqlGuard.Proofs.Lowering.Restricted
import SqlGuard.Proofs.Catalog.KnownTypes
import SqlGuard.Proofs.Analysis.FullyTyped
import SqlGuard.Proofs.Analysis.Arithmetic
import SqlGuard.Proofs.Analysis.Renaming
import SqlGuard.Proofs.Analysis.ViewAsTable
import SqlGuard.Proofs.Analysis.Wrapping
import SqlGuard.Proofs.Statement.Insert
import SqlGuard.Proofs.Statement.Appending
import SqlGuard.Proofs.Statement.Numbers
import SqlGuard.Proofs.Analysis.Counting
import SqlGuard.Proofs.Meaning.DecimalTypes
import SqlGuard.Proofs.Catalog.TypeNames
import SqlGuard.Proofs.Grammar.Advances
import SqlGuard.Proofs.Token.Steps
import SqlGuard.Proofs.Grammar.Termination
import SqlGuard.Proofs.Token.Suffixes
