import ItemFilter.Catalog
import ItemFilter.Catalog.Builtin
import ItemFilter.Catalog.NameSet
import ItemFilter.Catalog.Reader
import ItemFilter.Command.Check
import ItemFilter.Command.Check.Listing
import ItemFilter.Command.Environment
import ItemFilter.Command.Error
import ItemFilter.Command.Keywords
import ItemFilter.Command.Run
import ItemFilter.Command.Settings
import ItemFilter.CommandLine
import ItemFilter.CommandLine.Arguments
import ItemFilter.Config
import ItemFilter.Config.Reader
import ItemFilter.Config.Writer
import ItemFilter.Cursor
import ItemFilter.Diagnostic
import ItemFilter.Document
import ItemFilter.Document.Fixing
import ItemFilter.Document.Linting
import ItemFilter.Json
import ItemFilter.Json.Reader
import ItemFilter.Keyword
import ItemFilter.Keyword.Suggestion
import ItemFilter.Line
import ItemFilter.Line.Classifier
import ItemFilter.Line.Encoding
import ItemFilter.Main
import ItemFilter.Proofs.Acceptance
import ItemFilter.Proofs.Accounting
import ItemFilter.Proofs.CatalogText
import ItemFilter.Proofs.Columns
import ItemFilter.Proofs.CommaLists
import ItemFilter.Proofs.ConfigText
import ItemFilter.Proofs.Configuring
import ItemFilter.Proofs.Contents
import ItemFilter.Proofs.Convergence
import ItemFilter.Proofs.CursorRuns
import ItemFilter.Proofs.EditLaws
import ItemFilter.Proofs.ExitStatus
import ItemFilter.Proofs.Files
import ItemFilter.Proofs.FirstChunk
import ItemFilter.Proofs.FirstSpellings
import ItemFilter.Proofs.FixedFiles
import ItemFilter.Proofs.Grammar
import ItemFilter.Proofs.HexExpansion
import ItemFilter.Proofs.HexPairs
import ItemFilter.Proofs.JsonFindings
import ItemFilter.Proofs.JsonText
import ItemFilter.Proofs.KeywordLine
import ItemFilter.Proofs.LargerCatalogs
import ItemFilter.Proofs.Lexeme
import ItemFilter.Proofs.LineEndings
import ItemFilter.Proofs.Linewise
import ItemFilter.Proofs.Locations
import ItemFilter.Proofs.Mending
import ItemFilter.Proofs.NameLists
import ItemFilter.Proofs.NameMatching
import ItemFilter.Proofs.NumberLists
import ItemFilter.Proofs.Outcomes
import ItemFilter.Proofs.Phrase
import ItemFilter.Proofs.Places
import ItemFilter.Proofs.Reachable
import ItemFilter.Proofs.Reapplying
import ItemFilter.Proofs.Repair
import ItemFilter.Proofs.Reporting
import ItemFilter.Proofs.Rewriting
import ItemFilter.Proofs.RuleReading
import ItemFilter.Proofs.Scan
import ItemFilter.Proofs.ShownLists
import ItemFilter.Proofs.SkippedFixes
import ItemFilter.Proofs.StoredColumns
import ItemFilter.Proofs.Substitution
import ItemFilter.Proofs.Suggesting
import ItemFilter.Proofs.Tallies
import ItemFilter.Proofs.Terminal
import ItemFilter.Proofs.TokenClasses
import ItemFilter.Proofs.TrailingComment
import ItemFilter.Proofs.Trim
import ItemFilter.Proofs.Warnings
import ItemFilter.Proofs.Whitelisting
import ItemFilter.Proofs.Wording
import ItemFilter.Rule
import ItemFilter.Rule.Block
import ItemFilter.Rule.Color
import ItemFilter.Rule.HexColor
import ItemFilter.Rule.Number
import ItemFilter.Rule.Outcome
import ItemFilter.Rule.Word
import ItemFilter.Span
import ItemFilter.Storage
import ItemFilter.Storage.Path
import ItemFilter.Style
import ItemFilter.Text.Blank
import ItemFilter.Text.Bytes
import ItemFilter.Text.CaseData
import ItemFilter.Text.Distance
import ItemFilter.Text.Lowercase
import ItemFilter.Text.Split
import ItemFilter.Token
import ItemFilter.Toml
import ItemFilter.Toml.Number
import ItemFilter.Toml.Quoted
import ItemFilter.Toml.Reader
import ItemFilter.Toml.Space
import ItemFilter.Toml.Spelling
import ItemFilter.Toml.Tree
