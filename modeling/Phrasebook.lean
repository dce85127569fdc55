import Phrasebook.Batch
import Phrasebook.Batch.Protocol
import Phrasebook.Book
import Phrasebook.Book.Check
import Phrasebook.Book.Error
import Phrasebook.Book.Phrase
import Phrasebook.Book.Shared
import Phrasebook.Book.Watch
import Phrasebook.Cli
import Phrasebook.Cli.Arguments
import Phrasebook.Cli.Flag
import Phrasebook.Config
import Phrasebook.Config.Encoding
import Phrasebook.Config.Load
import Phrasebook.Config.Record
import Phrasebook.Files
import Phrasebook.Files.Scan
import Phrasebook.Literal
import Phrasebook.Literal.Items
import Phrasebook.Main
import Phrasebook.Match
import Phrasebook.Match.Context
import Phrasebook.Match.Continuation
import Phrasebook.Match.Literal
import Phrasebook.Number.Binary64
import Phrasebook.Number.Duration
import Phrasebook.Number.Integer
import Phrasebook.Pattern
import Phrasebook.Pattern.Compile
import Phrasebook.Pattern.Error
import Phrasebook.Pattern.Slot
import Phrasebook.Proofs.Book.Construction
import Phrasebook.Proofs.Book.Effects
import Phrasebook.Proofs.Book.FirstMatch
import Phrasebook.Proofs.Book.Nesting
import Phrasebook.Proofs.Book.Soundness
import Phrasebook.Proofs.Except
import Phrasebook.Proofs.Match.Derivation
import Phrasebook.Proofs.Match.EqualTrees
import Phrasebook.Proofs.Match.Extent
import Phrasebook.Proofs.Match.Leaves
import Phrasebook.Proofs.Match.Lookahead
import Phrasebook.Proofs.Match.Offers
import Phrasebook.Proofs.Match.Refactoring
import Phrasebook.Proofs.Match.Respelling
import Phrasebook.Proofs.Match.TrailingBlank
import Phrasebook.Proofs.Match.Transaction
import Phrasebook.Proofs.Pattern.Brackets
import Phrasebook.Proofs.Pattern.Concatenation
import Phrasebook.Proofs.Pattern.Equality
import Phrasebook.Proofs.Pattern.Marks
import Phrasebook.Proofs.Pattern.Nodes
import Phrasebook.Proofs.Pattern.Normal
import Phrasebook.Proofs.Pattern.Reading
import Phrasebook.Proofs.Pattern.Recompile
import Phrasebook.Proofs.Pattern.RoundTrip
import Phrasebook.Proofs.Pattern.Slots
import Phrasebook.Proofs.Pattern.Spelling
import Phrasebook.Proofs.Regex.Anchoring
import Phrasebook.Proofs.Regex.Search
import Phrasebook.Proofs.Registry.Runs
import Phrasebook.Proofs.Text.Blank
import Phrasebook.Proofs.Text.Utf8
import Phrasebook.Record
import Phrasebook.Regex
import Phrasebook.Regex.CharSet
import Phrasebook.Regex.Error
import Phrasebook.Regex.Escape
import Phrasebook.Regex.Node
import Phrasebook.Regex.Reader
import Phrasebook.Regex.Search
import Phrasebook.Registry
import Phrasebook.Report
import Phrasebook.Report.Style
import Phrasebook.Report.Tree
import Phrasebook.Scalar
import Phrasebook.Text
import Phrasebook.Text.Base64
import Phrasebook.Text.Json
import Phrasebook.Text.Quoted
import Phrasebook.Toml.Defined
import Phrasebook.Toml.Expression.Reader
import Phrasebook.Toml.Fields
import Phrasebook.Toml.Moment
import Phrasebook.Toml.Printer
import Phrasebook.Toml.Quoted
import Phrasebook.Toml.Value
import Phrasebook.Unicode.Case
import Phrasebook.Unicode.Category
import Phrasebook.Unicode.Script
import Phrasebook.Yaml.Fields
import Phrasebook.Yaml.Meaning
import Phrasebook.Yaml.Node
import Phrasebook.Yaml.Node.Reader
import Phrasebook.Yaml.Printer
import Phrasebook.Yaml.Scalar
import Phrasebook.Yaml.Stream
import Phrasebook.Yaml.Timestamp
import Phrasebook.Yaml.Token
import Phrasebook.Yaml.Token.Lexer
import Phrasebook.Proofs.Batch.Invariant
import Phrasebook.Proofs.Batch.Outcome
import Phrasebook.Proofs.Book.Snapshot
import Phrasebook.Proofs.Registry.Indexed
import Phrasebook.Proofs.Pattern.SlotGrammar
import Phrasebook.Proofs.Pattern.WellFormed
import Phrasebook.Proofs.Pattern.Faults
import Phrasebook.Proofs.Match.Candidates
import Phrasebook.Proofs.Literal.Joining
import Phrasebook.Proofs.Literal.Quoting
import Phrasebook.Proofs.Literal.WholeCharacters
import Phrasebook.Proofs.Config.Cases
import Phrasebook.Proofs.Config.Records
import Phrasebook.Proofs.Files.Extensions
import Phrasebook.Proofs.Files.Paths
import Phrasebook.Proofs.Files.Scan
import Phrasebook.Proofs.Report.Tree
import Phrasebook.Proofs.Report.Underline
import Phrasebook.Proofs.Text.Pieces
import Phrasebook.Proofs.Text.Quoted
