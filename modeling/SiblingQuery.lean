import SiblingQuery.Command.Arguments
import SiblingQuery.Command.Log
import SiblingQuery.Command.Run
import SiblingQuery.Command.Settings
import SiblingQuery.Files.Loading
import SiblingQuery.Files.Saving
import SiblingQuery.Files.Store
import SiblingQuery.Gzip.Bits
import SiblingQuery.Gzip.Checksum
import SiblingQuery.Gzip.Inflate
import SiblingQuery.Gzip.Member
import SiblingQuery.Gzip.PrefixCode
import SiblingQuery.Json.Printer
import SiblingQuery.Json.Quoted
import SiblingQuery.Json.Source
import SiblingQuery.Json.Token
import SiblingQuery.Json.Value
import SiblingQuery.Main
import SiblingQuery.Number.Double
import SiblingQuery.Number.Numeral
import SiblingQuery.Number.Shortest
import SiblingQuery.Number.Word
import SiblingQuery.Query.Display
import SiblingQuery.Query.Position
import SiblingQuery.Query.Search
import SiblingQuery.Query.Test
import SiblingQuery.Regex.Bracket
import SiblingQuery.Regex.CharSet
import SiblingQuery.Regex.Escape
import SiblingQuery.Regex.Mode
import SiblingQuery.Regex.Pattern
import SiblingQuery.Regex.Source
import SiblingQuery.Text.Alphabetic
import SiblingQuery.Text.Blank
import SiblingQuery.Text.Category
import SiblingQuery.Text.Ranges
import SiblingQuery.Text.Terminal
import SiblingQuery.Text.Unprintable
import SiblingQuery.Text.Utf8
import SiblingQuery.Toml.Document
import SiblingQuery.Toml.Layout
import SiblingQuery.Toml.Quoted
import SiblingQuery.Toml.Scalar
import SiblingQuery.Toml.Table
import SiblingQuery.Toml.Value
import SiblingQuery.Tree.Entry
import SiblingQuery.Tree.Format
import SiblingQuery.Tree.FromJson
import SiblingQuery.Tree.FromYaml
import SiblingQuery.Tree.Node
import SiblingQuery.Tree.Path
import SiblingQuery.Tree.Place
import SiblingQuery.Tree.Rendering
import SiblingQuery.Yaml.Cursor
import SiblingQuery.Yaml.Printer
import SiblingQuery.Yaml.Quoting
import SiblingQuery.Yaml.Resolve
import SiblingQuery.Yaml.Token
import SiblingQuery.Yaml.Token.Lexer
import SiblingQuery.Yaml.Token.Scalar
import SiblingQuery.Yaml.Token.Tag
import SiblingQuery.Yaml.Tree
import SiblingQuery.Proofs.Search
import SiblingQuery.Proofs.Identity
import SiblingQuery.Proofs.PrintedNumbers
import SiblingQuery.Proofs.JsonDocument
import SiblingQuery.Proofs.JsonReading
import SiblingQuery.Proofs.WellFormed
import SiblingQuery.Proofs.YamlReading
import SiblingQuery.Proofs.YamlMeaning
import SiblingQuery.Proofs.RoundTrip
import SiblingQuery.Proofs.SerialisedForm
import SiblingQuery.Proofs.Preservation
import SiblingQuery.Proofs.Tests
import SiblingQuery.Proofs.GzipRoundTrip
import SiblingQuery.Proofs.Pieces
import SiblingQuery.Proofs.Saving
import SiblingQuery.Proofs.Runs
import SiblingQuery.Proofs.FailedRuns
import SiblingQuery.Proofs.Loading
import SiblingQuery.Proofs.Shape
import SiblingQuery.Proofs.FieldHistory
import SiblingQuery.Proofs.Reloading
import SiblingQuery.Proofs.YamlCursor
import SiblingQuery.Proofs.YamlQuoted
import SiblingQuery.Proofs.YamlUnquoted
import SiblingQuery.Proofs.YamlLexing
import SiblingQuery.Proofs.YamlPrinted
import SiblingQuery.Proofs.YamlTokens
import SiblingQuery.Proofs.YamlScanning
import SiblingQuery.Proofs.YamlTrees
import SiblingQuery.Proofs.YamlResolving
import SiblingQuery.Proofs.YamlRoundTrip
import SiblingQuery.Proofs.JsonTokens
import SiblingQuery.Proofs.Rounding
import SiblingQuery.Proofs.NearestDouble
import SiblingQuery.Proofs.DecimalTexts
import SiblingQuery.Proofs.IndexRules
import SiblingQuery.Proofs.CommandLines
import SiblingQuery.Proofs.Diagnostics
import SiblingQuery.Proofs.Redirecting
import SiblingQuery.Proofs.QuotedStrings
import SiblingQuery.Proofs.Numerals
import SiblingQuery.Proofs.ShortNumerals
import SiblingQuery.Proofs.YamlFlow
import SiblingQuery.Proofs.FlowTrees
import SiblingQuery.Proofs.ReadersAgree
import SiblingQuery.Proofs.WrittenPositions
import SiblingQuery.Proofs.ValueEquality
import SiblingQuery.Proofs.AttributeTests
import SiblingQuery.Proofs.NodeTests
import SiblingQuery.Proofs.Resuming
import SiblingQuery.Proofs.Alternatives
import SiblingQuery.Proofs.Refusals
import SiblingQuery.Proofs.JsonSearches
import SiblingQuery.Proofs.TestTexts
import SiblingQuery.Proofs.PathTexts
import SiblingQuery.Proofs.Addressing
import SiblingQuery.Proofs.Compression
import SiblingQuery.Proofs.NumberTexts
import SiblingQuery.Proofs.DocumentEquality
import SiblingQuery.Proofs.StructuralEquality
