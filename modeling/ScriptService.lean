import ScriptService.Command.Basic
import ScriptService.Command.Run
import ScriptService.Command.Stamps
import ScriptService.Command.Words
import ScriptService.CommandLine.Commands
import ScriptService.CommandLine.Parameter
import ScriptService.CommandLine.Program
import ScriptService.Config.Basic
import ScriptService.Config.Load
import ScriptService.Cursor.Call
import ScriptService.Cursor.Line
import ScriptService.Cursor.Token
import ScriptService.Declaration.Basic
import ScriptService.Declaration.Extract
import ScriptService.Declaration.Pattern
import ScriptService.Diagnostic.Basic
import ScriptService.Diagnostic.Fallout
import ScriptService.Diagnostic.Weidu
import ScriptService.Doc.Basic
import ScriptService.Doc.Comment
import ScriptService.Environment
import ScriptService.Failure
import ScriptService.Files.Tree
import ScriptService.Header.Discovery
import ScriptService.Header.Error
import ScriptService.Header.Load
import ScriptService.Index.Basic
import ScriptService.Index.Bucket
import ScriptService.Json.Reader
import ScriptService.Json.Writer
import ScriptService.Language
import ScriptService.Main
import ScriptService.Number.Numeral
import ScriptService.Number.Shortest
import ScriptService.Path.Basic
import ScriptService.Path.Host
import ScriptService.Path.Uri
import ScriptService.Scan.Lexeme
import ScriptService.Scan.Pattern
import ScriptService.Scan.Rule
import ScriptService.Service.Basic
import ScriptService.Service.Compile
import ScriptService.Service.Query
import ScriptService.Shell.Arithmetic
import ScriptService.Shell.Builtin
import ScriptService.Shell.Expansion
import ScriptService.Shell.Launch
import ScriptService.Shell.Machine
import ScriptService.Shell.Run
import ScriptService.Shell.Script
import ScriptService.Shell.Token
import ScriptService.Symbol.Basic
import ScriptService.Symbol.Display
import ScriptService.Text.Base64
import ScriptService.Text.Blank
import ScriptService.Text.CodeSet
import ScriptService.Text.Codes
import ScriptService.Text.Decimal
import ScriptService.Text.Hex
import ScriptService.Text.Lines
import ScriptService.Text.Lowercase
import ScriptService.Text.Printable
import ScriptService.Text.Similarity
import ScriptService.Text.Utf8
import ScriptService.Text.Word
import ScriptService.Value.Basic
import ScriptService.Value.Literal
import ScriptService.Value.Members
import ScriptService.Value.ReadError
import ScriptService.Yaml.Cursor
import ScriptService.Yaml.Format
import ScriptService.Yaml.Graph
import ScriptService.Yaml.Instant
import ScriptService.Yaml.Kind
import ScriptService.Yaml.Lexer
import ScriptService.Yaml.Number
import ScriptService.Yaml.Pen
import ScriptService.Yaml.Reading
import ScriptService.Yaml.Scalar
import ScriptService.Yaml.Source
import ScriptService.Yaml.Token
import ScriptService.Yaml.Writer
import ScriptService.Proofs.Index.Basic
import ScriptService.Proofs.Service.CompileRuns
import ScriptService.Proofs.Declaration.Extract
import ScriptService.Proofs.Failure
import ScriptService.Proofs.Header.Rebuild
import ScriptService.Proofs.Service.Locality
import ScriptService.Proofs.Declaration.Keyword
import ScriptService.Proofs.Declaration.Script
import ScriptService.Proofs.Diagnostic.Fallout
import ScriptService.Proofs.Path.Basic
import ScriptService.Proofs.Path.Uri
import ScriptService.Proofs.Service.DocumentKey
import ScriptService.Proofs.Service.Run
import ScriptService.Proofs.Service.StaticOrigin
import ScriptService.Proofs.Command.Run
import ScriptService.Proofs.Service.Requests
import ScriptService.Proofs.Declaration.Library
import ScriptService.Proofs.Cursor.Token
import ScriptService.Proofs.Scan.Matches
import ScriptService.Proofs.Text.Lines
import ScriptService.Proofs.Declaration.Name
import ScriptService.Proofs.Service.Definition
import ScriptService.Proofs.Service.OutsideHeaders
import ScriptService.Proofs.Service.Filed
import ScriptService.Proofs.Diagnostic.Weidu
import ScriptService.Proofs.Diagnostic.Range
import ScriptService.Proofs.Text.LineEnds
import ScriptService.Proofs.Scan.LineEnds
import ScriptService.Proofs.Declaration.LineEnds
import ScriptService.Proofs.Doc.LineEnds
import ScriptService.Proofs.Header.LineEnds
import ScriptService.Proofs.Files.Walk
import ScriptService.Proofs.CommandLine.OpenFile
import ScriptService.Proofs.Declaration.Order
import ScriptService.Proofs.Cursor.Call
import ScriptService.Proofs.Doc.RoundTrip
import ScriptService.Proofs.Index.Reload
import ScriptService.Proofs.Service.Lookup
import ScriptService.Proofs.Cursor.Line
import ScriptService.Proofs.Diagnostic.Extent
import ScriptService.Proofs.Symbol.Signature
import ScriptService.Proofs.Symbol.Block
import ScriptService.Proofs.Command.Words
import ScriptService.Proofs.Service.Views
import ScriptService.Proofs.Files.Listing
import ScriptService.Proofs.Files.Reach
import ScriptService.Proofs.Files.Order
import ScriptService.Proofs.Header.External
import ScriptService.Proofs.Service.Startup
import ScriptService.Proofs.Scan.Search
import ScriptService.Proofs.Value.Literal
import ScriptService.Proofs.Cursor.Numbering
import ScriptService.Proofs.Config.Saved
import ScriptService.Proofs.Doc.Optional
