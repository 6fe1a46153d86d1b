import Scaffold.Text.Case
import Scaffold.Text.Blank
import Scaffold.Text.Pieces
import Scaffold.Text.Literal
import Scaffold.Number.Digits
import Scaffold.Number.Limits
import Scaffold.Sequence.Repeat
import Scaffold.Descriptor.Growth
import Scaffold.Json.Reader
import Scaffold.Json.Writer
import Scaffold.Yaml.Alias
import Scaffold.Yaml.Writer
import Scaffold.Descriptor.Format
import Scaffold.Source.Requirement
import Scaffold.Toml.Quoting
import Scaffold.Toml.Section
import Scaffold.Manifest.Basic
import Scaffold.Manifest.Pinned
import Scaffold.Service.Names
import Scaffold.Service.Routing
import Scaffold.Service.Documentation
import Scaffold.Service.Artifact
import Scaffold.Descriptor.Stored
import Scaffold.Project.Generate
import Scaffold.CommandLine.Run
import Scaffold.Main
import Scaffold.Proofs.Calls
import Scaffold.Proofs.Replay
import Scaffold.Proofs.Words
import Scaffold.Proofs.Rules
import Scaffold.Proofs.Slash
import Scaffold.Proofs.Routed
import Scaffold.Proofs.Router
import Scaffold.Proofs.Redirects
import Scaffold.Proofs.Dispatch
import Scaffold.Proofs.Fallbacks
import Scaffold.Proofs.Identifiers
import Scaffold.Proofs.LocalNames
import Scaffold.Proofs.Requirements
import Scaffold.Proofs.Templates
import Scaffold.Proofs.Actions
import Scaffold.Proofs.Rendering
import Scaffold.Proofs.Requests
import Scaffold.Proofs.Agreement
import Scaffold.Proofs.Notes
import Scaffold.Proofs.Declarations
import Scaffold.Proofs.CodeLines
import Scaffold.Proofs.FreeTexts
import Scaffold.Proofs.Numerals
import Scaffold.Proofs.ReadBack
import Scaffold.Proofs.JsonRoundTrip
import Scaffold.Proofs.PlainScalars
import Scaffold.Proofs.QuotedScalars
import Scaffold.Proofs.BlockScalars
import Scaffold.Proofs.LexerLines
import Scaffold.Proofs.ScalarTokens
import Scaffold.Proofs.DocumentTokens
import Scaffold.Proofs.WrittenCharacters
import Scaffold.Proofs.DocumentTree
import Scaffold.Proofs.YamlRoundTrip
import Scaffold.Proofs.CallOrder
import Scaffold.Proofs.Paths
import Scaffold.Proofs.Priority
import Scaffold.Proofs.DiskGrowth
import Scaffold.Proofs.Directories
import Scaffold.Proofs.ProjectFiles
import Scaffold.Proofs.Generation
import Scaffold.Proofs.Success
import Scaffold.Proofs.ProjectFrame
import Scaffold.Proofs.Regeneration
import Scaffold.Proofs.ImportSets
import Scaffold.Proofs.Aliases
import Scaffold.Proofs.UseLines
import Scaffold.Proofs.SpokenNames
import Scaffold.Proofs.Nodes
import Scaffold.Proofs.WellFormedFiles
import Scaffold.Proofs.ExactImports
import Scaffold.Proofs.Binding
import Scaffold.Proofs.Formulas
import Scaffold.Proofs.Margins
import Scaffold.Proofs.LaidOutFiles
import Scaffold.Proofs.Misreadings
import Scaffold.Proofs.TypeTexts
import Scaffold.Proofs.JsonTexts
import Scaffold.Proofs.Restatements
import Scaffold.Proofs.Literals
import Scaffold.Proofs.LiteralScan
import Scaffold.Proofs.FileLiterals
import Scaffold.Proofs.PathLiterals
import Scaffold.Proofs.TomlStrings
import Scaffold.Proofs.TomlDocuments
import Scaffold.Proofs.TomlTables
import Scaffold.Proofs.Manifests
import Scaffold.Proofs.Verdicts
import Scaffold.Proofs.Outputs
import Scaffold.Proofs.CrateNames
import Scaffold.Proofs.Returns
import Scaffold.Proofs.DocumentedFiles
import Scaffold.Proofs.QuotedReturns
import Scaffold.Proofs.WordBreaks
