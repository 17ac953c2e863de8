import ScriptTree.Ast.Construct
import ScriptTree.Ast.Node
import ScriptTree.Ast.Operator
import ScriptTree.Ast.Output
import ScriptTree.Build.Constructs
import ScriptTree.Build.Conversion
import ScriptTree.Build.Error
import ScriptTree.Build.Identity
import ScriptTree.Build.Session
import ScriptTree.Command.Arguments
import ScriptTree.Command.Run
import ScriptTree.Command.Snapshot
import ScriptTree.Comment.Basic
import ScriptTree.Comment.Registry
import ScriptTree.Config.Basic
import ScriptTree.Config.File
import ScriptTree.Config.Setting
import ScriptTree.Disk.Basic
import ScriptTree.Domain.Basic
import ScriptTree.Domain.Direction
import ScriptTree.Domain.Joiner
import ScriptTree.Domain.Mapping
import ScriptTree.Domain.Mark
import ScriptTree.Domain.Punycode
import ScriptTree.Files.Building
import ScriptTree.Files.Collection
import ScriptTree.Files.Sharing
import ScriptTree.Json.Basic
import ScriptTree.Json.Canonical
import ScriptTree.Json.Printer
import ScriptTree.Json.Reader
import ScriptTree.Literal.Numeral
import ScriptTree.Literal.Quoted
import ScriptTree.Main
import ScriptTree.Module.Error
import ScriptTree.Module.Location
import ScriptTree.Module.Package
import ScriptTree.Module.Resolver
import ScriptTree.Module.SearchBase
import ScriptTree.Number.Binary64
import ScriptTree.Number.Decimal
import ScriptTree.Number.Shortest
import ScriptTree.ParseTree.Basic
import ScriptTree.ParseTree.Comments
import ScriptTree.ParseTree.Cursor
import ScriptTree.ParseTree.Kind
import ScriptTree.ParseTree.Listing
import ScriptTree.Path.Basic
import ScriptTree.Proofs.AbsoluteNames
import ScriptTree.Proofs.Ancestors
import ScriptTree.Proofs.ArraySlots
import ScriptTree.Proofs.BareNames
import ScriptTree.Proofs.Bases
import ScriptTree.Proofs.Beginnings
import ScriptTree.Proofs.CollectedFiles
import ScriptTree.Proofs.CommentWalk
import ScriptTree.Proofs.Constructs
import ScriptTree.Proofs.Converts
import ScriptTree.Proofs.Coverage
import ScriptTree.Proofs.Decoder
import ScriptTree.Proofs.Documentation
import ScriptTree.Proofs.ExactFiles
import ScriptTree.Proofs.Excerpts
import ScriptTree.Proofs.Extras
import ScriptTree.Proofs.Faults
import ScriptTree.Proofs.FilePaths
import ScriptTree.Proofs.FileTrees
import ScriptTree.Proofs.FileUrls
import ScriptTree.Proofs.HandlerStyles
import ScriptTree.Proofs.IdentityTable
import ScriptTree.Proofs.JsonNumbers
import ScriptTree.Proofs.JsonStrings
import ScriptTree.Proofs.JsonText
import ScriptTree.Proofs.Levels
import ScriptTree.Proofs.Lineages
import ScriptTree.Proofs.Locality
import ScriptTree.Proofs.Lookups
import ScriptTree.Proofs.MainModules
import ScriptTree.Proofs.ModuleDirectories
import ScriptTree.Proofs.NameRoutes
import ScriptTree.Proofs.NearerPackages
import ScriptTree.Proofs.NodeTypes
import ScriptTree.Proofs.Overlooked
import ScriptTree.Proofs.Parallels
import ScriptTree.Proofs.Parentheses
import ScriptTree.Proofs.PathOrder
import ScriptTree.Proofs.PathSearch
import ScriptTree.Proofs.PercentCodes
import ScriptTree.Proofs.Plan
import ScriptTree.Proofs.Quotations
import ScriptTree.Proofs.RadixNumerals
import ScriptTree.Proofs.Ranges
import ScriptTree.Proofs.Registry
import ScriptTree.Proofs.RegistryRuns
import ScriptTree.Proofs.RelativeNames
import ScriptTree.Proofs.RelativeTexts
import ScriptTree.Proofs.ResolvedFiles
import ScriptTree.Proofs.Results
import ScriptTree.Proofs.Roll
import ScriptTree.Proofs.Rounding
import ScriptTree.Proofs.SavedConfigs
import ScriptTree.Proofs.SavedSources
import ScriptTree.Proofs.Serialization
import ScriptTree.Proofs.Sessions
import ScriptTree.Proofs.SharedBuilds
import ScriptTree.Proofs.Shares
import ScriptTree.Proofs.Sites
import ScriptTree.Proofs.SourceOctets
import ScriptTree.Proofs.Spellings
import ScriptTree.Proofs.StringValues
import ScriptTree.Proofs.Success
import ScriptTree.Proofs.TextOctets
import ScriptTree.Proofs.Texts
import ScriptTree.Proofs.TomlDocuments
import ScriptTree.Proofs.TomlStrings
import ScriptTree.Proofs.WrittenFiles
import ScriptTree.Report.Basic
import ScriptTree.Text.Blank
import ScriptTree.Text.CodeTable
import ScriptTree.Text.Composition
import ScriptTree.Text.Encoding
import ScriptTree.Text.Excerpt
import ScriptTree.Text.Pieces
import ScriptTree.Text.Source
import ScriptTree.Text.Utf16
import ScriptTree.Text.Utf8
import ScriptTree.Toml.Basic
import ScriptTree.Toml.Printer
import ScriptTree.Toml.Reader
import ScriptTree.Toml.Scalar
import ScriptTree.Url.Basic
import ScriptTree.Url.Error
import ScriptTree.Url.FilePath
import ScriptTree.Url.Host
import ScriptTree.Url.Parser
import ScriptTree.Url.Percent
import ScriptTree.Yaml.Flow
import ScriptTree.Yaml.Reader
import ScriptTree.Yaml.Scalar
