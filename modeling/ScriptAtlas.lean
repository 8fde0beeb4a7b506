import ScriptAtlas.Block.Extent
import ScriptAtlas.Block.Plan
import ScriptAtlas.Block.Statement
import ScriptAtlas.Block.Word
import ScriptAtlas.Chunk.Assembly
import ScriptAtlas.Chunk.Basic
import ScriptAtlas.Chunk.Coverage
import ScriptAtlas.Chunk.Description
import ScriptAtlas.Chunk.File
import ScriptAtlas.Chunk.Graph
import ScriptAtlas.Chunk.Link
import ScriptAtlas.Chunk.Sequence
import ScriptAtlas.Chunk.Sizing
import ScriptAtlas.Command.Basic
import ScriptAtlas.Command.Display
import ScriptAtlas.Command.Flag
import ScriptAtlas.Command.Help
import ScriptAtlas.Command.Run
import ScriptAtlas.Cut.Candidates
import ScriptAtlas.Cut.Division
import ScriptAtlas.Cut.Safety
import ScriptAtlas.Files.Discovery
import ScriptAtlas.Files.Path
import ScriptAtlas.Files.Tree
import ScriptAtlas.Glob.Basic
import ScriptAtlas.Glob.Compile
import ScriptAtlas.Glob.Matcher
import ScriptAtlas.Guide.Export
import ScriptAtlas.Guide.Format
import ScriptAtlas.Guide.Markdown
import ScriptAtlas.Guide.Ranges
import ScriptAtlas.Guide.Render
import ScriptAtlas.Index.Lock
import ScriptAtlas.Index.Run
import ScriptAtlas.Json.Basic
import ScriptAtlas.Json.Fault
import ScriptAtlas.Json.Reader
import ScriptAtlas.Json.Writer
import ScriptAtlas.Line.Basic
import ScriptAtlas.Line.Classify
import ScriptAtlas.Line.Vocabulary
import ScriptAtlas.Main
import ScriptAtlas.Number.Dyadic
import ScriptAtlas.Number.Fixed
import ScriptAtlas.Number.Literal
import ScriptAtlas.Proofs.Boundary
import ScriptAtlas.Proofs.CutSafety
import ScriptAtlas.Proofs.Division
import ScriptAtlas.Proofs.Endless
import ScriptAtlas.Proofs.Extent
import ScriptAtlas.Proofs.Front
import ScriptAtlas.Proofs.Lines
import ScriptAtlas.Proofs.Partition
import ScriptAtlas.Proofs.Plan
import ScriptAtlas.Proofs.SearchGraph
import ScriptAtlas.Proofs.Statement
import ScriptAtlas.Proofs.Words
import ScriptAtlas.Search.Cache
import ScriptAtlas.Search.Request
import ScriptAtlas.Search.Result
import ScriptAtlas.Search.Searcher
import ScriptAtlas.Settings.Basic
import ScriptAtlas.Settings.Load
import ScriptAtlas.Store.Basic
import ScriptAtlas.Store.Error
import ScriptAtlas.Store.FullText
import ScriptAtlas.Store.ListColumn
import ScriptAtlas.Store.Query
import ScriptAtlas.Store.Schema
import ScriptAtlas.Store.Snapshot
import ScriptAtlas.Store.Tables
import ScriptAtlas.Store.Version
import ScriptAtlas.Store.Wildcard
import ScriptAtlas.Text.Basic
import ScriptAtlas.Text.Blank
import ScriptAtlas.Text.Case
import ScriptAtlas.Text.CasePartners
import ScriptAtlas.Text.CharClass
import ScriptAtlas.Text.Digest
import ScriptAtlas.Text.Distance
import ScriptAtlas.Text.Pattern
import ScriptAtlas.Text.Quoted
import ScriptAtlas.Tool.Arguments
import ScriptAtlas.Tool.Error
import ScriptAtlas.Tool.Schema
import ScriptAtlas.Tool.Server
import ScriptAtlas.Yaml.Basic
import ScriptAtlas.Yaml.Reader
import ScriptAtlas.Proofs.Coverage
import ScriptAtlas.Proofs.Continuation
import ScriptAtlas.Proofs.Refinement
import ScriptAtlas.Proofs.Dependencies
import ScriptAtlas.Proofs.Characters
import ScriptAtlas.Proofs.ReadingOrder
import ScriptAtlas.Proofs.CaselessPatterns
import ScriptAtlas.Proofs.Decimals
import ScriptAtlas.Proofs.Descriptions
import ScriptAtlas.Proofs.ExportReading
import ScriptAtlas.Proofs.ExportRoundTrip
import ScriptAtlas.Proofs.GuideCoverage
import ScriptAtlas.Proofs.PlainChunks
import ScriptAtlas.Proofs.QuietChunks
import ScriptAtlas.Proofs.ChunkReading
import ScriptAtlas.Proofs.ChunkSwap
import ScriptAtlas.Proofs.IndexFreshness
import ScriptAtlas.Proofs.StoreIntegrity
import ScriptAtlas.Proofs.VariableFlow
import ScriptAtlas.Proofs.SearchKeys
import ScriptAtlas.Proofs.ScriptWalk
import ScriptAtlas.Proofs.GraphQueries
import ScriptAtlas.Proofs.DivisionDepth
import ScriptAtlas.Proofs.SizeLimits
import ScriptAtlas.Proofs.Kinds
import ScriptAtlas.Proofs.Literals
import ScriptAtlas.Proofs.Conditions
import ScriptAtlas.Proofs.SearchExpressions
