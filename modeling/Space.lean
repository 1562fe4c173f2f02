import Space.Rust.Outcome
import Space.Rust.Word
import Space.Rust.Text
import Space.Data.Table
import Space.Data.Tiling
import Space.Data.Json
import Space.Data.JsonText
import Space.Data.TextFormat
import Space.Effects.Prog
import Space.Effects.Discipline
import Space.Effects.Pool
import Space.Effects.Serial
import Space.Effects.Progress
import Space.Effects.Simulation
import Space.Effects.Disturbed
import Space.Contracts.Errors
import Space.Contracts.ErrorTable
import Space.Contracts.Ids
import Space.Contracts.Uuid
import Space.Contracts.UuidText
import Space.Contracts.IdText
import Space.Contracts.Model
import Space.Contracts.Validate
import Space.Contracts.WellFormed
import Space.Data.Rows
import Space.Contracts.ChunkTable
import Space.Contracts.Logging
import Space.ObjectStore
import Space.ObjectStore.Runs
import Space.ObjectStore.Reads
import Space.Cloud.Metadata
import Space.Cloud.MetadataSteps
import Space.Cloud.MetadataInvariant
import Space.Data.Forest
import Space.Data.Archive
import Space.Cloud.History
import Space.Cloud.Commits
import Space.Cloud.Replay
import Space.Cloud.Listing
import Space.Cloud.Api
import Space.Cloud.Dto
import Space.Cloud.Router
import Space.Cloud.Strict
import Space.Cloud.Errors
import Space.Cloud.Range
import Space.Cloud.RangeSyntax
import Space.Cloud.System
import Space.Cloud.Idempotence
import Space.Cloud.Uploads
import Space.Cloud.UploadOrder
import Space.Cloud.Serializable
import Space.Cloud.Progress
import Space.Cloud.Timeline
import Space.Cloud.Creation
import Space.Client.Core
import Space.Client.Send
import Space.Cloud.Failures
import Space.Client.Stub
import Space.Data.Schema
import Space.Cloud.OpenApi
import Space.Cloud.Conformance
import Space.Client.Retry
import Space.Cloud.IdPaths
import Space.Client.Reassemble
import Space.Client.Corruption
import Space.Client.Concatenation
import Space.Client.RangeRead
import Space.Client.Snapshots
import Space.Data.Toml
import Space.Client.SecretScan
import Space.Client.Config
import Space.Client.UploadLimit
import Space.Client.Startup
import Space.Testing.Corruptor
import Space.Data.Blocks
import Space.Testing.ByteStream
import Space.Testing.Generators
import Space.Testing.Chain
import Space.Testing.NegativeChain
